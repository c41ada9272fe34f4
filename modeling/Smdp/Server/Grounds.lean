import Smdp.Server.Lives

/-!
# Smdp — what a request does rests on what it has seen

A handler decides by what it was answered so far, and by nothing else: not by what another request
is doing, nor by what it did itself the last time. `ServerOp.RestsOn` says of each write to the
store, and of what the library is handed, which earlier answers to the same request are behind it;
`Answer.RestsOn` says it of an answer of success. Every command keeps to both (`restsOn`).
-/

namespace Smdp

open Interaction

variable {σ : Type}

/-! ## What a request has seen -/

section

variable (made : List (Call (ServerSig σ)))

/-- In one of the listings `o` is the one order on offer. -/
def OnlyOffered (o : Order) : Prop :=
  ∃ orders, ⟨.store .listOrders, .ok orders⟩ ∈ made ∧ availableOrders orders = [o]

/-- The entry of the session was found, and is handed to the library for the order `o`. -/
structure Considers (req : AuthenticateClientRequest) (o : Order) (entry : Entry σ) : Prop where
  offered : OnlyOffered made o
  found : ⟨.getSession req.transactionId, some entry⟩ ∈ made

/-- The library accepted the eUICC for `o`, which left `session`. -/
structure Trusts (req : AuthenticateClientRequest) (o : Order) (entry : Entry σ) (session : σ)
    (resp : Bytes) : Prop extends Considers made req o entry where
  accepted : ⟨.rsp (.dpAuthenticateClient entry.session req.authenticateServerResponse o.metadata),
    (session, .ok resp)⟩ ∈ made

/-- And the entry says so. -/
structure Admits (req : AuthenticateClientRequest) (o : Order) (entry : Entry σ) (session : σ)
    (resp : Bytes) : Prop extends Trusts made req o entry session resp where
  booked : ⟨.putSession req.transactionId { entry with session, orderId := some o.id }, ()⟩ ∈ made

/-- The EID and the certificate are those of the session. -/
structure Identifies (session : σ) (eid : String) (cert : Bytes) : Prop where
  eid : ∃ r, ⟨.rsp (.dpSessionEid session), r⟩ ∈ made ∧ readEid r = .ok eid
  cert : ⟨.rsp (.dpSessionEuiccCert session), .ok cert⟩ ∈ made

/-- The session was found and is for `o`. -/
structure Redeems (req : GetBoundProfilePackageRequest) (o : Order) (entry : Entry σ) : Prop where
  found : ⟨.getSession req.transactionId, some entry⟩ ∈ made
  booked : entry.orderId = some o.id
  listed : Listed made o

/-- The library built the package of `o` on the session, and the session is gone. -/
structure Builds (req : GetBoundProfilePackageRequest) (o : Order) (entry : Entry σ) (bpp : Bytes) :
    Prop extends Redeems made req o entry where
  built : ∃ otskDp session, ⟨.otskDp, otskDp⟩ ∈ made
    ∧ ⟨.rsp (.dpGetBoundProfilePackage entry.session req.prepareDownloadResponse o.upp otskDp),
        (session, .ok bpp)⟩ ∈ made
  spent : ⟨.removeSession req.transactionId, ()⟩ ∈ made

/-- `order` is what the ICCID in the notification leads to. -/
def Matches (raw : Bytes) (order : Option Order) : Prop :=
  order = none ∨ ∃ v iccid, ⟨.rsp (.dpNotificationMetadata raw), .ok v⟩ ∈ made
    ∧ v.toNotification.iccid = some iccid ∧ ⟨.store (.orderByIccid iccid), .ok order⟩ ∈ made

/-- What the notification verified as, against the certificate of `order`. -/
def Verifies (raw : Bytes) (order : Option Order) (verified : Option Notification) : Prop :=
  ∃ r, ⟨.rsp (.dpVerifyNotification (order.bind Order.euiccCert) raw), r⟩ ∈ made
    ∧ verified = (readVerified r).toOption

/-- A notification reports that the Profile of order `i` was installed, or was not. -/
def Reported (c : Command) (i : Int) (installed : Bool) : Prop :=
  ∃ req o v, c = .handleNotification req ∧ Matches made req.pendingNotification (some o)
    ∧ Verifies made req.pendingNotification (some o) (some v) ∧ o.id = i
    ∧ v.isInstallationResult = true ∧ v.installed = installed

/-- `n` is what is kept of the notification, and nothing was kept of it yet. -/
def Files (raw : Bytes) (n : NewNotification) : Prop :=
  (∃ order verified m, Matches made raw order ∧ Verifies made raw order verified
      ∧ n = toRecord verified m order raw
      ∧ (verified = some m ∨ ∃ r, ⟨.rsp (.dpNotificationMetadata raw), r⟩ ∈ made
        ∧ readMetadata r = .ok m))
    ∧ ∀ n' r, ⟨.store (.recordNotification n'), r⟩ ∉ made

/-- The library could make nothing of the notification: neither verify it nor read it. -/
def Unreadable (raw : Bytes) : Prop :=
  ∃ cert code code', ⟨.rsp (.dpVerifyNotification cert raw), .error code⟩ ∈ made
    ∧ ⟨.rsp (.dpNotificationMetadata raw), .error code'⟩ ∈ made

/-- The store was asked to keep the notification, unless there was nothing to keep. What the
store said to it is not looked at: the handler drops that answer. -/
def Noted (raw : Bytes) : Prop :=
  (∃ n r, ⟨.store (.recordNotification n), r⟩ ∈ made ∧ n.raw = raw) ∨ Unreadable made raw

/-- `new` is the order that was asked for. -/
structure IsOrdered (args : OrderAdd) (new : NewOrder) : Prop where
  iccid : args.readIccid = .ok new.iccid
  upp : new.upp = args.upp
  metadata : new.metadata = args.metadata
  matchingId : args.matchingId = some new.matchingId
    ∨ args.matchingId = none ∧ ∃ raw, ⟨.random, raw⟩ ∈ made
      ∧ new.matchingId = generateMatchingId raw

end

/-! What was seen stays seen. -/

variable {made made' : List (Call (ServerSig σ))}

/-- Each of these says that certain calls were made, so it goes on holding as more are. -/
theorem Admits.mono {req : AuthenticateClientRequest} {o : Order} {entry : Entry σ} {session : σ}
    {resp : Bytes} (h : Admits made req o entry session resp) (hmade : made ⊆ made') :
    Admits made' req o entry session resp := by
  obtain ⟨orders, hlisted, havail⟩ := h.offered
  exact ⟨⟨⟨⟨orders, hmade hlisted, havail⟩, hmade h.found⟩, hmade h.accepted⟩, hmade h.booked⟩

theorem Matches.mono {raw : Bytes} {order : Option Order} (h : Matches made raw order)
    (hmade : made ⊆ made') : Matches made' raw order := by
  rcases h with hnone | ⟨v, iccid, hread, hiccid, hfound⟩
  · exact .inl hnone
  · exact .inr ⟨v, iccid, hmade hread, hiccid, hmade hfound⟩

theorem Noted.mono {raw : Bytes} (h : Noted made raw) (hmade : made ⊆ made') : Noted made' raw := by
  rcases h with ⟨n, r, hn, hraw⟩ | ⟨cert, code, code', hverify, hread⟩
  · exact .inl ⟨n, r, hmade hn, hraw⟩
  · exact .inr ⟨cert, code, code', hmade hverify, hmade hread⟩

/-! ## Calls and answers -/

/-- What is behind a call of a request that serves `c` and has made the calls `made`. -/
@[simp] def ServerOp.RestsOn (c : Command) (made : List (Call (ServerSig σ))) :
    ServerOp σ → Prop
  | .store (.addOrder new) => ∃ args, c = .orderAdd args ∧ IsOrdered made args new
  | .store (.setState i .available) => c = .orderReset i ∧ ∃ o, Listed made o ∧ o.id = i
  | .store (.setState i .bound) =>
    ∃ req o entry session resp, c = .authenticateClient req
      ∧ Admits made req o entry session resp ∧ o.id = i
  | .store (.setState i .downloaded) =>
    (∃ req o entry bpp, c = .getBoundProfilePackage req ∧ Builds made req o entry bpp ∧ o.id = i)
      ∨ Reported made c i true
  | .store (.setState i .failed) => Reported made c i false
  | .store (.bindEuicc i eid cert) =>
    ∃ req o entry session resp, c = .authenticateClient req
      ∧ Admits made req o entry session resp ∧ o.id = i ∧ Identifies made session eid cert
  | .store (.recordNotification n) =>
    ∃ req, c = .handleNotification req ∧ Files made req.pendingNotification n
  | .rsp (.dpAuthenticateClient session authServerResp metadata) =>
    ∃ req o entry, c = .authenticateClient req ∧ Considers made req o entry
      ∧ session = entry.session ∧ authServerResp = req.authenticateServerResponse
      ∧ metadata = o.metadata
  | .rsp (.dpGetBoundProfilePackage session prepareDownloadResp upp _) =>
    ∃ req o entry, c = .getBoundProfilePackage req ∧ Redeems made req o entry
      ∧ session = entry.session ∧ prepareDownloadResp = req.prepareDownloadResponse ∧ upp = o.upp
  | .rsp (.dpSessionEid session) | .rsp (.dpSessionEuiccCert session) =>
    ∃ req o entry resp, c = .authenticateClient req ∧ Trusts made req o entry session resp
  | _ => True

/-- What is behind an answer of success. A notification is answered with nothing, whatever came of
it. -/
def Body.RestsOn (config : ServerConfig) (c : Command) (made : List (Call (ServerSig σ))) :
    Body → Prop
  | .initiateAuthentication b =>
    ∃ req challenge transactionId serverChallenge session resp f,
      c = .initiateAuthentication req ∧ req.euiccChallenge = Subtype.val challenge
        ∧ ⟨.transactionId, transactionId⟩ ∈ made ∧ ⟨.serverChallenge, serverChallenge⟩ ∈ made
        ∧ ⟨.rsp (.dpInitiateAuthentication challenge req.euiccInfo1 transactionId serverChallenge
            config.serverAddress (some req.smdpAddress)), .ok (session, resp)⟩ ∈ made
        ∧ ⟨.rsp (.dpInitiateFields resp), .ok f⟩ ∈ made
        ∧ ⟨.insertSession transactionId.val session, ()⟩ ∈ made
        ∧ b = { header := ResponseHeader.success, transactionId := transactionId.val,
                serverSigned1 := f.serverSigned1, serverSignature1 := f.serverSignature1,
                euiccCiPkidToBeUsed := f.euiccCiPkid, serverCertificate := f.serverCertificate }
  | .authenticateClient b =>
    ∃ req o entry session resp g, c = .authenticateClient req
      ∧ Admits made req o entry session resp ∧ ⟨.rsp (.dpAuthenticateFields resp), .ok g⟩ ∈ made
      ∧ (∃ r, ⟨.store (.setState o.id .bound), r⟩ ∈ made)
      ∧ b = { header := ResponseHeader.success, transactionId := req.transactionId,
              profileMetadata := g.profileMetadata, smdpSigned2 := g.smdpSigned2,
              smdpSignature2 := g.smdpSignature2, smdpCertificate := g.smdpCertificate }
  | .getBoundProfilePackage b =>
    ∃ req o entry, c = .getBoundProfilePackage req
      ∧ Builds made req o entry b.boundProfilePackage
      ∧ (∃ r, ⟨.store (.setState o.id .downloaded), r⟩ ∈ made)
      ∧ b.header = ResponseHeader.success ∧ b.transactionId = req.transactionId
  | .empty => ∃ req, c = .handleNotification req ∧ Noted made req.pendingNotification
  | .failure _ => ∀ req, c ≠ .handleNotification req

/-- An answer of the command line says what the store was asked and what it said, and rests on
nothing further. -/
def Answer.RestsOn (config : ServerConfig) (c : Command)
    (made : List (Call (ServerSig σ))) : Answer → Prop
  | .http r => r.body.RestsOn config c made
  | _ => True

/-- The grounds as a protocol: its state is what the request has seen, and a call is allowed if
that is behind it. -/
abbrev groundsProtocol (c : Command) : Protocol (ServerSig σ) (List (Call (ServerSig σ))) :=
  .recording (ServerOp.RestsOn c)

/-! ## One handler at a time -/

section

variable (config : ServerConfig)

/-- What a handler does rests on what it has seen, and so does what it answers. -/
abbrev Grounded (c : Command) (p : Handler σ Response) : Prop :=
  p.Keeps (groundsProtocol c) (fun r made => r.body.RestsOn config c made) []

attribute [local simp] Prog.ask Handler.rsp Handler.store Handler.openStore Handler.addOrder
  Handler.listOrders Handler.orderByIccid Handler.bindEuicc Handler.setState
  Handler.recordNotification Handler.lock Handler.unlock Handler.getSession Handler.putSession
  Handler.removeSession Handler.insertSession DpSession.authenticateClient
  DpSession.getBoundProfilePackage DpSession.eid DpSession.euiccCert initiateFields
  authenticateFields notificationMetadata verifyNotification okJson failed
  checkCode_ok checkCode_error

theorem fromRspError_body (e : RspError) (subject : String) :
    ∃ b, (fromRspError e subject).body = .failure b := by
  cases e with
  | refused what => exact ⟨_, rfl⟩
  | notReached what => exact ⟨_, rfl⟩

@[simp] theorem Body.restsOn_failure (c : Command) (made : List (Call (ServerSig σ)))
    (b : FailureResponse) :
    (Body.failure b).RestsOn config c made ↔ ∀ req, c ≠ .handleNotification req := Iff.rfl

@[simp] theorem fromRspError_restsOn (c : Command) (made : List (Call (ServerSig σ)))
    (e : RspError) (subject : String) :
    (fromRspError e subject).body.RestsOn config c made ↔ ∀ req, c ≠ .handleNotification req := by
  obtain ⟨b, hb⟩ := fromRspError_body e subject
  rw [hb]
  rfl

theorem cString_eq_some {s own : String} (h : DpSession.cString s = some own) : own = s := by
  unfold DpSession.cString at h
  split at h
  · cases h
  · exact (Option.some.inj h).symm

/-- InitiateAuthentication: what is answered are the fields the library cut, under the
transactionId that was drawn, and the session it made is on the table by then. -/
theorem grounded_initiateAuthentication (req : InitiateAuthenticationRequest) :
    Grounded (σ := σ) config (.initiateAuthentication req) (initiateAuthentication config req) := by
  unfold initiateAuthentication
  cases hchallenge : Octets.ofBytes? 16 req.euiccChallenge with
  | none => simp
  | some challenge =>
    simp
    intro transactionId htransactionId serverChallenge hserverChallenge
    -- both addresses have to become C strings before the library is asked
    unfold DpSession.initiate
    rw [Option.map_some]
    cases hown : DpSession.cString config.serverAddress with
    | none => simp
    | some own =>
      cases hasked : DpSession.cString req.smdpAddress with
      | none => simp
      | some asked =>
        obtain rfl := cString_eq_some hown
        obtain rfl := cString_eq_some hasked
        simp
        rintro (code | ⟨session, resp⟩)
        · simp
        · simp
          rintro (code | f)
          · simp
          · simp
            intro _
            exact ⟨req, challenge, ⟨transactionId, htransactionId⟩,
              ⟨serverChallenge, hserverChallenge⟩, session, resp, f, rfl,
              Octets.ofBytes?_eq_some.mp hchallenge, by simp, by simp, by simp, by simp, by simp,
              rfl⟩

/-- Once the eUICC is accepted, the store is told so. -/
theorem grounded_bind {req : AuthenticateClientRequest} {made : List (Call (ServerSig σ))}
    {o : Order} {entry : Entry σ} {session : σ} {resp : Bytes} {g : AuthenticateFields}
    {eid : Except Int EidBuffer} {cert : Except Int Bytes}
    (haccepts : Admits made req o entry session resp)
    (hfields : ⟨.rsp (.dpAuthenticateFields resp), .ok g⟩ ∈ made)
    (heid : ⟨.rsp (.dpSessionEid session), eid⟩ ∈ made)
    (hcert : ⟨.rsp (.dpSessionEuiccCert session), cert⟩ ∈ made) :
    (rememberEuicc o.id (readEid eid).toOption
      (checkCode "session eUICC certificate" cert).toOption >>= fun _ =>
        Handler.setState o.id .bound >>= fun _ =>
          pure (okJson (.authenticateClient
            { header := ResponseHeader.success
              transactionId := req.transactionId
              profileMetadata := g.profileMetadata
              smdpSigned2 := g.smdpSigned2
              smdpSignature2 := g.smdpSignature2
              smdpCertificate := g.smdpCertificate }))).Keeps
      (groundsProtocol (.authenticateClient req))
      (fun r made => r.body.RestsOn config (.authenticateClient req) made) made := by
  -- the state is set, and the answer given, whatever came of remembering the eUICC
  have hbound : ∀ more, (Handler.setState (σ := σ) o.id .bound >>= fun _ =>
      pure (okJson (.authenticateClient
        { header := ResponseHeader.success
          transactionId := req.transactionId
          profileMetadata := g.profileMetadata
          smdpSigned2 := g.smdpSigned2
          smdpSignature2 := g.smdpSignature2
          smdpCertificate := g.smdpCertificate }))).Keeps (groundsProtocol (.authenticateClient req))
        (fun r made => r.body.RestsOn config (.authenticateClient req) made) (made ++ more) := by
    intro more
    have hmore : made ⊆ made ++ more := List.subset_append_left _ _
    simp
    refine ⟨⟨o, ⟨entry, session, resp, haccepts.mono hmore⟩, rfl⟩, ?_⟩
    intro moved
    rw [← List.append_assoc]
    have hlast : made ⊆ made ++ more ++ [⟨.store (.setState o.id .bound), moved⟩] :=
      List.Subset.trans hmore (List.subset_append_left _ _)
    exact ⟨req, o, entry, session, resp, g, rfl, haccepts.mono hlast, hlast hfields,
      ⟨moved, by simp⟩, rfl⟩
  rw [Prog.keeps_bind]
  unfold rememberEuicc
  cases heidRead : readEid eid with
  | error e => exact List.append_nil made ▸ hbound []
  | ok id =>
    cases cert with
    | error code => exact List.append_nil made ▸ hbound []
    | ok cert =>
      refine ⟨⟨req, o, entry, session, resp, rfl, haccepts, rfl, ⟨eid, heid, heidRead⟩, hcert⟩, ?_⟩
      intro bound
      exact hbound [⟨.store (.bindEuicc o.id id cert), bound⟩]

/-- AuthenticateClient: the library is handed the session found for the one order on offer; what
is asked of it and told to the store after that rests on the acceptance. -/
theorem grounded_authenticateClient (req : AuthenticateClientRequest) :
    Grounded (σ := σ) config (.authenticateClient req) (authenticateClient req) := by
  unfold authenticateClient
  simp
  intro listed
  cases listed with
  | error e => simp
  | ok orders =>
    dsimp only
    match havail : availableOrders orders with
    -- no order on offer, or several: answered Failed before anything is asked of the library
    | [] => simp
    | _ :: _ :: _ => simp
    | [order] =>
      simp
      intro locked live
      cases live with
      | none => simp
      | some entry =>
        simp
        -- the call of the library rests on the listing and on the look-up
        refine ⟨⟨order, entry, ⟨⟨orders, by simp, havail⟩, by simp⟩, rfl, rfl⟩, ?_⟩
        rintro session (code | resp)
        · -- refused: the session is written back and nothing more is asked of it
          simp
        · -- from the acceptance on, the calls are on the session that the library left
          have htrusts : ∀ more, Trusts ([⟨.store .listOrders, .ok orders⟩, ⟨.lock, locked⟩,
              ⟨.getSession req.transactionId, some entry⟩,
              ⟨.rsp (.dpAuthenticateClient entry.session req.authenticateServerResponse
                order.metadata), (session, .ok resp)⟩] ++ more) req order entry session resp :=
            fun more => ⟨⟨⟨orders, by simp, havail⟩, by simp⟩, by simp⟩
          simp
          refine ⟨⟨order, entry, resp, htrusts []⟩, ?_⟩
          intro eid
          refine ⟨⟨order, entry, resp, htrusts [_]⟩, ?_⟩
          rintro cert _ (code | g)
          · -- the fields cannot be cut: answered `Failed`, and nothing is written
            simp
          · refine grounded_bind config ⟨htrusts [_, _, _, _, _], ?_⟩ ?_ ?_ ?_
            all_goals simp

/-- GetBoundProfilePackage: the package is built on the session found, for the listed order that
session was booked for, and it is taken off the table before the answer. -/
theorem grounded_getBoundProfilePackage (req : GetBoundProfilePackageRequest) :
    Grounded (σ := σ) config (.getBoundProfilePackage req) (getBoundProfilePackage req) := by
  unfold getBoundProfilePackage
  simp
  intro otskDp hotskDp _ live
  cases live with
  | none => simp
  | some entry =>
    simp [findUpp]
    split
    · simp
    · rename_i id hid
      simp
      intro listed
      cases listed with
      | error e => simp
      | ok orders =>
        simp
        split
        · simp
        · rename_i upp hfound
          -- the UPP is that of the listed order the session was booked for
          obtain ⟨order, hfind, rfl⟩ := Option.map_eq_some_iff.mp hfound
          have hid' : order.id = id := by simpa using List.find?_some hfind
          have hmem : order ∈ orders := List.mem_of_find?_eq_some hfind
          simp
          refine ⟨⟨order, entry, ⟨by simp, by rw [hid, hid'], ⟨orders, by simp, hmem⟩⟩, rfl, rfl⟩, ?_⟩
          rintro session (code | bpp)
          · simp
          · simp
            intro _
            -- all it takes for a package is seen by now; `set_state` and the answer come after
            have hbuilds : ∀ more, Builds ([⟨.otskDp, ⟨otskDp, hotskDp⟩⟩, ⟨.lock, ()⟩,
                ⟨.getSession req.transactionId, some entry⟩, ⟨.store .listOrders, .ok orders⟩,
                ⟨.rsp (.dpGetBoundProfilePackage entry.session req.prepareDownloadResponse order.upp
                  ⟨otskDp, hotskDp⟩), (session, .ok bpp)⟩,
                ⟨.removeSession req.transactionId, ()⟩, ⟨.unlock, ()⟩] ++ more)
                req order entry bpp :=
              fun more => ⟨⟨by simp, by rw [hid, hid'], ⟨orders, by simp, hmem⟩⟩,
                ⟨⟨otskDp, hotskDp⟩, session, by simp, by simp⟩, by simp⟩
            refine ⟨.inl ⟨order, ⟨entry, bpp, hbuilds []⟩, hid'⟩, ?_⟩
            intro moved
            exact ⟨req, order, entry, rfl, hbuilds [_], ⟨moved, by simp [hid']⟩, rfl, rfl⟩

/-! ## Notifications -/

variable {made : List (Call (ServerSig σ))} {c : Command}

theorem toOption_eq_some {ε α : Type} {r : Except ε α} {a : α} :
    r.toOption = some a ↔ r = .ok a := by
  cases r with
  | error e => exact iff_of_false (by simp [Except.toOption]) (by simp)
  | ok b => simp [Except.toOption]

/-- The ICCID the wrapper reads off a notification is the one the library reported. -/
theorem readMetadata_iccid {r : Except Int RspNotification} {m : Notification}
    (h : readMetadata r = .ok m) : ∃ v, r = .ok v ∧ v.toNotification.iccid = m.iccid := by
  cases r with
  | error code => cases h
  | ok v =>
    cases h
    exact ⟨v, rfl, rfl⟩

/-- The order is looked up by the ICCID that was read. -/
theorem grounded_matchOrder {raw : Bytes} {first : Except Int RspNotification} :
    (matchOrder (σ := σ) ((readMetadata first).toOption.bind Notification.iccid)).Keeps
      (groundsProtocol c)
      (fun order made => Matches made raw order
        ∧ ∀ n r, ⟨.store (.recordNotification n), r⟩ ∉ made)
      [⟨.rsp (.dpNotificationMetadata raw), first⟩] := by
  cases hiccid : (readMetadata first).toOption.bind Notification.iccid with
  | none => exact ⟨.inl rfl, by simp⟩
  | some iccid =>
    obtain ⟨m, hm, hmiccid⟩ := Option.bind_eq_some_iff.mp hiccid
    obtain ⟨v, rfl, hv⟩ := readMetadata_iccid (toOption_eq_some.mp hm)
    unfold matchOrder
    simp
    intro found
    cases found with
    -- a look-up that fails counts as no order: `.ok().flatten()`
    | error e => exact ⟨.inl rfl, by simp⟩
    | ok order => exact ⟨.inr ⟨v, iccid, by simp, hv.trans hmiccid, by simp⟩, by simp⟩

/-- What is kept is what the notification says, verified or not. -/
theorem grounded_keepNotification {raw : Bytes} {order : Option Order}
    {checked second : Except Int RspNotification}
    (hmatches : Matches made raw order)
    (hchecked : ⟨.rsp (.dpVerifyNotification (order.bind Order.euiccCert) raw), checked⟩ ∈ made)
    (hsecond : ⟨.rsp (.dpNotificationMetadata raw), second⟩ ∈ made)
    (hnone : ∀ n r, ⟨.store (.recordNotification n), r⟩ ∉ made) :
    (keepNotification (σ := σ) (readVerified checked).toOption (readMetadata second).toOption order
      raw).Keeps (groundsProtocol (.handleNotification ⟨raw⟩))
      (fun _ made' => made ⊆ made' ∧ Noted made' raw) made := by
  unfold keepNotification
  cases hm : (readVerified checked).toOption.or (readMetadata second).toOption with
  | some m =>
    refine ⟨⟨⟨raw⟩, rfl, ⟨order, _, m, hmatches, ⟨checked, hchecked, rfl⟩, rfl, ?_⟩, hnone⟩, ?_⟩
    · cases hverified : (readVerified checked).toOption with
      | some v =>
        rw [hverified] at hm
        exact .inl hm
      | none =>
        rw [hverified] at hm
        exact .inr ⟨second, hsecond, toOption_eq_some.mp hm⟩
    · -- whatever the store answers, it was asked: `let _ =`
      intro r
      exact ⟨List.subset_append_left _ _, .inl ⟨_, r, by simp, rfl⟩⟩
  | none =>
    -- neither way of reading it came to anything
    obtain ⟨hverified, hread⟩ := Option.or_eq_none_iff.mp hm
    refine ⟨List.Subset.refl _, .inr ⟨order.bind Order.euiccCert, ?_⟩⟩
    cases checked with
    | ok v => cases hverified
    | error code =>
      cases second with
      | ok v => cases hread
      | error code' => exact ⟨code, code', hchecked, hsecond⟩

/-- An order moves as a verified report says. -/
theorem grounded_moveOrder {req : HandleNotificationRequest} {order : Option Order}
    {verified : Option Notification} (hmatches : Matches made req.pendingNotification order)
    (hverifies : Verifies made req.pendingNotification order verified) :
    (moveOrder (σ := σ) verified order).Keeps (groundsProtocol (.handleNotification req))
      (fun _ made' => made ⊆ made') made := by
  unfold moveOrder
  split
  · rename_i v o
    split
    · rename_i hresult
      refine ⟨?_, fun _ => List.subset_append_left _ _⟩
      cases hinstalled : v.installed with
      | true => exact .inr ⟨req, o, v, rfl, hmatches, hverifies, rfl, hresult, hinstalled⟩
      | false => exact ⟨req, o, v, rfl, hmatches, hverifies, rfl, hresult, hinstalled⟩
    · exact List.Subset.refl _
  · exact List.Subset.refl _

/-- HandleNotification, part by part: which order, whether it verifies, what is kept, and whether
an order moves. Each part is given the calls of the parts before it as a list `made` it knows only
by what is in there. -/
theorem grounded_handleNotification (req : HandleNotificationRequest) :
    Grounded (σ := σ) config (.handleNotification req) (handleNotification req) := by
  unfold handleNotification
  simp
  intro first
  refine grounded_matchOrder.mono ?_
  rintro order made ⟨hmatches, hnone⟩ checked second
  -- what was seen before anything is kept, and what is seen after it
  -- from here on only what is in the list matters, not how it was come by
  generalize hseen : made ++ [_, _] = seen
  have hmade : made ⊆ seen := hseen ▸ List.subset_append_left _ _
  have hchecked : ⟨.rsp (.dpVerifyNotification (order.bind Order.euiccCert)
      req.pendingNotification), checked⟩ ∈ seen := by simp [← hseen]
  have hsecond : ⟨.rsp (.dpNotificationMetadata req.pendingNotification), second⟩ ∈ seen := by
    simp [← hseen]
  have hkept := grounded_keepNotification (hmatches.mono hmade) hchecked hsecond
    (by simpa [← hseen] using hnone)
  refine hkept.mono ?_
  rintro _ after ⟨hafter, hnoted⟩
  have hverifies : Verifies after req.pendingNotification order (readVerified checked).toOption :=
    ⟨checked, hafter hchecked, rfl⟩
  refine (grounded_moveOrder ((hmatches.mono hmade).mono hafter) hverifies).mono ?_
  intro _ last hlast
  exact ⟨req, rfl, hnoted.mono hlast⟩

/-! ## The commands on orders -/

/-- `order add` asks for one order, the one its arguments describe. -/
theorem grounded_orderAdd (args : OrderAdd) :
    (orderAdd (σ := σ) args).Keeps (groundsProtocol (.orderAdd args)) (fun _ _ => True) [] := by
  unfold orderAdd
  cases hiccid : args.readIccid with
  | error e => simp
  | ok iccid =>
    simp
    intro opened
    cases opened with
    | error e => simp
    | ok _ =>
      simp [createOrder, orGenerate]
      cases hid : args.matchingId with
      | some m =>
        simp
        refine ⟨⟨hiccid, rfl, rfl, .inl hid⟩, ?_⟩
        rintro (e | order) <;> simp
      | none =>
        simp
        intro raw hraw
        refine ⟨⟨hiccid, rfl, rfl, .inr ⟨hid, ⟨raw, hraw⟩, by simp, rfl⟩⟩, ?_⟩
        rintro (e | order) <;> simp

/-- `order reset` sets no order that it was not shown. -/
theorem grounded_orderReset (id : Int) :
    (orderReset (σ := σ) id).Keeps (groundsProtocol (.orderReset id)) (fun _ _ => True) [] := by
  unfold orderReset
  simp
  intro opened
  cases opened with
  | error e => simp
  | ok _ =>
    simp [listOrders]
    rintro (e | known)
    · simp
    · simp
      split
      · rename_i hknown
        obtain ⟨o, ho, hid⟩ := hknown
        simp
        refine ⟨⟨o, ⟨known, by simp, ho⟩, hid⟩, ?_⟩
        rintro (e | _) <;> simp
      · simp

/-- `order list` writes nothing. -/
theorem grounded_orderList (c : Command) :
    (orderList (σ := σ)).Keeps (groundsProtocol c) (fun _ _ => True) [] := by
  unfold orderList
  simp
  intro opened
  cases opened with
  | error e => simp
  | ok _ =>
    simp [listOrders]
    rintro (e | orders) <;> simp

end

/-- **Every command rests on what it has seen**, call for call, and so does its answer. -/
theorem restsOn (config : ServerConfig) (c : Command) :
    (c.program (σ := σ) config).Keeps (groundsProtocol c)
      (fun a made => a.RestsOn config c made) (groundsProtocol c).start := by
  -- an endpoint's answer is its response, wrapped
  have hhttp : ∀ {p : Handler σ Response}, Grounded config c p →
      (p >>= fun r => pure (Answer.http r)).Keeps (groundsProtocol c)
        (fun a made => a.RestsOn config c made) [] := by
    intro p hp
    simpa [Grounded, Answer.RestsOn] using hp
  -- a command's answer is wrapped too, and needs no ground
  have hother : ∀ {α : Type} {p : Handler σ α} (f : α → Answer),
      (∀ a (made : List (Call (ServerSig σ))), (f a).RestsOn config c made) →
      p.Keeps (groundsProtocol c) (fun _ _ => True) [] →
      (p >>= fun a => pure (f a)).Keeps (groundsProtocol c)
        (fun a made => a.RestsOn config c made) [] := by
    intro α p f hf hp
    rw [Prog.keeps_bind]
    exact hp.mono fun a made _ => hf a made
  cases c with
  | initiateAuthentication req => exact hhttp (grounded_initiateAuthentication config req)
  | authenticateClient req => exact hhttp (grounded_authenticateClient config req)
  | getBoundProfilePackage req => exact hhttp (grounded_getBoundProfilePackage config req)
  | handleNotification req => exact hhttp (grounded_handleNotification config req)
  | orderAdd args => exact hother _ (fun _ _ => trivial) (grounded_orderAdd args)
  | orderReset id => exact hother _ (fun _ _ => trivial) (grounded_orderReset id)
  | orderList => exact hother _ (fun _ _ => trivial) (grounded_orderList _)
  | reopen => exact hother _ (fun _ _ => trivial) ⟨trivial, fun _ => trivial⟩

end Smdp
