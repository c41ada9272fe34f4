import Smdp.Laws.Account

/-!
# Smdp — what an answer of failure says

A synchronous function that fails names a subject and a reason and says what happened. `blame` lists
the answers that are to blame for a failure, with what is then answered. A request is answered
`Failed` exactly if something it was answered is to blame, or the request itself is, and it is
answered just that (`failures_explained`).

So the refusals are the library's. euicc-rsp tells "asked, answered no" from "never reached", and
the reason code is "refused" for the first and for nothing else. Not for all of the first, though:
AuthenticateClient goes on without an EID or a certificate that the library refuses to give, so
those two calls decide no answer and are not among `libraryFailure`.
-/

namespace Smdp

open Interaction

variable {σ : Type}

/-! ## What is to blame -/

/-- The code that a call of the library failed with, what was asked for and the subject it is
reported under. That an EID or a certificate cannot be had is no failure, and a notification is
answered the same whatever is made of it. -/
def libraryFailure : (call : RspCall σ) → call.Ret → Option (Int × String × String)
  | .dpInitiateAuthentication .., .error n => some (n, "InitiateAuthentication", code.smdpAddress)
  | .dpInitiateFields _, .error n => some (n, "InitiateAuthentication fields", code.execution)
  | .dpAuthenticateClient .., (_, .error n) => some (n, "AuthenticateClient", code.transactionId)
  | .dpAuthenticateFields _, .error n => some (n, "AuthenticateClient fields", code.execution)
  | .dpGetBoundProfilePackage .., (_, .error n) =>
    some (n, "GetBoundProfilePackage", code.transactionId)
  | _, _ => none

/-- A listing that leaves AuthenticateClient without an order. -/
def offerFailure : Except StoreError (List Order) → Option Response
  | .error e => some (failed code.profile code.execution e.display)
  | .ok orders =>
    match availableOrders orders with
    | [] =>
      some (failed code.profile code.unknown
        ("no order is available -- add one, or reset one that has "
          ++ "already been downloaded (smdp order list shows their state)"))
    | [_] => none
    | _ :: _ :: rest =>
      some (failed code.profile code.unknown
        (s!"{rest.length + 2} orders are available and the MatchingID is not read from "
          ++ "ctxParams1 yet, so this server cannot tell which is wanted"))

/-- The session is not for any order, or for none that can be found. -/
def notAuthenticated : Response :=
  failed code.profile code.unknown "this session has not authenticated against an order yet"

/-- A listing without the order that the session is for. -/
def serveFailure (orderId : Option Int) (listed : Except StoreError (List Order)) :
    Option Response :=
  match orderId, listed with
  | some id, .ok orders => if orders.any fun o => o.id = id then none else some notAuthenticated
  | _, _ => some notAuthenticated

/-- The order of the session that was found. -/
def foundOrder (made : List (Call (ServerSig σ))) : Option Int :=
  made.findSome? fun
    | ⟨.getSession _, some entry⟩ => entry.orderId
    | _ => none

/-- What is answered for this call, if its answer is to blame for a failure of a request that
serves `c` and makes the calls `made`. -/
def blame (c : Command) (made : List (Call (ServerSig σ))) : Call (ServerSig σ) → Option Response
  | ⟨.rsp call, answer⟩ =>
    (libraryFailure call answer).map fun (n, what, subject) =>
      fromRspError (.fromCode n what) subject
  | ⟨.getSession _, none⟩ =>
    some (failed code.transactionId code.unknown "no session with this transactionId")
  | ⟨.getSession _, some entry⟩ =>
    match c with
    | .getBoundProfilePackage _ =>
      if entry.orderId.isSome then none else some notAuthenticated
    | _ => none
  | ⟨.store .listOrders, listed⟩ =>
    match c with
    | .authenticateClient _ => offerFailure listed
    | .getBoundProfilePackage _ => serveFailure (foundOrder made) listed
    | _ => none
  | _ => none

/-- What is answered to a request that cannot be put to the library. -/
def unaskable (config : ServerConfig) : Command → Option Response
  | .initiateAuthentication req =>
    if req.euiccChallenge.length ≠ 16 then
      some (failed code.execution code.execution "euiccChallenge is not 16 bytes")
    else if '\x00' ∈ config.serverAddress.toList ∨ '\x00' ∈ req.smdpAddress.toList then
      some (fromRspError (.notReached "InitiateAuthentication") code.smdpAddress)
    else none
  | _ => none

/-- The request itself, or an answer to one of its calls, is to blame for the failure `f`. -/
def Blames (config : ServerConfig) (c : Command) (made : List (Call (ServerSig σ)))
    (f : Response) : Prop :=
  unaskable config c = some f ∨ ∃ call ∈ made, blame c made call = some f

/-- A failure is answered exactly where something is to blame for it. -/
def FailsRightly (config : ServerConfig) (c : Command) (r : Response)
    (made : List (Call (ServerSig σ))) : Prop :=
  ∀ f, Blames config c made f ↔ r = f ∧ r.Failed

/-- What the handler answers is what its calls make of it: the protocol only records them. -/
abbrev Explained (config : ServerConfig) (c : Command) (p : Handler σ Response) : Prop :=
  p.Keeps (.recording fun _ _ => True) (FailsRightly config c) []

theorem not_failed_of_success {body : Body} (h : body.header? = some .success) :
    ¬ (okJson body).Failed := by
  unfold Response.Failed Response.executionStatus
  rw [show (okJson body).body.header? = some .success from h]
  decide

section

variable (config : ServerConfig)

attribute [local simp] Prog.ask Handler.rsp Handler.store Handler.listOrders Handler.bindEuicc
  Handler.setState Handler.lock Handler.unlock Handler.getSession Handler.putSession
  Handler.removeSession Handler.insertSession DpSession.authenticateClient
  DpSession.getBoundProfilePackage DpSession.eid DpSession.euiccCert initiateFields
  authenticateFields failed_failed fromRspError_failed checkCode_ok checkCode_error
  FailsRightly Blames blame libraryFailure unaskable offerFailure serveFailure notAuthenticated
  foundOrder

/-! `simp` runs a program from call to call, up to where the source looks at an answer; what is to
blame is then read off the calls made so far. -/

/-- Either there is nothing to ask the library with (the challenge, an address), or one of its two
answers decides. -/
theorem explained_initiateAuthentication (req : InitiateAuthenticationRequest) :
    Explained (σ := σ) config (.initiateAuthentication req) (initiateAuthentication config req) := by
  unfold initiateAuthentication
  cases hchallenge : Octets.ofBytes? 16 req.euiccChallenge with
  | none =>
    have hlen : req.euiccChallenge.length ≠ 16 := by
      intro hlen
      rw [Octets.ofBytes?, dif_pos hlen] at hchallenge
      cases hchallenge
    simp [hlen]
  | some challenge =>
    have hlen : req.euiccChallenge.length = 16 := by
      rw [Octets.ofBytes?_eq_some.mp hchallenge]
      exact challenge.property
    simp
    intro transactionId _ serverChallenge _
    unfold DpSession.initiate DpSession.cString
    by_cases hown : '\x00' ∈ config.serverAddress.toList
    · simp [hlen, hown]
    · by_cases hasked : '\x00' ∈ req.smdpAddress.toList
      · simp [hlen, hown, hasked]
      · simp [hown, hasked]
        rintro (n | ⟨session, resp⟩)
        · simp [hlen, hown, hasked]
        · simp
          rintro (n | fields)
          · simp [hlen, hown, hasked]
          · simp [hlen, hown, hasked]
            exact not_failed_of_success rfl

/-- In the order the source checks them: the listing, what is on offer, the session, the library,
the fields. EID and certificate decide nothing. -/
theorem explained_authenticateClient (req : AuthenticateClientRequest) :
    Explained (σ := σ) config (.authenticateClient req) (authenticateClient req) := by
  unfold authenticateClient
  simp
  intro listed
  cases listed with
  | error e => simp
  | ok orders =>
    dsimp only
    generalize havail : availableOrders orders = offered
    rcases offered with _ | ⟨order, _ | ⟨second, rest⟩⟩
    · simp [havail]
    · simp
      intro _ live
      cases live with
      | none => simp [havail]
      | some entry =>
        simp
        rintro session (n | resp)
        · simp [havail]
        · simp
          rintro eid cert _ (n | g)
          · simp [havail]
          · -- neither write is looked at
            simp [rememberEuicc]
            split
            · simp [havail]
              exact not_failed_of_success rfl
            · simp [havail]
              exact not_failed_of_success rfl
    · simp [havail]

/-- The session, then the order on it, then the library. -/
theorem explained_getBoundProfilePackage (req : GetBoundProfilePackageRequest) :
    Explained (σ := σ) config (.getBoundProfilePackage req) (getBoundProfilePackage req) := by
  unfold getBoundProfilePackage
  simp
  intro otskDp hotskDp _ live
  cases live with
  | none => simp
  | some entry =>
    simp [findUpp]
    split
    · rename_i hid
      simp [hid]
    · rename_i id hid
      simp
      intro listed
      cases listed with
      | error e => simp [hid]
      | ok orders =>
        simp
        split
        · rename_i hnone
          simp [hid]
          simpa using hnone
        · rename_i upp hfound
          obtain ⟨o, hfind, _⟩ := Option.map_eq_some_iff.mp hfound
          have hthere : ∃ o ∈ orders, o.id = id :=
            ⟨o, List.mem_of_find?_eq_some hfind, by simpa using List.find?_some hfind⟩
          simp
          rintro session (n | bpp)
          · simp [hid, hthere]
          · simp [hid, hthere]
            exact not_failed_of_success rfl

/-- **Every failure is explained.** -/
theorem explained (c : Command) :
    (c.program (σ := σ) config).Keeps (.recording fun _ _ => True)
      (fun a made => ∀ r, a = .http r → (∀ req, c ≠ .handleNotification req) →
        FailsRightly config c r made) [] := by
  have hhttp : ∀ {p : Handler σ Response}, Explained config c p →
      (p >>= fun r => pure (Answer.http r)).Keeps (.recording fun _ _ => True)
        (fun a made => ∀ r, a = .http r → (∀ req, c ≠ .handleNotification req) →
          FailsRightly config c r made) [] := by
    intro p hp
    rw [Prog.keeps_bind]
    refine hp.mono ?_
    rintro r made hr r' hrr' _
    cases hrr'
    exact hr
  have hother : ∀ {α : Type} {p : Handler σ α} (f : α → Answer),
      ((∀ req, c ≠ .handleNotification req) → ∀ a r, f a ≠ .http r) →
      (p >>= fun a => pure (f a)).Keeps (.recording fun _ _ => True)
        (fun a made => ∀ r, a = .http r → (∀ req, c ≠ .handleNotification req) →
          FailsRightly config c r made) [] := by
    intro α p f hf
    rw [Prog.keeps_bind]
    exact (p.keeps_of_allowed (fun _ _ => trivial) []).mono fun a _ _ r har hc => absurd har (hf hc a r)
  cases c with
  | initiateAuthentication req => exact hhttp (explained_initiateAuthentication config req)
  | authenticateClient req => exact hhttp (explained_authenticateClient config req)
  | getBoundProfilePackage req => exact hhttp (explained_getBoundProfilePackage config req)
  | handleNotification req => exact hother _ fun hc => absurd rfl (hc req)
  | orderAdd | orderReset | orderList | reopen => exact hother _ fun _ _ _ => nofun

end

/-! ## Refusals -/

/-- The library was asked and said no, where that decides. -/
def Refused (made : List (Call (ServerSig σ))) : Prop :=
  ∃ call answer what subject, (⟨.rsp call, answer⟩ : Call (ServerSig σ)) ∈ made
    ∧ libraryFailure call answer = some (-1, what, subject)

/-- The reason code that an answer gives. -/
def Response.reasonCode (r : Response) : Option String :=
  r.body.header?.bind fun h => h.functionExecutionStatus.statusCodeData.map StatusCodeData.reasonCode

theorem reasonCode_failed (subject reason message : String) :
    (failed subject reason message).reasonCode = some reason := rfl

theorem reasonCode_fromRspError (n : Int) (what subject : String) :
    (fromRspError (.fromCode n what) subject).reasonCode
      = some (if n = -1 then code.refused else code.execution) := by
  unfold RspError.fromCode
  split <;> rfl

/-- Nothing that the server finds wrong by itself is a refusal. -/
theorem reasonCode_unaskable {config : ServerConfig} {c : Command} {f : Response}
    (h : unaskable config c = some f) : f.reasonCode = some code.execution := by
  cases c with
  | initiateAuthentication req =>
    simp only [unaskable] at h
    split at h
    · cases h
      rfl
    · split at h
      · cases h
        rfl
      · cases h
  | _ => cases h

theorem reasonCode_offerFailure {listed : Except StoreError (List Order)} {f : Response}
    (h : offerFailure listed = some f) :
    f.reasonCode = some code.execution ∨ f.reasonCode = some code.unknown := by
  unfold offerFailure at h
  split at h
  · cases h
    exact .inl rfl
  · split at h
    · cases h
      exact .inr rfl
    · cases h
    · cases h
      exact .inr rfl

theorem reasonCode_serveFailure {orderId : Option Int} {listed : Except StoreError (List Order)}
    {f : Response} (h : serveFailure orderId listed = some f) :
    f.reasonCode = some code.unknown := by
  unfold serveFailure at h
  split at h
  · split at h
    · cases h
    · cases h
      rfl
  · cases h
    rfl

/-- A call is to blame for a refusal only if it is the library's. -/
theorem refused_of_blame {c : Command} {made : List (Call (ServerSig σ))}
    {call : Call (ServerSig σ)} {f : Response} (hmade : call ∈ made) (h : blame c made call = some f)
    (hf : f.reasonCode = some code.refused) : Refused made := by
  have hne : ∀ reason, reason ≠ code.refused → f.reasonCode ≠ some reason := by
    rintro reason hreason hf'
    exact hreason (Option.some.inj (hf'.symm.trans hf))
  have hserve : ∀ orderId listed, serveFailure orderId listed ≠ some f := fun _ _ hfails =>
    hne _ (by decide) (reasonCode_serveFailure hfails)
  obtain ⟨op, answer⟩ := call
  cases op with
  | rsp call =>
    obtain ⟨⟨n, what, subject⟩, hfails, rfl⟩ := Option.map_eq_some_iff.mp h
    by_cases hn : n = -1
    · subst hn
      exact ⟨call, answer, what, subject, hmade, hfails⟩
    · -- any other code means that it was never reached
      rw [reasonCode_fromRspError, if_neg hn] at hf
      exact absurd hf (by decide)
  | getSession t =>
    cases answer with
    | none =>
      cases h
      exact absurd hf (by decide)
    | some entry =>
      cases c with
      | getBoundProfilePackage req =>
        simp only [blame] at h
        split at h
        · cases h
        · cases h
          exact absurd hf (by decide)
      | _ => cases h
  | store call =>
    cases call with
    | listOrders =>
      cases c with
      | authenticateClient req =>
        rcases reasonCode_offerFailure h with hreason | hreason
        · exact absurd hreason (hne _ (by decide))
        · exact absurd hreason (hne _ (by decide))
      | getBoundProfilePackage req => exact absurd h (hserve _ _)
      | _ => cases h
    | _ => cases h
  | _ => cases h

/-- A failure with the reason "refused" has the library's refusal to blame. -/
theorem refused_of_blames {config : ServerConfig} {c : Command} {made : List (Call (ServerSig σ))}
    {subject message : String} (h : Blames config c made (failed subject code.refused message)) :
    Refused made := by
  rcases h with hask | ⟨call, hmade, hblame⟩
  · have hreason := reasonCode_unaskable hask
    rw [reasonCode_failed] at hreason
    exact absurd hreason (by decide)
  · exact refused_of_blame hmade hblame (reasonCode_failed _ _ _)

theorem blames_of_refused {config : ServerConfig} {c : Command} {made : List (Call (ServerSig σ))}
    (h : Refused made) :
    ∃ subject message, Blames config c made (failed subject code.refused message) := by
  obtain ⟨call, answer, what, subject, hmade, hfails⟩ := h
  refine ⟨subject, s!"{what}: refused", .inr ⟨_, hmade, ?_⟩⟩
  show (libraryFailure call answer).map _ = _
  rw [hfails]
  rfl

variable {config : ServerConfig} {p : ServerPool σ}
  {h : List (Step (ServerPool σ) (ServerLifeEvent σ))}

/-- **A failure says what went wrong.** A synchronous request that was answered, whatever else was
going on, is answered `Failed` exactly if the request or an answer it got is to blame, and is
answered what is answered for that; and the reason it gives is "refused" exactly if the library was
asked and said no in a call whose failure decides the answer. -/
theorem failures_explained (run : LifeRun config h p) {t : Nat} {c : Command} {r : Response}
    (ht : p.threads[t]? = some ⟨c, .ret (.http r)⟩) (hc : ∀ req, c ≠ .handleNotification req) :
    (∀ f, Blames config c (Machine.callsInLife t h) f ↔ r = f ∧ r.Failed)
      ∧ ((∃ subject message, r = failed subject code.refused message)
        ↔ Refused (Machine.callsInLife t h)) := by
  have hreturned := Machine.Run.returned_lives
    (P := fun _ => Protocol.recording fun _ _ => True) (explained config) run ht
  rw [Protocol.recording_after] at hreturned
  have hexplains : FailsRightly config c r (Machine.callsInLife t h) := hreturned r rfl hc
  refine ⟨hexplains, ?_, ?_⟩
  · rintro ⟨subject, message, rfl⟩
    exact refused_of_blames ((hexplains _).mpr ⟨rfl, failed_failed _ _ _⟩)
  · intro hrefused
    obtain ⟨subject, message, hblames⟩ := blames_of_refused hrefused
    exact ⟨subject, message, ((hexplains _).mp hblames).1⟩

/-- An eUICC comes before any order was added. -/
theorem failures_explained_noOrder :
    Blames ⟨"smdp.example.com"⟩ (authenticate 1 [65])
      (Machine.callsInLife 0 (restarted [] (uninterrupted 0 (authenticate 1 [65]) (.echo 0))))
      (failed code.profile code.unknown
        ("no order is available -- add one, or reset one that has "
          ++ "already been downloaded (smdp order list shows their state)")) := by
  have hthread : (restartedPool [] (uninterrupted 0 (authenticate 1 [65]) (.echo 0))).threads[0]?
      = some ⟨authenticate 1 [65], .ret (.http (failed code.profile code.unknown
        ("no order is available -- add one, or reset one that has "
          ++ "already been downloaded (smdp order list shows their state)")))⟩ := rfl
  have hexplained := failures_explained (run_restarted [] (uninterrupted 0 (authenticate 1 [65])
    (.echo 0))) hthread (by simp [authenticate])
  exact (hexplained.1 _).mpr ⟨rfl, failed_failed _ _ _⟩

end Smdp
