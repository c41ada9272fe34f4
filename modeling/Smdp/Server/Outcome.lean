import Smdp.Server.Es9
import Smdp.Store.Effect

/-!
# Smdp — how each handler can end

One statement per handler: every way it can end, with what it answers, what it leaves and
what the library was asked. Whatever is proved about a request is proved from these.

* `AuthenticateClientExit`: turned away, refused by the library, advanced but answered
  `Failed` because its fields could not be cut, or answered.
* `GetBoundProfilePackageExit`: turned away, refused by the library, or handed out.
* `InitiateAuthenticationExit`: turned away, or a session opened.
* `exec_handleNotification`: always 204, and the store it leaves in closed form.
-/

namespace Smdp

open Interaction

variable {σ : Type}

/-! ## Answers -/

theorem failed_failed (subject reason message : String) :
    (failed subject reason message).Failed := rfl

theorem fromRspError_failed (e : RspError) (subject : String) :
    (fromRspError e subject).Failed := by
  cases e <;> rfl

theorem okJson_initiateAuthentication_succeeded {b : InitiateAuthenticationResponse}
    (h : b.header = ResponseHeader.success) : (okJson (.initiateAuthentication b)).Succeeded := by
  show some b.header.functionExecutionStatus.status = some .executedSuccess
  rw [h]
  rfl

/-! ## What the library was asked -/

/-- The metadata of an AuthenticateClient call that the library accepted. -/
def acceptedMetadata : Call (ServerSig σ) → Option Bytes
  | ⟨.rsp (.dpAuthenticateClient _ _ metadata), (_, .ok _)⟩ => some metadata
  | _ => none

/-- The UPP of a GetBoundProfilePackage call. -/
def handedUpp : Call (ServerSig σ) → Option Bytes
  | ⟨.rsp (.dpGetBoundProfilePackage _ _ upp _), _⟩ => some upp
  | _ => none

/-- A look-up of the session table, with what it found. -/
def lookedUp : Call (ServerSig σ) → Option (Bytes × Option (Entry σ))
  | ⟨.getSession t, live⟩ => some (t, live)
  | _ => none

theorem mem_filterMap_lookedUp {calls : List (Call (ServerSig σ))} {t : Bytes}
    {live : Option (Entry σ)} :
    (t, live) ∈ calls.filterMap lookedUp ↔ ⟨.getSession t, live⟩ ∈ calls := by
  rw [List.mem_filterMap]
  constructor
  · rintro ⟨⟨op, answer⟩, hmem, hlooked⟩
    cases op with
    | getSession t' =>
      obtain ⟨rfl, rfl⟩ := Prod.mk.inj (Option.some.inj hlooked)
      exact hmem
    | _ => cases hlooked
  · -- the other way round the call is its own witness
    exact fun hmem => ⟨_, hmem, rfl⟩

theorem acceptedMetadata_ok {lib : Library σ} {session session' : σ}
    {authServerResp metadata resp : Bytes}
    (h : lib.authenticateClient session authServerResp metadata = (session', .ok resp)) :
    acceptedMetadata ⟨.rsp (.dpAuthenticateClient session authServerResp metadata),
      lib (.dpAuthenticateClient session authServerResp metadata)⟩ = some metadata := by
  unfold Library.authenticateClient at h
  rcases hcall : lib (.dpAuthenticateClient session authServerResp metadata) with ⟨s', answer⟩
  rw [hcall] at h
  cases answer with
  | error code => cases h
  | ok resp' => rfl

theorem acceptedMetadata_error {lib : Library σ} {session session' : σ}
    {authServerResp metadata : Bytes} {e : RspError}
    (h : lib.authenticateClient session authServerResp metadata = (session', .error e)) :
    acceptedMetadata ⟨.rsp (.dpAuthenticateClient session authServerResp metadata),
      lib (.dpAuthenticateClient session authServerResp metadata)⟩ = none := by
  unfold Library.authenticateClient at h
  rcases hcall : lib (.dpAuthenticateClient session authServerResp metadata) with ⟨s', answer⟩
  rw [hcall] at h
  cases answer with
  | error code => rfl
  | ok resp' => cases h

/-! ## `authenticate_client` -/

/-- What stands when `authenticate_client` asks the library: one order is on offer and the
session is live. -/
structure Chosen (env : Env σ) (s : AppState σ) (t : Bytes) (order : Order)
    (entry : Entry σ) : Prop where
  offered : ∃ orders, s.store.listed env.faults = .ok orders ∧ availableOrders orders = [order]
  live : s.sessions.get t = some entry

/-- Both the order and the entry are read off the state, so there is one of each. -/
theorem Chosen.unique {env : Env σ} {s : AppState σ} {t : Bytes} {order order' : Order}
    {entry entry' : Entry σ} (h : Chosen env s t order entry) (h' : Chosen env s t order' entry') :
    order = order' ∧ entry = entry' := by
  obtain ⟨⟨orders, hlist, havail⟩, hlive⟩ := h
  obtain ⟨⟨orders', hlist', havail'⟩, hlive'⟩ := h'
  obtain rfl : orders = orders' := by simpa [hlist] using hlist'
  constructor
  · simpa [havail] using havail'
  · simpa [hlive] using hlive'

theorem unchosen_of_none {env : Env σ} {s : AppState σ} {t : Bytes}
    (h : s.sessions.get t = none) (order : Order) (entry : Entry σ) :
    ¬ Chosen env s t order entry := by
  rintro ⟨_, hlive⟩
  rw [h] at hlive
  cases hlive

theorem unchosen_of_available {env : Env σ} {s : AppState σ} {t : Bytes} {orders : List Order}
    (hlist : s.store.listed env.faults = .ok orders)
    (h : ∀ order, availableOrders orders ≠ [order]) (order : Order) (entry : Entry σ) :
    ¬ Chosen env s t order entry := by
  rintro ⟨⟨orders', hlist', havail⟩, _⟩
  rw [hlist] at hlist'
  obtain rfl := Except.ok.inj hlist'
  exact h order havail

/-- `order` is on offer, and no other is. -/
def Offers (env : Env σ) (st : SqliteStore) (order : Order) : Prop :=
  ∃ orders, st.listed env.faults = .ok orders ∧ availableOrders orders = [order]

/-- The store after `rememberEuicc`. -/
def SqliteStore.remember (st : SqliteStore) (faults : StoreFaults) (order : Int)
    (eid : Option String) (cert : Option Bytes) : SqliteStore :=
  match eid, cert with
  | some eid, some cert => st.after faults (.bindEuicc order eid cert)
  | _, _ => st

@[simp] theorem exec_rememberEuicc_state (env : Env σ) (s : AppState σ) (order : Int)
    (eid : Option String) (cert : Option Bytes) :
    ((rememberEuicc order eid cert).exec (AppState.perform env) s).state
      = { s with store := s.store.remember env.faults order eid cert } := by
  unfold rememberEuicc SqliteStore.remember
  cases eid with
  | none => rfl
  | some eid =>
    cases cert with
    | none => rfl
    | some cert => rfl

theorem rememberEuicc_unaccepted (env : Env σ) (s : AppState σ) (order : Int)
    (eid : Option String) (cert : Option Bytes) :
    ((rememberEuicc order eid cert).exec (AppState.perform env) s).calls.filterMap
      acceptedMetadata = [] := by
  unfold rememberEuicc
  split <;> rfl

/-- The state with the entry of `t` written. -/
def AppState.putSession (s : AppState σ) (t : Bytes) (entry : Entry σ) : AppState σ :=
  { s with sessions := s.sessions.put t entry }

theorem AppState.get_putSession (s : AppState σ) (t t' : Bytes) (e : Entry σ) :
    (s.putSession t e).sessions.get t' = if t' = t then some e else s.sessions.get t' :=
  Sessions.get_put s.sessions e

/-- The store an answered `authenticate_client` leaves: the eUICC remembered, then `Bound`. -/
def boundStore (env : Env σ) (st : SqliteStore) (order : Order) (session : σ) : SqliteStore :=
  (st.remember env.faults order.id (env.library.eid session).toOption
    (env.library.euiccCert session).toOption).after env.faults (.setState order.id .bound)

/-- Every way `authenticate_client` can end. -/
inductive AuthenticateClientExit (env : Env σ) (s : AppState σ)
    (req : AuthenticateClientRequest) : Outcome (ServerSig σ) Response (AppState σ) → Prop where
  | turnedAway {r calls} (unchosen : ∀ order entry, ¬ Chosen env s req.transactionId order entry)
      (failed : r.Failed) (unasked : calls.filterMap acceptedMetadata = []) :
      AuthenticateClientExit env s req ⟨r, s, calls⟩
  | refused {r calls order entry session e} (chosen : Chosen env s req.transactionId order entry)
      (refusal : env.library.authenticateClient entry.session req.authenticateServerResponse
        order.metadata = (session, .error e))
      (failed : r.Failed) (unaccepted : calls.filterMap acceptedMetadata = []) :
      AuthenticateClientExit env s req
        ⟨r, s.putSession req.transactionId { entry with session }, calls⟩
  | uncut {r calls order entry session resp e}
      (chosen : Chosen env s req.transactionId order entry)
      (acceptance : env.library.authenticateClient entry.session req.authenticateServerResponse
        order.metadata = (session, .ok resp))
      (fields : env.library.authenticateFields resp = .error e)
      (failed : r.Failed) (accepted : calls.filterMap acceptedMetadata = [order.metadata]) :
      AuthenticateClientExit env s req
        ⟨r, s.putSession req.transactionId { entry with session, orderId := some order.id }, calls⟩
  | answered {r calls order entry session resp g}
      (chosen : Chosen env s req.transactionId order entry)
      (acceptance : env.library.authenticateClient entry.session req.authenticateServerResponse
        order.metadata = (session, .ok resp))
      (fields : env.library.authenticateFields resp = .ok g)
      (succeeded : r.Succeeded) (accepted : calls.filterMap acceptedMetadata = [order.metadata]) :
      AuthenticateClientExit env s req
        ⟨r, { s.putSession req.transactionId { entry with session, orderId := some order.id } with
              store := boundStore env s.store order session }, calls⟩

/-- **Every run of `authenticate_client` ends in one of these.** The case splits are the source's
own, from the listing to the fields, and every leaf is an exit. -/
theorem authenticateClient_exit (env : Env σ) (s : AppState σ) (req : AuthenticateClientRequest) :
    AuthenticateClientExit env s req
      ((authenticateClient req).exec (AppState.perform env) s) := by
  unfold authenticateClient
  rw [Prog.exec_bind, Handler.exec_listOrders]
  dsimp only
  cases hlist : s.store.listed env.faults with
  -- `list_orders` failed: answered with the store's own message, and nothing was asked
  | error e =>
    refine .turnedAway ?_ (failed_failed _ _ _) rfl
    rintro order entry ⟨⟨orders, hok, _⟩, _⟩
    rw [hlist] at hok
    cases hok
  | ok orders =>
    dsimp only
    match havail : availableOrders orders with
    | [] =>
      refine .turnedAway (unchosen_of_available hlist ?_) (failed_failed _ _ _) rfl
      simp [havail]
    | _ :: _ :: _ =>
      refine .turnedAway (unchosen_of_available hlist ?_) (failed_failed _ _ _) rfl
      simp [havail]
    | [order] =>
      -- one order is on offer, so the session is looked up
      simp only [Prog.exec_bind, Handler.exec_lock, Handler.exec_getSession]
      cases hlive : s.sessions.get req.transactionId with
      -- the guard is dropped with nothing written
      | none => exact .turnedAway (unchosen_of_none hlive) (failed_failed _ _ _) rfl
      | some entry =>
        have chosen : Chosen env s req.transactionId order entry := ⟨⟨orders, hlist, havail⟩, hlive⟩
        simp only [Prog.exec_bind, DpSession.exec_authenticateClient]
        rcases hlib : env.library.authenticateClient entry.session
          req.authenticateServerResponse order.metadata with ⟨session, answer⟩
        cases answer with
        | error e =>
          refine .refused chosen hlib (fromRspError_failed _ _) ?_
          have hcall := acceptedMetadata_error hlib
          simp only [Outcome.after_calls, List.filterMap_append, List.filterMap_cons, hcall]
          rfl
        | ok resp =>
          -- `order_id` is written here, before the fields are cut
          simp only [Prog.exec_bind, DpSession.exec_eid, DpSession.exec_euiccCert,
            Handler.exec_putSession, Handler.exec_unlock, exec_authenticateFields]
          cases hfields : env.library.authenticateFields resp with
          | error e =>
            refine .uncut chosen hlib hfields (fromRspError_failed _ _) ?_
            have hcall := acceptedMetadata_ok hlib
            simp only [Outcome.after_calls, List.filterMap_append, List.filterMap_cons, hcall]
            rfl
          | ok g =>
            -- the two writes, whatever comes of them: the answer is made already
            simp only [Prog.exec_bind, exec_rememberEuicc_state, Handler.exec_setState]
            refine .answered chosen hlib hfields rfl ?_
            have hcall := acceptedMetadata_ok hlib
            simp only [Outcome.after_calls, List.filterMap_append, List.filterMap_cons, hcall,
              rememberEuicc_unaccepted]
            rfl

theorem rememberEuicc_lookedUp (env : Env σ) (s : AppState σ) (order : Int)
    (eid : Option String) (cert : Option Bytes) :
    ((rememberEuicc order eid cert).exec (AppState.perform env) s).calls.filterMap lookedUp
      = [] := by
  unfold rememberEuicc
  split <;> rfl

/-- It looks its session up once it has an order to offer for it, and not before: without one it
is turned away whatever the table holds. -/
theorem authenticateClient_lookedUp (env : Env σ) (s : AppState σ)
    (req : AuthenticateClientRequest) :
    ((∃ order, Offers env s.store order)
        ∧ ((authenticateClient req).exec (AppState.perform env) s).calls.filterMap lookedUp
          = [(req.transactionId, s.sessions.get req.transactionId)])
      ∨ ((∀ order, ¬ Offers env s.store order)
        ∧ ((authenticateClient req).exec (AppState.perform env) s).calls.filterMap lookedUp
          = []) := by
  unfold authenticateClient
  rw [Prog.exec_bind, Handler.exec_listOrders]
  dsimp only
  cases hlist : s.store.listed env.faults with
  | error e =>
    refine .inr ⟨?_, rfl⟩
    rintro order ⟨orders, hok, _⟩
    rw [hlist] at hok
    cases hok
  | ok orders =>
    have hoffers : ∀ order, Offers env s.store order ↔ availableOrders orders = [order] := by
      intro order
      simp [Offers, hlist]
    dsimp only
    match havail : availableOrders orders with
    | [] => exact .inr ⟨by simp [hoffers, havail], rfl⟩
    | _ :: _ :: _ => exact .inr ⟨by simp [hoffers, havail], rfl⟩
    | [order] =>
      refine .inl ⟨⟨order, (hoffers order).mpr havail⟩, ?_⟩
      simp only [Prog.exec_bind, Handler.exec_lock, Handler.exec_getSession]
      cases s.sessions.get req.transactionId with
      | none => rfl
      | some entry =>
        -- what follows the look-up never looks again
        simp only [Prog.exec_bind, DpSession.exec_authenticateClient]
        cases (env.library.authenticateClient entry.session req.authenticateServerResponse
          order.metadata).2 with
        | error e => rfl
        | ok resp =>
          simp only [Prog.exec_bind, DpSession.exec_eid, DpSession.exec_euiccCert,
            Handler.exec_putSession, Handler.exec_unlock, exec_authenticateFields]
          cases env.library.authenticateFields resp with
          | error e => rfl
          | ok g =>
            simp only [Prog.exec_bind, Handler.exec_setState, Outcome.after_calls,
              List.filterMap_append, rememberEuicc_lookedUp]
            rfl

/-! ## `get_bound_profile_package` -/

/-- The order that `findUpp` finds. -/
def SqliteStore.servedOrder (st : SqliteStore) (faults : StoreFaults) (orderId : Option Int) :
    Option Order :=
  match orderId with
  | none => none
  | some id =>
    match st.listed faults with
    | .error _ => none
    | .ok orders => orders.find? fun o => o.id = id

theorem SqliteStore.servedOrder_eq_some {st : SqliteStore} {faults : StoreFaults}
    {orderId : Option Int} {order : Order} (h : st.servedOrder faults orderId = some order) :
    orderId = some order.id ∧ st.orders.row? order.id = some order.toRow := by
  unfold SqliteStore.servedOrder at h
  split at h
  · cases h
  · rename_i id
    split at h
    · cases h
    · rename_i orders hlist
      obtain rfl : order.id = id := by simpa using List.find?_some h
      exact ⟨rfl, row?_of_listed hlist (List.mem_of_find?_eq_some h)⟩

theorem exec_findUpp (env : Env σ) (s : AppState σ) (orderId : Option Int) :
    ∃ calls, (findUpp orderId).exec (AppState.perform env) s
        = ⟨(s.store.servedOrder env.faults orderId).map Order.upp, s, calls⟩
      ∧ calls.filterMap handedUpp = [] ∧ calls.filterMap lookedUp = [] := by
  unfold findUpp SqliteStore.servedOrder
  cases orderId with
  | none => exact ⟨[], rfl, rfl, rfl⟩
  | some id =>
    simp only [Prog.exec_bind, Handler.exec_listOrders]
    cases s.store.listed env.faults with
    | error e => exact ⟨_, rfl, rfl, rfl⟩
    | ok orders => exact ⟨_, rfl, rfl, rfl⟩

/-- What stands when `get_bound_profile_package` asks the library: the session is live, and
the order it authenticated against is listed. -/
structure Deliverable (env : Env σ) (s : AppState σ) (t : Bytes) (order : Order)
    (entry : Entry σ) : Prop where
  live : s.sessions.get t = some entry
  served : s.store.servedOrder env.faults entry.orderId = some order

theorem Deliverable.unique {env : Env σ} {s : AppState σ} {t : Bytes} {order order' : Order}
    {entry entry' : Entry σ} (h : Deliverable env s t order entry)
    (h' : Deliverable env s t order' entry') : order = order' ∧ entry = entry' := by
  obtain rfl : entry = entry' := Option.some.inj (h.live.symm.trans h'.live)
  exact ⟨Option.some.inj (h.served.symm.trans h'.served), rfl⟩

/-- Every way `get_bound_profile_package` can end. -/
inductive GetBoundProfilePackageExit (env : Env σ) (s : AppState σ)
    (req : GetBoundProfilePackageRequest) :
    Outcome (ServerSig σ) Response (AppState σ) → Prop where
  | turnedAway {r calls}
      (undeliverable : ∀ order entry, ¬ Deliverable env s req.transactionId order entry)
      (failed : r.Failed) :
      GetBoundProfilePackageExit env s req ⟨r, s, calls⟩
  | refused {r calls order entry session e}
      (deliverable : Deliverable env s req.transactionId order entry)
      (refusal : env.library.getBoundProfilePackage entry.session req.prepareDownloadResponse
        order.upp env.nonces.otskDp = (session, .error e))
      (failed : r.Failed) :
      GetBoundProfilePackageExit env s req
        ⟨r, s.putSession req.transactionId { entry with session }, calls⟩
  | handedOut {r calls order entry session bpp}
      (deliverable : Deliverable env s req.transactionId order entry)
      (built : env.library.getBoundProfilePackage entry.session req.prepareDownloadResponse
        order.upp env.nonces.otskDp = (session, .ok bpp))
      (succeeded : r.Succeeded) (handed : calls.filterMap handedUpp = [order.upp]) :
      GetBoundProfilePackageExit env s req
        ⟨r, { store := s.store.after env.faults (.setState order.id .downloaded)
              sessions := s.sessions.remove req.transactionId }, calls⟩

/-- **Every run of `get_bound_profile_package` ends in one of these.** -/
theorem getBoundProfilePackage_exit (env : Env σ) (s : AppState σ)
    (req : GetBoundProfilePackageRequest) :
    GetBoundProfilePackageExit env s req
      ((getBoundProfilePackage req).exec (AppState.perform env) s) := by
  unfold getBoundProfilePackage
  have hotsk : (Prog.ask (F := ServerSig σ) .otskDp).exec (AppState.perform env) s
      = ⟨env.nonces.otskDp, s, [⟨.otskDp, env.nonces.otskDp⟩]⟩ := rfl
  simp only [Prog.exec_bind, hotsk, Handler.exec_lock, Handler.exec_getSession]
  cases hlive : s.sessions.get req.transactionId with
  | none =>
    refine .turnedAway ?_ (failed_failed _ _ _)
    rintro order entry ⟨hlive', _⟩
    rw [hlive] at hlive'
    cases hlive'
  | some entry =>
    -- the store is asked for the UPP, which hands nothing to the library
    obtain ⟨calls, hfind, hquiet, _⟩ := exec_findUpp env s entry.orderId
    simp only [Prog.exec_bind, hfind]
    cases hserved : s.store.servedOrder env.faults entry.orderId with
    | none =>
      refine .turnedAway ?_ (failed_failed _ _ _)
      rintro order entry' ⟨hlive', hserved'⟩
      obtain rfl : entry = entry' := Option.some.inj (hlive.symm.trans hlive')
      rw [hserved] at hserved'
      cases hserved'
    | some order =>
      -- found by its id alone: where the order stands is not looked at
      have deliverable : Deliverable env s req.transactionId order entry := ⟨hlive, hserved⟩
      have hid := (SqliteStore.servedOrder_eq_some hserved).1
      simp only [Option.map_some, Prog.exec_bind, DpSession.exec_getBoundProfilePackage]
      rcases hlib : env.library.getBoundProfilePackage entry.session req.prepareDownloadResponse
        order.upp env.nonces.otskDp with ⟨session, answer⟩
      cases answer with
      | error e => exact .refused deliverable hlib (fromRspError_failed _ _)
      | ok bpp =>
        simp only [Prog.exec_bind, Handler.exec_removeSession, Handler.exec_unlock, hid,
          Handler.exec_setState]
        refine .handedOut deliverable hlib rfl ?_
        simp only [Outcome.after_calls, List.filterMap_append, hquiet]
        rfl

/-- `get_bound_profile_package` looks its session up before anything else it does. -/
theorem getBoundProfilePackage_lookedUp (env : Env σ) (s : AppState σ)
    (req : GetBoundProfilePackageRequest) :
    ((getBoundProfilePackage req).exec (AppState.perform env) s).calls.filterMap lookedUp
      = [(req.transactionId, s.sessions.get req.transactionId)] := by
  unfold getBoundProfilePackage
  have hotsk : (Prog.ask (F := ServerSig σ) .otskDp).exec (AppState.perform env) s
      = ⟨env.nonces.otskDp, s, [⟨.otskDp, env.nonces.otskDp⟩]⟩ := rfl
  simp only [Prog.exec_bind, hotsk, Handler.exec_lock, Handler.exec_getSession]
  cases s.sessions.get req.transactionId with
  | none => rfl
  | some entry =>
    obtain ⟨calls, hfind, _, hquiet⟩ := exec_findUpp env s entry.orderId
    simp only [Prog.exec_bind, hfind]
    cases s.store.servedOrder env.faults entry.orderId with
    | none =>
      simp only [Option.map_none, Prog.exec_bind, Handler.exec_unlock, Outcome.after_calls,
        List.filterMap_append, hquiet]
      rfl
    | some order =>
      simp only [Option.map_some, Prog.exec_bind, DpSession.exec_getBoundProfilePackage]
      cases (env.library.getBoundProfilePackage entry.session req.prepareDownloadResponse
        order.upp env.nonces.otskDp).2 with
      | error e =>
        simp only [Prog.exec_bind, Handler.exec_putSession, Handler.exec_unlock,
          Outcome.after_calls, List.filterMap_append, hquiet]
        rfl
      | ok bpp =>
        cases entry.orderId with
        | none =>
          simp only [Prog.exec_bind, Handler.exec_removeSession, Handler.exec_unlock,
            Outcome.after_calls, List.filterMap_append, hquiet]
          rfl
        | some id =>
          simp only [Prog.exec_bind, Handler.exec_removeSession, Handler.exec_unlock,
            Handler.exec_setState, Outcome.after_calls, List.filterMap_append, hquiet]
          rfl

/-! ## `initiate_authentication` -/

/-- Every way `initiate_authentication` can end. -/
inductive InitiateAuthenticationExit (env : Env σ) (s : AppState σ) :
    Outcome (ServerSig σ) Response (AppState σ) → Prop where
  | turnedAway {r calls} (failed : r.Failed) :
      InitiateAuthenticationExit env s ⟨r, s, calls⟩
  | opened {b calls session} (succeeded : b.header = ResponseHeader.success)
      (drawn : b.transactionId = env.nonces.transactionId.val) :
      InitiateAuthenticationExit env s
        ⟨okJson (.initiateAuthentication b),
          { s with
            sessions := s.sessions.insert env.nonces.transactionId.val session env.sweptAt env.born },
          calls⟩

/-- **Every run of `initiate_authentication` ends in one of these.** Whether it was the challenge,
the library or the fields makes no difference to the state: no session was inserted. -/
theorem initiateAuthentication_exit (config : ServerConfig) (env : Env σ) (s : AppState σ)
    (req : InitiateAuthenticationRequest) :
    InitiateAuthenticationExit env s
      ((initiateAuthentication config req).exec (AppState.perform env) s) := by
  unfold initiateAuthentication
  cases Octets.ofBytes? 16 req.euiccChallenge with
  -- a challenge that is not sixteen octets
  | none => exact .turnedAway (failed_failed _ _ _)
  | some challenge =>
    have htid : (Prog.ask (F := ServerSig σ) .transactionId).exec (AppState.perform env) s
        = ⟨env.nonces.transactionId, s, [⟨.transactionId, env.nonces.transactionId⟩]⟩ := rfl
    have hchallenge : (Prog.ask (F := ServerSig σ) .serverChallenge).exec (AppState.perform env) s
        = ⟨env.nonces.serverChallenge, s, [⟨.serverChallenge, env.nonces.serverChallenge⟩]⟩ := rfl
    simp only [Prog.exec_bind, htid, hchallenge, DpSession.exec_initiate_state]
    -- how the library was asked does not matter, only what came back
    generalize Prog.exec _ (DpSession.initiate _ _ _ _ _ _) _ = asked
    obtain ⟨answer, _, calls⟩ := asked
    cases answer with
    | error e => exact .turnedAway (fromRspError_failed _ _)
    | ok pair =>
      obtain ⟨session, resp⟩ := pair
      simp only [Prog.exec_bind, exec_initiateFields]
      cases env.library.initiateFields resp with
      | error e => exact .turnedAway (fromRspError_failed _ _)
      | ok f => exact .opened rfl rfl

/-! ## `handle_notification` -/

/-- The order a notification is matched to. -/
def matchedOrder (env : Env σ) (st : SqliteStore) (raw : Bytes) : Option Order :=
  match (env.library.notificationMetadata raw).toOption.bind Notification.iccid with
  | none => none
  | some i =>
    match (st.performUnder env.faults (.orderByIccid i)).1 with
    | .error _ => none
    | .ok order => order

/-- What a notification verifies as, against the certificate of the order it matched. -/
def verifiedAs (env : Env σ) (st : SqliteStore) (raw : Bytes) : Option Notification :=
  (env.library.verifyNotification ((matchedOrder env st raw).bind Order.euiccCert) raw).toOption

/-- The store after `keepNotification`. -/
def SqliteStore.keep (st : SqliteStore) (faults : StoreFaults)
    (verified metadata : Option Notification) (order : Option Order) (raw : Bytes) :
    SqliteStore :=
  match verified.or metadata with
  | some m => st.after faults (.recordNotification (toRecord verified m order raw))
  | none => st

/-- The state a verified installation result reports. -/
def Notification.verdict (v : Notification) : OrderState :=
  if v.installed then .downloaded else .failed

theorem Notification.verdict_not_offered (v : Notification) : ¬ v.verdict.Offered := by
  unfold Notification.verdict
  split <;> decide

/-- The store after `moveOrder`. -/
def SqliteStore.move (st : SqliteStore) (faults : StoreFaults)
    (verified : Option Notification) (order : Option Order) : SqliteStore :=
  match verified, order with
  | some v, some o =>
    if v.isInstallationResult then st.after faults (.setState o.id v.verdict) else st
  | _, _ => st

/-- The store `handle_notification` leaves: the notification kept, then its order moved. -/
def notifiedStore (env : Env σ) (st : SqliteStore) (raw : Bytes) : SqliteStore :=
  (st.keep env.faults (verifiedAs env st raw) (env.library.notificationMetadata raw).toOption
    (matchedOrder env st raw) raw).move env.faults (verifiedAs env st raw)
    (matchedOrder env st raw)

/-- Matching an order changes nothing, and comes to what `matchedOrder` says. -/
theorem exec_matchOrder (env : Env σ) (s : AppState σ) (iccid : Option Iccid) :
    ∃ calls, (matchOrder iccid).exec (AppState.perform env) s
      = ⟨(match iccid with
          | none => none
          | some i =>
            match (s.store.performUnder env.faults (.orderByIccid i)).1 with
            | .error _ => none
            | .ok order => order), s, calls⟩ := by
  unfold matchOrder
  cases iccid with
  | none => exact ⟨[], rfl⟩
  | some i =>
    simp only [Prog.exec_bind, Handler.exec_orderByIccid]
    cases (s.store.performUnder env.faults (.orderByIccid i)).1 with
    | error e => exact ⟨_, rfl⟩
    | ok order => exact ⟨_, rfl⟩

theorem exec_keepNotification_state (env : Env σ) (s : AppState σ)
    (verified metadata : Option Notification) (order : Option Order) (raw : Bytes) :
    ((keepNotification verified metadata order raw).exec (AppState.perform env) s).state
      = { s with store := s.store.keep env.faults verified metadata order raw } := by
  unfold keepNotification SqliteStore.keep
  cases verified.or metadata with
  | none => rfl
  | some m => rfl

/-- The state of one order at most is all that changes here. -/
theorem exec_moveOrder_state (env : Env σ) (s : AppState σ) (verified : Option Notification)
    (order : Option Order) :
    ((moveOrder verified order).exec (AppState.perform env) s).state
      = { s with store := s.store.move env.faults verified order } := by
  unfold moveOrder SqliteStore.move
  cases verified with
  | none => rfl
  | some v =>
    cases order with
    | none => rfl
    | some o => cases hresult : v.isInstallationResult <;> simp [hresult, Notification.verdict]

/-- The one answer the Notification MEP has. -/
def noContent : Response where
  status := 204
  headers := [("X-Admin-Protocol", adminProtocol)]
  body := .empty

/-- **`handle_notification` always answers 204, and this is the store it leaves.** -/
theorem exec_handleNotification (env : Env σ) (s : AppState σ) (req : HandleNotificationRequest) :
    ∃ calls, (handleNotification req).exec (AppState.perform env) s
      = ⟨noContent, { s with store := notifiedStore env s.store req.pendingNotification },
          calls⟩ := by
  unfold handleNotification
  obtain ⟨calls, hmatch⟩ := exec_matchOrder env s
    ((env.library.notificationMetadata req.pendingNotification).toOption.bind Notification.iccid)
  -- no branch decides the answer, so the handler runs straight through
  simp only [Prog.exec_bind, exec_notificationMetadata, exec_verifyNotification, hmatch,
    exec_keepNotification_state, exec_moveOrder_state]
  exact ⟨_, rfl⟩

/-! What it leaves in either table. -/

/-- Recording a notification does not touch the orders. -/
theorem orders_keep (st : SqliteStore) (faults : StoreFaults)
    (verified metadata : Option Notification) (order : Option Order) (raw : Bytes) :
    (st.keep faults verified metadata order raw).orders = st.orders := by
  unfold SqliteStore.keep
  split
  · rename_i m _
    rcases SqliteStore.after_cases faults (.recordNotification (toRecord verified m order raw)) st
      with h | h <;> rw [h]
    rfl
  · rfl

/-- A verified installation result writes what it says to the order it is matched to. -/
theorem orders_notified {env : Env σ} {st : SqliteStore} {raw : Bytes} {v : Notification}
    {o : Order} (hmatched : matchedOrder env st raw = some o)
    (hverified : verifiedAs env st raw = some v) (hresult : v.isInstallationResult = true) :
    (notifiedStore env st raw).orders
      = (st.after env.faults (.setState o.id v.verdict)).orders := by
  unfold notifiedStore SqliteStore.move
  rw [hmatched, hverified]
  dsimp only
  rw [if_pos hresult]
  cases hfault : env.faults (.setState o.id v.verdict) with
  | some e =>
    rw [SqliteStore.after_of_some hfault, SqliteStore.after_of_some hfault]
    exact orders_keep st _ _ _ _ _
  | none =>
    rw [SqliteStore.after_of_none hfault, SqliteStore.after_of_none hfault]
    exact congrArg (fun t : OrderTable => t.setState o.id v.verdict) (orders_keep st _ _ _ _ _)

/-- An order is matched by an ICCID that was read and a query that went through. -/
theorem matchedOrder_eq_some_iff {env : Env σ} {st : SqliteStore} {raw : Bytes} {o : Order} :
    matchedOrder env st raw = some o
      ↔ ∃ i, (env.library.notificationMetadata raw).toOption.bind Notification.iccid = some i
          ∧ (st.performUnder env.faults (.orderByIccid i)).1 = .ok (some o) := by
  unfold matchedOrder
  cases (env.library.notificationMetadata raw).toOption.bind Notification.iccid with
  | none => simp
  | some i =>
    dsimp only
    cases hquery : (st.performUnder env.faults (.orderByIccid i)).1 with
    | error e => simp [hquery]
    | ok order => simp [hquery]

/-- An order that is matched is there. -/
theorem matchedOrder_row {env : Env σ} {st : SqliteStore} {raw : Bytes} {o : Order}
    (h : matchedOrder env st raw = some o) : st.orders.row? o.id = some o.toRow := by
  obtain ⟨i, _, hfound⟩ := matchedOrder_eq_some_iff.mp h
  unfold SqliteStore.performUnder at hfound
  split at hfound
  · cases hfound
  · have hfind := SqliteStore.one_eq_ok.mp hfound
    exact Rowid.Table.row?_of_mem (List.mem_of_find?_eq_some hfind)

/-- Moving an order does not touch the notifications. -/
theorem notifications_move (st : SqliteStore) (faults : StoreFaults)
    (verified : Option Notification) (order : Option Order) :
    (st.move faults verified order).notifications = st.notifications := by
  unfold SqliteStore.move
  split
  · split
    · exact SqliteStore.notifications_after _ (by simp)
    · rfl
  · rfl

/-- What is made of a notification is what is recorded. -/
theorem notifications_notified {env : Env σ} {st : SqliteStore} {raw : Bytes} {m : Notification}
    (hm : (verifiedAs env st raw).or (env.library.notificationMetadata raw).toOption = some m) :
    (notifiedStore env st raw).notifications
      = (st.after env.faults (.recordNotification
          (toRecord (verifiedAs env st raw) m (matchedOrder env st raw) raw))).notifications := by
  unfold notifiedStore
  rw [notifications_move]
  unfold SqliteStore.keep
  rw [hm]

/-- What nothing is made of is not recorded. -/
theorem notifications_notified_of_none {env : Env σ} {st : SqliteStore} {raw : Bytes}
    (hm : (verifiedAs env st raw).or (env.library.notificationMetadata raw).toOption = none) :
    (notifiedStore env st raw).notifications = st.notifications := by
  unfold notifiedStore
  rw [notifications_move]
  unfold SqliteStore.keep
  rw [hm]

end Smdp
