import Smdp.Server.Outcome
import Smdp.Server.System

/-!
# Smdp — what one step of the system can do

`serving_cases` is the inversion of `Serving`: a step is one of the seven commands that do
something, with the way it ended, or it leaves everything as it was. What a step does to
one thing is read off it once:

* `serving_store`: whatever every store call keeps, every step keeps.
* `serving_state`: the state column of an order moves in four ways (`StateMove`).
* `serving_writes`: every write a step makes, with what stands when it is made. So what is
  remembered of an eUICC is written by an answered `authenticate_client` alone
  (`serving_unbound`), and a notification by `handle_notification` (`serving_notifications`).
* `serving_appears`: an order appears by an `order add` that returned it.
-/

namespace Smdp

open Interaction Rowid

variable {σ : Type} {config : ServerConfig} {s s' : AppState σ} {x : Event σ}

/-! ## The commands on orders -/

/-- Every way `smdp order add` can end: nothing added, or one order. -/
inductive OrderAddExit (env : Env σ) (s : AppState σ) (args : OrderAdd) :
    Outcome (ServerSig σ) (Except CliError Order) (AppState σ) → Prop where
  | refused {e calls} : OrderAddExit env s args ⟨.error e, s, calls⟩
  | added {order new calls} (iccid : args.readIccid = .ok new.iccid) (upp : new.upp = args.upp)
      (metadata : new.metadata = args.metadata)
      (inserted : (s.store.performUnder env.faults (.addOrder new)).1 = .ok order) :
      OrderAddExit env s args
        ⟨.ok order, { s with store := s.store.after env.faults (.addOrder new) }, calls⟩

/-- Every way `smdp order reset` can end. -/
inductive OrderResetExit (env : Env σ) (s : AppState σ) (id : Int) :
    Outcome (ServerSig σ) (Except CliError Unit) (AppState σ) → Prop where
  | refused {e calls} : OrderResetExit env s id ⟨.error e, s, calls⟩
  | reset {calls} (unfaulted : env.faults (.setState id .available) = none) :
      OrderResetExit env s id
        ⟨.ok (), { s with store := s.store.after env.faults (.setState id .available) }, calls⟩

/-- An ICCID that does not parse, a store that does not open and an insert that fails leave no
order; otherwise the row is there. -/
theorem orderAdd_exit (env : Env σ) (s : AppState σ) (args : OrderAdd) :
    OrderAddExit env s args ((orderAdd args).exec (AppState.perform env) s) := by
  unfold orderAdd
  cases hiccid : args.readIccid with
  | error e => exact .refused
  | ok iccid =>
    simp only [Prog.exec_bind, Handler.exec_openStore]
    cases (s.store.performUnder env.faults .open).1 with
    | error e => exact .refused
    | ok opened =>
      -- drawing a MatchingID changes nothing
      have hid : ∀ matchingId, ((orGenerate matchingId).exec (AppState.perform env) s).state = s := by
        rintro (_ | m) <;> rfl
      simp only [createOrder, Prog.exec_bind, hid, Handler.exec_addOrder]
      generalize ((orGenerate args.matchingId).exec (AppState.perform env) s).value = matchingId
      cases hadd : (s.store.performUnder env.faults
          (.addOrder ⟨matchingId, iccid, args.upp, args.metadata⟩)).1 with
      | error e =>
        rw [SqliteStore.after_addOrder_of_error hadd]
        exact .refused
      | ok order => exact .added hiccid rfl rfl hadd

/-- The order has to be on the list before its state is touched. A write that fails leaves it
where it was, and says so: this result is looked at. -/
theorem orderReset_exit (env : Env σ) (s : AppState σ) (id : Int) :
    OrderResetExit env s id ((orderReset id).exec (AppState.perform env) s) := by
  unfold orderReset
  simp only [Prog.exec_bind, Handler.exec_openStore]
  cases (s.store.performUnder env.faults .open).1 with
  | error e => exact .refused
  | ok opened =>
    simp only [listOrders, Prog.exec_bind, Handler.exec_listOrders]
    cases s.store.listed env.faults with
    | error e => exact .refused
    | ok known =>
      simp only [Prog.exec_pure, Outcome.after_mk]
      split
      · simp only [Prog.exec_bind, Handler.exec_setState, SqliteStore.setState_eq]
        cases hfault : env.faults (.setState id .available) with
        | some e =>
          rw [SqliteStore.after_of_some hfault]
          exact .refused
        | none => exact .reset hfault
      · exact .refused

/-- Listing changes nothing. -/
theorem orderList_state (env : Env σ) (s : AppState σ) :
    ((orderList).exec (AppState.perform env) s).state = s := by
  unfold orderList
  simp only [Prog.exec_bind, Handler.exec_openStore]
  cases (s.store.performUnder env.faults .open).1 with
  | error e => rfl
  | ok opened =>
    simp only [listOrders, Prog.exec_bind, Handler.exec_listOrders]
    cases s.store.listed env.faults with
    | error e => rfl
    | ok orders => rfl

/-! ## The inversion -/

/-- What a step of the system was. -/
inductive ServingCase (s : AppState σ) (x : Event σ) (s' : AppState σ) : Prop where
  | initiateAuthentication {req r} (command : x.command = .initiateAuthentication req)
      (answer : x.answer = .http r)
      (exit : InitiateAuthenticationExit x.input s ⟨r, s', x.calls⟩)
  | authenticateClient {req r} (command : x.command = .authenticateClient req)
      (answer : x.answer = .http r)
      (exit : AuthenticateClientExit x.input s req ⟨r, s', x.calls⟩)
  | getBoundProfilePackage {req r} (command : x.command = .getBoundProfilePackage req)
      (answer : x.answer = .http r)
      (exit : GetBoundProfilePackageExit x.input s req ⟨r, s', x.calls⟩)
  | handleNotification {req} (command : x.command = .handleNotification req)
      (answer : x.answer = .http noContent)
      (state : s' = { s with store := notifiedStore x.input s.store req.pendingNotification })
  | orderAdd {args r} (command : x.command = .orderAdd args) (answer : x.answer = .added r)
      (exit : OrderAddExit x.input s args ⟨r, s', x.calls⟩)
  | orderReset {id r} (command : x.command = .orderReset id) (answer : x.answer = .reset r)
      (exit : OrderResetExit x.input s id ⟨r, s', x.calls⟩)
  | look (command : x.command = .orderList ∨ x.command = .reopen) (state : s' = s)

/-- **Every step is one of these.** -/
theorem serving_cases (h : Serving config s x s') : ServingCase s x s' := by
  obtain ⟨command, input, answer, calls⟩ := x
  unfold Serving Interaction.Serves at h
  dsimp only at h
  cases command with
  | initiateAuthentication req =>
    have hexit := initiateAuthentication_exit config input s req
    rw [Command.program, Prog.exec_map] at h
    cases h
    exact .initiateAuthentication rfl rfl hexit
  | authenticateClient req =>
    have hexit := authenticateClient_exit input s req
    rw [Command.program, Prog.exec_map] at h
    cases h
    exact .authenticateClient rfl rfl hexit
  | getBoundProfilePackage req =>
    have hexit := getBoundProfilePackage_exit input s req
    rw [Command.program, Prog.exec_map] at h
    cases h
    exact .getBoundProfilePackage rfl rfl hexit
  | handleNotification req =>
    obtain ⟨calls', hexit⟩ := exec_handleNotification input s req
    rw [Command.program, Prog.exec_map, hexit] at h
    cases h
    exact .handleNotification rfl rfl rfl
  | orderAdd args =>
    have hexit := orderAdd_exit input s args
    rw [Command.program, Prog.exec_map] at h
    cases h
    exact .orderAdd rfl rfl hexit
  | orderReset id =>
    have hexit := orderReset_exit input s id
    rw [Command.program, Prog.exec_map] at h
    cases h
    exact .orderReset rfl rfl hexit
  | orderList =>
    rw [Command.program, Prog.exec_map] at h
    cases h
    exact .look (.inl rfl) (orderList_state input s)
  | reopen =>
    rw [Command.program, Prog.exec_map, Handler.exec_openStore] at h
    cases h
    exact .look (.inr rfl) rfl

/-! A step of a known command ends in one of that handler's exits. -/

theorem serving_authenticateClient (h : Serving config s x s') {req : AuthenticateClientRequest}
    (hx : x.command = .authenticateClient req) :
    ∃ r, x.answer = .http r ∧ AuthenticateClientExit x.input s req ⟨r, s', x.calls⟩ := by
  cases serving_cases h with
  | authenticateClient command answer exit =>
    obtain rfl : req = _ := by simpa [hx] using command
    exact ⟨_, answer, exit⟩
  | initiateAuthentication command | getBoundProfilePackage command
  | handleNotification command | orderAdd command | orderReset command | look command =>
    simp [hx] at command

theorem serving_getBoundProfilePackage (h : Serving config s x s')
    {req : GetBoundProfilePackageRequest} (hx : x.command = .getBoundProfilePackage req) :
    ∃ r, x.answer = .http r ∧ GetBoundProfilePackageExit x.input s req ⟨r, s', x.calls⟩ := by
  cases serving_cases h with
  | getBoundProfilePackage command answer exit =>
    obtain rfl : req = _ := by simpa [hx] using command
    exact ⟨_, answer, exit⟩
  | initiateAuthentication command | authenticateClient command
  | handleNotification command | orderAdd command | orderReset command | look command =>
    simp [hx] at command

theorem serving_handleNotification (h : Serving config s x s') {req : HandleNotificationRequest}
    (hx : x.command = .handleNotification req) :
    x.answer = .http noContent
      ∧ s' = { s with store := notifiedStore x.input s.store req.pendingNotification } := by
  cases serving_cases h with
  | handleNotification command answer state =>
    obtain rfl : req = _ := by simpa [hx] using command
    exact ⟨answer, state⟩
  | initiateAuthentication command | authenticateClient command
  | getBoundProfilePackage command | orderAdd command | orderReset command | look command =>
    simp [hx] at command

/-- What an `authenticate_client` answered Executed-Success went through and left. -/
theorem serving_answered (h : Serving config s x s') {req : AuthenticateClientRequest}
    {r : Response} (hx : x.command = .authenticateClient req) (hr : x.answer = .http r)
    (succeeded : r.Succeeded) :
    ∃ order entry session resp g, Chosen x.input s req.transactionId order entry
      ∧ x.input.library.authenticateClient entry.session req.authenticateServerResponse
          order.metadata = (session, .ok resp)
      ∧ x.input.library.authenticateFields resp = .ok g
      ∧ s' = { s.putSession req.transactionId { entry with session, orderId := some order.id } with
          store := boundStore x.input s.store order session } := by
  obtain ⟨r', hr', exit⟩ := serving_authenticateClient h hx
  obtain rfl : r = r' := Answer.http.inj (hr.symm.trans hr')
  cases exit with
  | turnedAway _ failed => exact absurd succeeded (Response.not_succeeded_of_failed failed)
  | refused _ _ failed => exact absurd succeeded (Response.not_succeeded_of_failed failed)
  | uncut _ _ _ failed => exact absurd succeeded (Response.not_succeeded_of_failed failed)
  | answered chosen acceptance fields => exact ⟨_, _, _, _, _, chosen, acceptance, fields, rfl⟩

/-- What a `get_bound_profile_package` answered Executed-Success went through and left. -/
theorem serving_handedOut (h : Serving config s x s') {req : GetBoundProfilePackageRequest}
    {r : Response} (hx : x.command = .getBoundProfilePackage req) (hr : x.answer = .http r)
    (succeeded : r.Succeeded) :
    ∃ order entry session bpp, Deliverable x.input s req.transactionId order entry
      ∧ x.input.library.getBoundProfilePackage entry.session req.prepareDownloadResponse order.upp
          x.input.nonces.otskDp = (session, .ok bpp)
      ∧ x.calls.filterMap handedUpp = [order.upp]
      ∧ s' = { store := s.store.after x.input.faults (.setState order.id .downloaded)
               sessions := s.sessions.remove req.transactionId } := by
  obtain ⟨r', hr', exit⟩ := serving_getBoundProfilePackage h hx
  obtain rfl : r = r' := Answer.http.inj (hr.symm.trans hr')
  cases exit with
  | turnedAway _ failed => exact absurd succeeded (Response.not_succeeded_of_failed failed)
  | refused _ _ failed => exact absurd succeeded (Response.not_succeeded_of_failed failed)
  | handedOut deliverable built _ handed =>
    exact ⟨_, _, _, _, deliverable, built, handed, rfl⟩

/-! ## The state of an order -/

/-- A step is an `authenticate_client` answered Executed-Success against order `i`. -/
def AnsweredFor (s : AppState σ) (x : Event σ) (i : Int) : Prop :=
  ∃ req r order entry, x.command = .authenticateClient req ∧ x.answer = .http r ∧ r.Succeeded
    ∧ Chosen x.input s req.transactionId order entry ∧ order.id = i

/-- A step hands out order `i` over the session `entry`: a `get_bound_profile_package`
answered Executed-Success with its Profile. -/
def HandsOutOver (s : AppState σ) (x : Event σ) (entry : Entry σ) (i : Int) : Prop :=
  ∃ req r order, x.command = .getBoundProfilePackage req ∧ x.answer = .http r ∧ r.Succeeded
    ∧ Deliverable x.input s req.transactionId order entry ∧ order.id = i

/-- A step hands out order `i`. -/
def HandsOut (s : AppState σ) (x : Event σ) (i : Int) : Prop :=
  ∃ entry, HandsOutOver s x entry i

/-- A step handles a verified installation result `v`, matched to order `i`. -/
def Reports (s : AppState σ) (x : Event σ) (i : Int) (v : Notification) : Prop :=
  ∃ req o, x.command = .handleNotification req
    ∧ matchedOrder x.input s.store req.pendingNotification = some o ∧ o.id = i
    ∧ verifiedAs x.input s.store req.pendingNotification = some v
    ∧ v.isInstallationResult = true

/-- A step is an `order reset` of order `i` that went through. -/
def Resets (x : Event σ) (i : Int) : Prop :=
  x.command = .orderReset i ∧ x.answer = .reset (.ok ())

/-- A step is an `order add` that returned order `i`. -/
def Adds (x : Event σ) (i : Int) : Prop :=
  ∃ args o, x.command = .orderAdd args ∧ x.answer = .added (.ok o) ∧ o.id = i

/-- How a step can move the state of an order that is there. -/
inductive StateMove (s : AppState σ) (x : Event σ) (i : Int) (txt : String)
    (s' : AppState σ) : Prop where
  | kept (state : s'.store.state? i = some txt)
  | bound (answered : AnsweredFor s x i) (offered : s.store.OnOffer i)
      (state : s'.store.state? i = some OrderState.bound.asStr)
  | downloaded (hands : HandsOut s x i)
      (state : s'.store.state? i = some OrderState.downloaded.asStr)
  | reported {v} (reports : Reports s x i v)
      (state : s'.store.state? i = some v.verdict.asStr)
  | reset (resets : Resets x i) (state : s'.store.state? i = some OrderState.available.asStr)

/-- An order chosen for an `authenticate_client` is on offer. -/
theorem Chosen.onOffer {env : Env σ} {t : Bytes} {order : Order} {entry : Entry σ}
    (h : Chosen env s t order entry) :
    s.store.orders.row? order.id = some order.toRow ∧ order.state.Offered := by
  obtain ⟨⟨orders, hlist, havail⟩, _⟩ := h
  have hmem : order ∈ availableOrders orders := by simp [havail]
  unfold availableOrders at hmem
  obtain ⟨hmem, hoffered⟩ := List.mem_filter.mp hmem
  exact ⟨SqliteStore.row?_of_listed hlist hmem, by simpa [OrderState.Offered] using hoffered⟩

namespace SqliteStore

variable {st : SqliteStore} {i : Int} {txt : String}

theorem state?_remember (faults : StoreFaults) (order : Int) (eid : Option String)
    (cert : Option Bytes) (h : st.state? i = some txt) :
    (st.remember faults order eid cert).state? i = some txt := by
  unfold remember
  split
  · exact state?_after_of_some (by simp) h
  · exact h

theorem state?_keep (faults : StoreFaults) (verified metadata : Option Notification)
    (order : Option Order) (raw : Bytes) (h : st.state? i = some txt) :
    (st.keep faults verified metadata order raw).state? i = some txt := by
  unfold keep
  split
  · exact state?_after_of_some (by simp) h
  · exact h

/-- Moving an order on a report moves order `i` only if it is the one matched. -/
theorem state?_move (faults : StoreFaults) (verified : Option Notification)
    (order : Option Order) (h : st.state? i = some txt) :
    (st.move faults verified order).state? i = some txt
      ∨ ∃ v o, verified = some v ∧ order = some o ∧ v.isInstallationResult = true ∧ o.id = i
        ∧ (st.move faults verified order).state? i = some v.verdict.asStr := by
  unfold move
  split
  · rename_i v o
    split
    · rename_i hresult
      -- a verdict is written: to order `i`, or to another
      have hset := st.state?_after_setState faults o.id v.verdict i
      rw [h] at hset
      split at hset
      · rename_i hwrite
        exact .inr ⟨v, o, rfl, rfl, hresult, hwrite.1.symm, hset⟩
      · exact .inl hset
    · exact .inl h
  · exact .inl h

end SqliteStore

/-- **The state column moves in four ways**: bound by an answered `authenticate_client` to
which it was on offer, downloaded by a hand-out, set to a reported verdict, or reset. -/
theorem serving_state (h : Serving config s x s') {i : Int} {txt : String}
    (hi : s.store.state? i = some txt) : StateMove s x i txt s' := by
  cases serving_cases h with
  | initiateAuthentication _ _ exit => cases exit <;> exact .kept hi
  | authenticateClient command answer exit =>
    cases exit with
    -- on none of these paths is the store written to
    | turnedAway | refused | uncut => exact .kept hi
    | @answered _ _ order entry session _ _ chosen _ _ succeeded =>
      -- remembering the eUICC leaves the state alone, and then `Bound` is written
      have hi' := SqliteStore.state?_remember x.input.faults order.id
        (x.input.library.eid session).toOption (x.input.library.euiccCert session).toOption hi
      have hset := SqliteStore.state?_after_setState
        (s.store.remember x.input.faults order.id (x.input.library.eid session).toOption
          (x.input.library.euiccCert session).toOption) x.input.faults order.id .bound i
      rw [hi'] at hset
      split at hset
      · rename_i hwrite
        obtain ⟨hrow, hoffered⟩ := chosen.onOffer
        refine .bound ⟨_, _, order, entry, command, answer, succeeded, chosen, hwrite.1.symm⟩ ?_ hset
        rw [hwrite.1]
        exact ⟨order.state, hoffered, SqliteStore.state?_of_row? hrow⟩
      · exact .kept hset
  | getBoundProfilePackage command answer exit =>
    cases exit with
    | turnedAway | refused => exact .kept hi
    | @handedOut _ _ order entry _ _ deliverable _ succeeded _ =>
      have hset := s.store.state?_after_setState x.input.faults order.id .downloaded i
      rw [hi] at hset
      split at hset
      · rename_i hwrite
        exact .downloaded ⟨entry, _, _, order, command, answer, succeeded, deliverable,
          hwrite.1.symm⟩ hset
      · exact .kept hset
  | @handleNotification req command _ state =>
    -- recording the notification leaves the state alone, and then its order may move
    subst state
    have hkeep := SqliteStore.state?_keep x.input.faults
      (verifiedAs x.input s.store req.pendingNotification)
      (x.input.library.notificationMetadata req.pendingNotification).toOption
      (matchedOrder x.input s.store req.pendingNotification) req.pendingNotification hi
    rcases SqliteStore.state?_move x.input.faults
        (verifiedAs x.input s.store req.pendingNotification)
        (matchedOrder x.input s.store req.pendingNotification) hkeep
      with hkept | ⟨v, o, hverified, hmatched, hresult, hid, hmoved⟩
    · exact .kept hkept
    · exact .reported ⟨req, o, command, hmatched, hid, hverified, hresult⟩ hmoved
  | orderAdd _ _ exit =>
    cases exit with
    | refused => exact .kept hi
    -- a new row has a new id, so this one is untouched
    | added => exact .kept (SqliteStore.state?_after_of_some (by simp) hi)
  | @orderReset id _ command answer exit =>
    cases exit with
    | refused => exact .kept hi
    | reset unfaulted =>
      have hset := s.store.state?_after_setState x.input.faults id .available i
      rw [hi] at hset
      split at hset
      · rename_i hwrite
        obtain ⟨rfl, _⟩ := hwrite
        exact .reset ⟨command, answer⟩ hset
      · exact .kept hset
  | look _ state =>
    subst state
    exact .kept hi

/-- Once settled, an order stays settled until it is reset. -/
theorem serving_settled (h : Serving config s x s') {i : Int} (hi : s.store.Settled i)
    (hx : ¬ Resets x i) : s'.store.Settled i := by
  have hoff := hi.not_onOffer
  obtain ⟨state, hsettled, hstate⟩ := hi
  cases serving_state h hstate with
  | kept hkept => exact ⟨state, hsettled, hkept⟩
  -- what is settled is not on offer, so nothing binds it
  | bound _ offered _ => exact absurd offered hoff
  | downloaded _ hmoved => exact ⟨.downloaded, by decide, hmoved⟩
  | @reported v _ hmoved => exact ⟨v.verdict, v.verdict_not_offered, hmoved⟩
  | reset resets _ => exact absurd resets hx

/-! ## Answered authentications and hand-outs -/

/-- What an answered `authenticate_client` leaves. -/
theorem AnsweredFor.elim {i : Int} (hx : AnsweredFor s x i) (step : Serving config s x s') :
    ∃ req r order entry session, x.command = .authenticateClient req ∧ x.answer = .http r
      ∧ r.Succeeded ∧ Chosen x.input s req.transactionId order entry ∧ order.id = i
      ∧ s'.store = boundStore x.input s.store order session
      ∧ s'.sessions.get req.transactionId
          = some { entry with session, orderId := some order.id } := by
  obtain ⟨req, r, order, entry, command, answer, succeeded, chosen, hid⟩ := hx
  obtain ⟨order', entry', session, _, _, chosen', _, _, rfl⟩ :=
    serving_answered step command answer succeeded
  obtain ⟨rfl, rfl⟩ := chosen.unique chosen'
  exact ⟨req, r, order, entry, session, command, answer, succeeded, chosen, hid, rfl,
    (AppState.get_putSession s _ _ _).trans (if_pos rfl)⟩

/-- A step asks for the Profile of order `i` over the session `entry`, which authenticated
against it, with a response the library builds a package for. -/
def AsksOver (s : AppState σ) (x : Event σ) (entry : Entry σ) (i : Int) : Prop :=
  ∃ req order session bpp, x.command = .getBoundProfilePackage req
    ∧ Deliverable x.input s req.transactionId order entry ∧ order.id = i
    ∧ x.input.library.getBoundProfilePackage entry.session req.prepareDownloadResponse order.upp
        x.input.nonces.otskDp = (session, .ok bpp)

/-- A step asks for the Profile of order `i`. -/
def AsksFor (s : AppState σ) (x : Event σ) (i : Int) : Prop :=
  ∃ entry, AsksOver s x entry i

/-- **What is asked for is what is handed out.** -/
theorem handsOutOver_iff {entry : Entry σ} {i : Int}
    (step : Serving config s x s') : HandsOutOver s x entry i ↔ AsksOver s x entry i := by
  constructor
  · rintro ⟨req, r, order, command, answer, succeeded, deliverable, rfl⟩
    obtain ⟨order', entry', session, bpp, deliverable', built, _⟩ :=
      serving_handedOut step command answer succeeded
    obtain ⟨rfl, rfl⟩ := deliverable.unique deliverable'
    exact ⟨req, order, session, bpp, command, deliverable, rfl, built⟩
  · rintro ⟨req, order, session, bpp, command, deliverable, rfl, built⟩
    obtain ⟨r, answer, exit⟩ := serving_getBoundProfilePackage step command
    cases exit with
    -- found and served from, so not turned away; and the library builds, so not refused either
    | turnedAway undeliverable => exact absurd deliverable (undeliverable order entry)
    | refused deliverable' refusal =>
      obtain ⟨rfl, rfl⟩ := deliverable.unique deliverable'
      rw [built] at refusal
      cases refusal
    | handedOut _ _ succeeded =>
      exact ⟨req, r, order, command, answer, succeeded, deliverable, rfl⟩

/-- The store a hand-out leaves. -/
theorem HandsOut.store {i : Int} (hx : HandsOut s x i)
    (step : Serving config s x s') :
    s'.store = s.store.after x.input.faults (.setState i .downloaded) := by
  obtain ⟨entry, req, r, order, command, answer, succeeded, deliverable, rfl⟩ := hx
  obtain ⟨order', entry', _, _, deliverable', _, _, rfl⟩ :=
    serving_handedOut step command answer succeeded
  obtain ⟨rfl, rfl⟩ := deliverable.unique deliverable'
  rfl

/-- An order that is handed out is there. -/
theorem HandsOut.row {i : Int} (hx : HandsOut s x i) :
    ∃ order : Order, s.store.orders.row? i = some order.toRow := by
  obtain ⟨entry, req, r, order, _, _, _, deliverable, rfl⟩ := hx
  exact ⟨order, (SqliteStore.servedOrder_eq_some deliverable.served).2⟩

/-! ## Everything else in the store -/

theorem AppState.perform_store (I : SqliteStore → Prop)
    (hI : ∀ faults c st, I st → I (st.after faults c)) (env : Env σ) (op : ServerOp σ)
    (hs : I s.store) : I (AppState.perform env op s).2.store := by
  cases op with
  | store c => exact hI env.faults c s.store hs
  | _ => exact hs

/-- **What every store call keeps, every step keeps.** -/
theorem serving_store (I : SqliteStore → Prop)
    (hI : ∀ faults c st, I st → I (st.after faults c)) (h : Serving config s x s')
    (hs : I s.store) : I s'.store := by
  -- by induction over the calls of the program, of which only store calls matter
  have hexec := Prog.exec_preserves (fun s : AppState σ => I s.store)
    (fun op _ => AppState.perform_store I hI x.input op) (Command.program config x.command) s hs
  rw [h] at hexec
  exact hexec

theorem serving_typed (h : Serving config s x s') (hs : s.store.Typed) : s'.store.Typed :=
  serving_store SqliteStore.Typed (fun faults c _ hst => hst.after faults c) h hs

/-- **Every row of a reachable store reads back**, so listing the orders fails only if the call
does. -/
theorem run_typed {h : List (Step (AppState σ) (Event σ))} (run : ServerRun config h s) :
    s.store.Typed :=
  run.invariant (fun s => s.store.Typed) SqliteStore.typed_empty fun _ _ _ hs step =>
    serving_typed step hs

/-- An order that is there stays, and stays the same Profile. -/
theorem serving_sameProfile (h : Serving config s x s') {i : Int} {r : OrderRow}
    (hr : s.store.orders.row? i = some r) :
    ∃ r', s'.store.orders.row? i = some r' ∧ r.SameProfile r' := by
  refine serving_store (fun st => ∃ r', st.orders.row? i = some r' ∧ r.SameProfile r') ?_ h
    ⟨r, hr, .refl r⟩
  rintro faults c st ⟨r', hr', hsame⟩
  obtain ⟨r'', hr'', hsame'⟩ := SqliteStore.sameProfile_after faults c hr'
  exact ⟨r'', hr'', hsame.trans hsame'⟩

/-- The writes a step can make, each with what stands when it is made. -/
inductive StoreWrite (s : AppState σ) (x : Event σ) : StoreCall → Prop where
  | bindEuicc {i eid cert} (answered : AnsweredFor s x i) : StoreWrite s x (.bindEuicc i eid cert)
  | bound {i} (answered : AnsweredFor s x i) : StoreWrite s x (.setState i .bound)
  | downloaded {i} (hands : HandsOut s x i) : StoreWrite s x (.setState i .downloaded)
  | recordNotification {req n} (command : x.command = .handleNotification req) :
      StoreWrite s x (.recordNotification n)
  | reported {i v} (reports : Reports s x i v) : StoreWrite s x (.setState i v.verdict)
  | addOrder {args new o} (command : x.command = .orderAdd args)
      (answer : x.answer = .added (.ok o))
      (inserted : (s.store.performUnder x.input.faults (.addOrder new)).1 = .ok o) :
      StoreWrite s x (.addOrder new)
  | reset {i} (resets : Resets x i) : StoreWrite s x (.setState i .available)

/-- **What the writes of a step keep, the step keeps.** -/
theorem serving_writes (I : SqliteStore → Prop)
    (hI : ∀ c st, StoreWrite s x c → I st → I (st.after x.input.faults c))
    (h : Serving config s x s') (hs : I s.store) : I s'.store := by
  cases serving_cases h with
  | initiateAuthentication _ _ exit => cases exit <;> exact hs
  | authenticateClient command answer exit =>
    cases exit with
    | turnedAway | refused | uncut => exact hs
    | @answered _ _ order entry session _ _ chosen _ _ succeeded =>
      have hanswered : AnsweredFor s x order.id :=
        ⟨_, _, order, entry, command, answer, succeeded, chosen, rfl⟩
      show I (boundStore x.input s.store order session)
      unfold boundStore SqliteStore.remember
      refine hI _ _ (.bound hanswered) ?_
      split
      · exact hI _ _ (.bindEuicc hanswered) hs
      · exact hs
  | getBoundProfilePackage command answer exit =>
    cases exit with
    | turnedAway | refused => exact hs
    | @handedOut _ _ order entry _ _ deliverable _ succeeded =>
      exact hI _ _ (.downloaded ⟨entry, _, _, order, command, answer, succeeded, deliverable, rfl⟩) hs
  | @handleNotification req command _ state =>
    subst state
    show I (notifiedStore x.input s.store req.pendingNotification)
    -- the notification is recorded first, and then its order may move
    have hkept : I (s.store.keep x.input.faults (verifiedAs x.input s.store req.pendingNotification)
        (x.input.library.notificationMetadata req.pendingNotification).toOption
        (matchedOrder x.input s.store req.pendingNotification) req.pendingNotification) := by
      unfold SqliteStore.keep
      split
      · exact hI _ _ (.recordNotification command) hs
      · exact hs
    unfold notifiedStore SqliteStore.move
    split
    · rename_i v o hverified hmatched
      split
      · rename_i hresult
        exact hI _ _ (.reported ⟨req, o, command, hmatched, rfl, hverified, hresult⟩) hkept
      · exact hkept
    · exact hkept
  | orderAdd command answer exit =>
    cases exit with
    | refused => exact hs
    | added _ _ _ inserted => exact hI _ _ (.addOrder command answer inserted) hs
  | orderReset command answer exit =>
    cases exit with
    | refused => exact hs
    | reset => exact hI _ _ (.reset ⟨command, answer⟩) hs
  | look _ state =>
    subst state
    exact hs

/-- **What every call keeps that does not remember an eUICC of order `i`, every step keeps
that is not an answered `authenticate_client` against `i`.** -/
theorem serving_unbound (I : SqliteStore → Prop) {i : Int}
    (hI : ∀ faults c st, (∀ eid cert, c ≠ .bindEuicc i eid cert) → I st → I (st.after faults c))
    (h : Serving config s x s') (hx : ¬ AnsweredFor s x i) (hs : I s.store) : I s'.store := by
  refine serving_writes I ?_ h hs
  rintro c st hwrite hst
  refine hI _ _ _ ?_ hst
  rintro eid cert rfl
  cases hwrite with
  -- the one write that remembers an eUICC is that of an answered `authenticate_client`
  | bindEuicc answered => exact hx answered

/-- **Only `handle_notification` writes a notification.** -/
theorem serving_notifications (h : Serving config s x s')
    (hx : ∀ req, x.command ≠ .handleNotification req) :
    s'.store.notifications = s.store.notifications := by
  refine serving_writes (fun st => st.notifications = s.store.notifications) ?_ h rfl
  rintro c st hwrite hst
  refine (SqliteStore.notifications_after c ?_).trans hst
  rintro n rfl
  cases hwrite with
  | recordNotification command => exact hx _ command

/-- **An order appears by an `order add` that returned it**, with the row it was added with. -/
theorem serving_appears (h : Serving config s x s') {i : Int}
    (hi : s.store.orders.row? i = none) :
    s'.store.orders.row? i = none
      ∨ Adds x i ∧ ∃ new : NewOrder, s'.store.orders.row? i = some (new.toRow i) := by
  -- only an `order add` inserts a row; every other write is to rows that are there
  by_cases hadd : ∃ args, x.command = .orderAdd args
  · obtain ⟨args, command⟩ := hadd
    cases serving_cases h with
    | @orderAdd _ r command answer exit =>
      cases exit with
      | refused => exact .inl hi
      | @added order new _ _ _ _ inserted =>
        rcases SqliteStore.row?_after_none x.input.faults (.addOrder new) hi with
          hnone | ⟨new', hnew, hid, hrow⟩
        · exact .inl hnone
        · cases hnew
          refine .inr ⟨⟨_, order, command, answer, ?_⟩, new, hrow⟩
          rw [hid]
          exact SqliteStore.id_of_addOrder inserted
    | initiateAuthentication command' | authenticateClient command'
    | getBoundProfilePackage command' | handleNotification command' | orderReset command'
    | look command' =>
      simp [command] at command'
  · left
    refine serving_writes (fun st => st.orders.row? i = none) ?_ h hi
    rintro c st hwrite hst
    rcases SqliteStore.row?_after_none x.input.faults c hst with hnone | ⟨new, rfl, _⟩
    · exact hnone
    · cases hwrite with
      | addOrder command => exact absurd ⟨_, command⟩ hadd

end Smdp
