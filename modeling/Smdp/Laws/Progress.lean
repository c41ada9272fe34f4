import Smdp.Interaction.Finish
import Smdp.Laws.Interleaving

/-!
# Smdp — every request is answered

A handler makes at most eleven calls (`callsAtMost`), the most of them where an eUICC is accepted,
and never waits for the session mutex while it holds it. So the server cannot come to a halt with
requests left: whatever is running, some request goes on, and it cannot go on for long
(`every_request_answered`).
-/

namespace Smdp

open Interaction

variable {σ : Type}

section

variable (config : ServerConfig)

attribute [local simp] Prog.CallsAtMost Prog.ask Handler.rsp Handler.store Handler.openStore
  Handler.addOrder Handler.listOrders Handler.orderByIccid Handler.bindEuicc Handler.setState
  Handler.recordNotification Handler.lock Handler.unlock Handler.getSession Handler.putSession
  Handler.removeSession Handler.insertSession DpSession.authenticateClient
  DpSession.getBoundProfilePackage DpSession.eid DpSession.euiccCert initiateFields
  authenticateFields notificationMetadata verifyNotification

/-- Two draws, one library call, the fields, and lock, insert, unlock. Each way of failing stops
the handler earlier, so the longest path is the successful one. -/
theorem callsAtMost_initiateAuthentication (req : InitiateAuthenticationRequest) :
    (initiateAuthentication (σ := σ) config req).CallsAtMost 7 := by
  unfold initiateAuthentication
  cases Octets.ofBytes? 16 req.euiccChallenge with
  | none => simp
  | some challenge =>
    simp
    intro transactionId _ serverChallenge _
    unfold DpSession.initiate
    -- the two addresses
    split
    · simp
    · simp
    · simp
      intro asked
      split
      · simp
      · simp
        intro fields
        split <;> simp

/-- The longest handler. Of its eleven calls the last two are the `bind_euicc` and the `set_state`
of an accepted eUICC; where its EID or its certificate is missing it makes one fewer. -/
theorem callsAtMost_authenticateClient (req : AuthenticateClientRequest) :
    (authenticateClient (σ := σ) req).CallsAtMost 11 := by
  unfold authenticateClient
  simp
  intro listed
  cases listed with
  | error e => simp
  | ok orders =>
    dsimp only
    -- no order, several, or the one: only the last goes on to the session table
    match availableOrders orders with
    | [] => simp
    | _ :: _ :: _ => simp
    | [order] =>
      simp
      intro live
      cases live with
      | none => simp
      | some entry =>
        simp
        intro session resp
        split
        · simp
        · simp
          intro eid cert fields
          split
          · simp
          · simp [rememberEuicc]
            split <;> simp

/-- One draw, then everything under the lock up to the removal of the session, and the `set_state`
after it. -/
theorem callsAtMost_getBoundProfilePackage (req : GetBoundProfilePackageRequest) :
    (getBoundProfilePackage (σ := σ) req).CallsAtMost 8 := by
  unfold getBoundProfilePackage
  simp
  intro otskDp _ live
  cases live with
  | none => simp
  | some entry =>
    simp [findUpp]
    -- no order on this session, or none by that id on the list
    split
    · simp
    · simp
      intro listed
      cases listed with
      | error e => simp
      | ok orders =>
        simp
        split
        · simp
        · simp
          intro session resp
          split <;> simp

/-! The rest are put together from their parts. -/

theorem callsAtMost_pure {α : Type} (a : α) : (pure a : Handler σ α).CallsAtMost 0 := trivial

/-- One call is one call: the bound of every part that is a single question. -/
theorem callsAtMost_ask (op : ServerOp σ) : (Prog.ask (F := ServerSig σ) op).CallsAtMost 1 := by
  simp

/-- Without an ICCID there is nothing to look up. -/
theorem callsAtMost_matchOrder (iccid : Option Iccid) :
    (matchOrder (σ := σ) iccid).CallsAtMost 1 := by
  unfold matchOrder
  cases iccid with
  | none => simp
  | some i =>
    simp
    intro found
    split <;> simp

theorem callsAtMost_keepNotification (verified metadata : Option Notification)
    (order : Option Order) (raw : Bytes) :
    (keepNotification (σ := σ) verified metadata order raw).CallsAtMost 1 := by
  unfold keepNotification
  split <;> simp

theorem callsAtMost_moveOrder (verified : Option Notification) (order : Option Order) :
    (moveOrder (σ := σ) verified order).CallsAtMost 1 := by
  unfold moveOrder
  split
  · split <;> simp
  · simp

/-- Five parts in a row, each of at most one call, and the metadata read twice: `CallsAtMost.bind`
adds them up. -/
theorem callsAtMost_handleNotification (req : HandleNotificationRequest) :
    (handleNotification (σ := σ) req).CallsAtMost 6 := by
  -- the two parts that are a single library call, stated once: `notification_metadata` comes
  -- twice
  have hread : ∀ raw : Bytes, (notificationMetadata (σ := σ) raw).CallsAtMost 1 := by simp
  have hverify : ∀ (cert : Option Bytes) (raw : Bytes),
      (verifyNotification (σ := σ) cert raw).CallsAtMost 1 := by simp
  unfold handleNotification
  -- from here one part at a time, `m` the calls still to come
  refine Prog.CallsAtMost.bind (m := 5) (hread _) fun first => ?_
  refine Prog.CallsAtMost.bind (m := 4) (callsAtMost_matchOrder _) fun order => ?_
  refine Prog.CallsAtMost.bind (m := 3) (hverify _ _) fun checked => ?_
  refine Prog.CallsAtMost.bind (m := 2) (hread _) fun second => ?_
  refine Prog.CallsAtMost.bind (m := 1) (callsAtMost_keepNotification _ _ _ _) fun kept => ?_
  exact Prog.CallsAtMost.bind (m := 0) (callsAtMost_moveOrder _ _) fun _ => callsAtMost_pure _

/-- Opening, the draw of a MatchingID if none was given, and the insert. An ICCID that does not
parse ends it before the store is opened. -/
theorem callsAtMost_orderAdd (args : OrderAdd) : (orderAdd (σ := σ) args).CallsAtMost 3 := by
  unfold orderAdd
  cases args.readIccid with
  | error e => simp
  | ok iccid =>
    simp
    intro opened
    cases opened with
    | error e => simp
    | ok _ =>
      simp [createOrder, orGenerate]
      split
      · simp
        rintro (e | order) <;> simp
      · simp
        rintro drawn _ (e | order) <;> simp

/-- Opening, the list it looks the order up in, and the reset if it is there. -/
theorem callsAtMost_orderReset (id : Int) : (orderReset (σ := σ) id).CallsAtMost 3 := by
  unfold orderReset
  simp
  intro opened
  cases opened with
  | error e => simp
  | ok _ =>
    simp [listOrders]
    rintro (e | known)
    · simp
    · simp
      split
      · simp
        rintro (e | _) <;> simp
      · simp

/-- Opening, and the list. -/
theorem callsAtMost_orderList : (orderList (σ := σ)).CallsAtMost 2 := by
  unfold orderList
  simp
  intro opened
  cases opened with
  | error e => simp
  | ok _ =>
    simp [listOrders]
    rintro (e | orders) <;> simp

/-- What every command does after its handler is no call: it wraps the answer as a reply. -/
theorem callsAtMost_map {n : Nat} (hn : n ≤ 11) {α β : Type} {p : Handler σ α}
    (h : p.CallsAtMost n) (f : α → β) : (p >>= fun a => pure (f a)).CallsAtMost 11 :=
  (h.bind (m := 0) fun a => callsAtMost_pure (f a)).le hn

/-- **No command makes more than eleven calls.** -/
theorem callsAtMost (c : Command) : (c.program (σ := σ) config).CallsAtMost 11 := by
  cases c with
  | initiateAuthentication req =>
    exact callsAtMost_map (by decide) (callsAtMost_initiateAuthentication config req) _
  | authenticateClient req => exact callsAtMost_map (by decide) (callsAtMost_authenticateClient req) _
  | getBoundProfilePackage req =>
    exact callsAtMost_map (by decide) (callsAtMost_getBoundProfilePackage req) _
  | handleNotification req => exact callsAtMost_map (by decide) (callsAtMost_handleNotification req) _
  | orderAdd args => exact callsAtMost_map (by decide) (callsAtMost_orderAdd args) _
  | orderReset id => exact callsAtMost_map (by decide) (callsAtMost_orderReset id) _
  | orderList => exact callsAtMost_map (by decide) callsAtMost_orderList _
  | reopen => exact callsAtMost_map (n := 1) (by decide) (callsAtMost_ask (.store .open)) _

end

variable {config : ServerConfig} {p : ServerPool σ} {s₁ : AppState σ}
  {h : List (Step (ServerPool σ) (ServerPoolEvent σ))}

/-- **Every request is answered.** Requests are served at once, in any interleaving, each call
under any environment. Twelve steps a request are all there can be. Unless every request has been
answered some request can go on, whatever its next call is answered with; and once every request
has been answered, the mutex is free. From wherever the server is it gets there, under any
environment. -/
theorem every_request_answered (run : Run (PoolServing config) (.idle s₁) h p) :
    h.length ≤ 12 * p.threads.length
      ∧ (p.Finished ∨ ∃ t, (machine config).GoesOn p t)
      ∧ (p.Finished → p.holder = none)
      ∧ ∀ env : Env σ, ∃ h' p', Run (PoolServing config) p h' p'
        ∧ (∀ x ∈ h', ∃ t c call, x.label = .called t c env call)
        ∧ p'.threads.length = p.threads.length ∧ p'.Finished ∧ p'.holder = none := by
  refine ⟨Machine.Run.length_le (callsAtMost config) run, ?_, ?_, ?_⟩
  · -- either nobody is left, or some request has a next call it is free to make
    by_cases hp : p.Finished
    · exact .inl hp
    · exact .inr (Machine.Run.goes_on (lockSafe config) run hp)
  · exact Machine.Run.finished (lockSafe config) run
  · intro env
    exact Machine.Run.finishes (lockSafe config) (callsAtMost config) env run

/-- Cut off where `B`'s request has listed the order and `A`'s holds the mutex. -/
theorem every_request_answered_lateBinding :
    (scheduled (lateBinding.take 70)).length
        ≤ 12 * ((machine ⟨"smdp.example.com"⟩).played (.idle AppState.fresh)
            (lateBinding.take 70)).threads.length :=
  (every_request_answered (run_scheduled (lateBinding.take 70))).1

end Smdp
