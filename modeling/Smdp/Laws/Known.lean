import Smdp.Server.Step

/-!
# Smdp — a bound order knows its eUICC

`Bound` says that an eUICC authenticated against the order and that `eid` and `euicc_cert` are
set. The state and the two columns are written by separate calls, under different conditions:
the columns only where both accessors of the session succeed, the state whenever a request is
answered. So a run keeps what `Bound` says exactly if every step that binds an order or settles
it as downloaded is about an eUICC that is known (`boundOrdersKnown_iff`).
-/

namespace Smdp

open Interaction Rowid

variable {σ : Type} {config : ServerConfig} {s s' : AppState σ} {x : Event σ} {i : Int}
  {h : List (Step (AppState σ) (Event σ))}

/-- Both columns of order `i` are set. -/
def Known (st : SqliteStore) (i : Int) : Prop :=
  ∃ eid cert, st.euicc? i = some (some eid, some cert)

/-- What `Bound` says: an order that is bound, or was handed out, has both columns set. -/
def BoundOrdersKnown (st : SqliteStore) : Prop :=
  ∀ o : Order, st.orders.row? o.id = some o.toRow → o.state = .bound ∨ o.state = .downloaded →
    o.eid.isSome ∧ o.euiccCert.isSome

/-- A step has the library accept an eUICC for order `i` over what is then `session`, with
fields that can be cut. -/
def AcceptsFor (s : AppState σ) (x : Event σ) (i : Int) (session : σ) : Prop :=
  ∃ req order entry resp g, x.command = .authenticateClient req
    ∧ Chosen x.input s req.transactionId order entry ∧ order.id = i
    ∧ x.input.library.authenticateClient entry.session req.authenticateServerResponse
        order.metadata = (session, .ok resp)
    ∧ x.input.library.authenticateFields resp = .ok g

/-- Both accessors of `session` succeed. -/
def Told (lib : Library σ) (session : σ) : Prop :=
  ∃ eid cert, lib.eid session = .ok eid ∧ lib.euiccCert session = .ok cert

/-- The eUICC is known of the order a step binds, hands out, or hears is installed: the order
has both columns set already, or the session it is bound over has both to tell. -/
structure KnowsWho (s : AppState σ) (x : Event σ) : Prop where
  binding : ∀ i session, AcceptsFor s x i session → Known s.store i ∨ Told x.input.library session
  handingOut : ∀ i, AsksFor s x i → Known s.store i
  hearing : ∀ i v, Reports s x i v → v.installed = true → Known s.store i

/-- The notifications do not enter. -/
theorem known_congr {st st' : SqliteStore} (horders : st.orders = st'.orders) :
    Known st i ↔ Known st' i := by
  unfold Known SqliteStore.euicc?
  rw [horders]

theorem state?_congr {st st' : SqliteStore} (horders : st.orders = st'.orders) (i : Int) :
    st.state? i = st'.state? i := by
  unfold SqliteStore.state?
  rw [horders]

/-! ## What is known stays known -/

theorem Known.after {st : SqliteStore} (hi : Known st i) (faults : StoreFaults) (c : StoreCall) :
    Known (st.after faults c) i := by
  obtain ⟨eid, cert, hcolumns⟩ := hi
  by_cases hc : ∃ eid cert, c = .bindEuicc i eid cert
  · obtain ⟨eid', cert', rfl⟩ := hc
    unfold Known
    rw [SqliteStore.euicc?_after_bindEuicc, hcolumns]
    split
    · exact ⟨eid', cert', rfl⟩
    · exact ⟨eid, cert, rfl⟩
  · exact ⟨eid, cert, SqliteStore.euicc?_after_of_some (fun e c h => hc ⟨e, c, h⟩) hcolumns⟩

theorem Known.step (hi : Known s.store i) (step : Serving config s x s') : Known s'.store i :=
  serving_store (fun st => Known st i) (fun faults c _ hst => hst.after faults c) step hi

theorem known_of_row {st : SqliteStore} {o : Order} (ho : st.orders.row? o.id = some o.toRow) :
    Known st o.id ↔ o.eid.isSome ∧ o.euiccCert.isSome := by
  unfold Known
  rw [SqliteStore.euicc?_of_row? ho]
  show (∃ eid cert, some (o.eid, o.euiccCert) = some (some eid, some cert)) ↔ _
  cases o.eid with
  | none => simp
  | some eid => cases o.euiccCert <;> simp

/-- Writing a state tells nothing. -/
theorem known_after_setState {st : SqliteStore} {faults : StoreFaults} {j : Int}
    {state : OrderState} (hrow : st.orders.row? i ≠ none) :
    Known (st.after faults (.setState j state)) i ↔ Known st i := by
  constructor
  · rintro ⟨eid, cert, hcolumns⟩
    obtain ⟨r, hr⟩ := Option.ne_none_iff_exists'.mp hrow
    have hkept : (st.after faults (.setState j state)).euicc? i = some (r.eid, r.euiccCert) :=
      SqliteStore.euicc?_after_of_some (by simp) (SqliteStore.euicc?_of_row? hr)
    rw [hkept] at hcolumns
    exact ⟨eid, cert, (SqliteStore.euicc?_of_row? hr).trans hcolumns⟩
  · intro hi
    exact hi.after faults _

/-- An answered `authenticate_client` learns who its eUICC is exactly where both accessors
succeed. -/
theorem known_boundStore {env : Env σ} {st : SqliteStore} {order : Order} {session : σ}
    (hrow : st.orders.row? order.id = some order.toRow) (hfaults : env.faults = StoreFaults.none) :
    Known (boundStore env st order session) order.id
      ↔ Known st order.id ∨ Told env.library session := by
  have hthere : ∀ faults c, (st.after faults c).orders.row? order.id ≠ none := by
    intro faults c
    rw [SqliteStore.row?_after faults c hrow]
    exact Option.some_ne_none _
  unfold boundStore SqliteStore.remember Told
  cases heid : env.library.eid session with
  | error e =>
    dsimp only [Except.toOption]
    rw [known_after_setState (by simp [hrow])]
    simp
  | ok eid =>
    cases hcert : env.library.euiccCert session with
    | error e =>
      dsimp only [Except.toOption]
      rw [known_after_setState (by simp [hrow])]
      simp
    | ok cert =>
      dsimp only [Except.toOption]
      rw [known_after_setState (hthere _ _)]
      refine iff_of_true ⟨eid, cert, ?_⟩ (.inr ⟨eid, cert, rfl, rfl⟩)
      refine (SqliteStore.euicc?_written (SqliteStore.euicc?_of_row? hrow)).mpr (.inl ?_)
      rw [hfaults]
      rfl

/-! ## One step -/

/-- A step that meets the condition keeps what `Bound` says. -/
theorem BoundOrdersKnown.step (hs : BoundOrdersKnown s.store) (htyped : s.store.Typed)
    (hx : KnowsWho s x) (step : Serving config s x s')
    (hfaults : x.input.faults = StoreFaults.none) : BoundOrdersKnown s'.store := by
  intro o ho hstate
  rw [← known_of_row ho]
  have hafter : s'.store.state? o.id = some o.state.asStr := SqliteStore.state?_of_row? ho
  have hsame : ∀ {state : OrderState}, s'.store.state? o.id = some state.asStr →
      o.state = state := by
    intro state h
    simpa using hafter.symm.trans h
  cases hbefore : s.store.orders.row? o.id with
  | none =>
    -- just added, so it is available
    rcases serving_appears step hbefore with hnone | ⟨_, new, hrow⟩
    · rw [hnone] at ho
      cases ho
    · have havailable : o.state = .available := hsame (SqliteStore.state?_of_row? hrow)
      rw [havailable] at hstate
      simp at hstate
  | some r =>
    obtain ⟨o₀, rfl⟩ := htyped _ _ hbefore
    have hid : o₀.toRow.id = o.id := Table.key_of_row? hbefore
    change o₀.id = o.id at hid
    have hi := SqliteStore.state?_of_row? hbefore
    cases serving_state step hi with
    | kept kept =>
      -- where it stood before, it was known before
      have hstate₀ : o.state = o₀.state := hsame kept
      rw [hstate₀] at hstate
      rw [← hid] at hbefore ⊢
      exact ((known_of_row hbefore).mpr (hs o₀ hbefore hstate)).step step
    | bound answered _ _ =>
      obtain ⟨req, r, order, entry, command, answer, succeeded, chosen, hid'⟩ := answered
      obtain ⟨order', entry', session, resp, g, chosen', acceptance, fields, rfl⟩ :=
        serving_answered step command answer succeeded
      obtain ⟨rfl, rfl⟩ := chosen.unique chosen'
      rw [← hid']
      refine (known_boundStore chosen.onOffer.1 hfaults).mpr ?_
      exact hx.binding _ _ ⟨req, order, entry, resp, g, command, chosen, rfl, acceptance, fields⟩
    | downloaded hands _ =>
      obtain ⟨entry, hover⟩ := hands
      exact (hx.handingOut _ ⟨entry, (handsOutOver_iff step).mp hover⟩).step step
    | @reported v reports reported =>
      have hverdict : o.state = v.verdict := hsame reported
      have hinstalled : v.installed = true := by
        unfold Notification.verdict at hverdict
        by_contra hnot
        rw [if_neg hnot] at hverdict
        rw [hverdict] at hstate
        simp at hstate
      exact (hx.hearing _ v reports hinstalled).step step
    | reset _ reset =>
      rw [hsame reset] at hstate
      simp at hstate

/-- What is accepted for an order is answered, and binds it. -/
theorem AcceptsFor.store {session : σ} (hx : AcceptsFor s x i session)
    (step : Serving config s x s') :
    ∃ order : Order, order.id = i ∧ s.store.orders.row? order.id = some order.toRow
      ∧ s'.store = boundStore x.input s.store order session := by
  obtain ⟨req, order, entry, resp, g, command, chosen, hid, acceptance, fields⟩ := hx
  obtain ⟨r, _, exit⟩ := serving_authenticateClient step command
  refine ⟨order, hid, chosen.onOffer.1, ?_⟩
  cases exit with
  | turnedAway unchosen => exact absurd chosen (unchosen order entry)
  | refused chosen' refusal =>
    obtain ⟨rfl, rfl⟩ := chosen.unique chosen'
    cases acceptance.symm.trans refusal
  | uncut chosen' acceptance' fields' =>
    obtain ⟨rfl, rfl⟩ := chosen.unique chosen'
    cases acceptance.symm.trans acceptance'
    cases fields.symm.trans fields'
  | answered chosen' acceptance' =>
    obtain ⟨rfl, rfl⟩ := chosen.unique chosen'
    cases acceptance.symm.trans acceptance'
    rfl

/-- The state an answered `authenticate_client` leaves its order in. -/
theorem state?_boundStore {env : Env σ} {st : SqliteStore} {order : Order} {session : σ}
    (hrow : st.orders.row? order.id = some order.toRow) (hfaults : env.faults = StoreFaults.none) :
    (boundStore env st order session).state? order.id = some OrderState.bound.asStr := by
  refine (SqliteStore.state?_written
    (SqliteStore.state?_remember _ _ _ _ (SqliteStore.state?_of_row? hrow))).mpr (.inl ?_)
  rw [hfaults]
  rfl

/-- A step after which every bound order is known met the condition. -/
theorem KnowsWho.of_post (hs' : BoundOrdersKnown s'.store) (htyped' : s'.store.Typed)
    (step : Serving config s x s') (hfaults : x.input.faults = StoreFaults.none) :
    KnowsWho s x := by
  -- in each case the step leaves its order bound or downloaded, so known, and knew it
  have hknown : ∀ {i : Int} {state : OrderState}, state = .bound ∨ state = .downloaded →
      s'.store.state? i = some state.asStr → Known s'.store i := by
    intro i state hstate hi
    obtain ⟨r, hr, hr'⟩ := Option.map_eq_some_iff.mp hi
    obtain ⟨o, rfl⟩ := htyped' _ _ hr
    have hid : o.toRow.id = i := Table.key_of_row? hr
    change o.id = i at hid
    subst hid
    obtain rfl : o.state = state := by simpa [Order.toRow] using hr'
    exact (known_of_row hr).mpr (hs' o hr hstate)
  have htaken : ∀ c, x.input.faults c = none := by
    intro c
    rw [hfaults]
    rfl
  constructor
  · intro i session haccepts
    obtain ⟨order, rfl, hrow, hstore⟩ := haccepts.store step
    have hstate : (boundStore x.input s.store order session).state? order.id
        = some OrderState.bound.asStr := state?_boundStore hrow hfaults
    rw [← hstore] at hstate
    have hi := hknown (.inl rfl) hstate
    rw [hstore] at hi
    exact (known_boundStore hrow hfaults).mp hi
  · rintro i ⟨entry, hasks⟩
    have hands : HandsOut s x i := ⟨entry, (handsOutOver_iff step).mpr hasks⟩
    obtain ⟨order, hrow⟩ := hands.row
    have hstate : (s.store.after x.input.faults (.setState i .downloaded)).state? i
        = some OrderState.downloaded.asStr :=
      (SqliteStore.state?_written (SqliteStore.state?_of_row? hrow)).mpr (.inl (htaken _))
    rw [← hands.store step] at hstate
    have hi := hknown (.inr rfl) hstate
    rw [hands.store step] at hi
    exact (known_after_setState (by simp [hrow])).mp hi
  · rintro i v ⟨req, o, command, hmatched, rfl, hverified, hresult⟩ hinstalled
    obtain ⟨_, rfl⟩ := serving_handleNotification step command
    have hrow := matchedOrder_row hmatched
    have horders := orders_notified hmatched hverified hresult
    have hverdict : v.verdict = .downloaded := if_pos hinstalled
    rw [hverdict] at horders
    have hstate : (s.store.after x.input.faults (.setState o.id .downloaded)).state? o.id
        = some OrderState.downloaded.asStr :=
      (SqliteStore.state?_written (SqliteStore.state?_of_row? hrow)).mpr (.inl (htaken _))
    have hi := hknown (.inr rfl) ((state?_congr horders o.id).trans hstate)
    rw [known_congr horders] at hi
    exact (known_after_setState (by simp [hrow])).mp hi

/-! ## Whole runs -/

/-- **Every bound order knows its eUICC, all along a run, exactly if every step that binds an
order, hands it out or hears that it is installed is about an eUICC that is known.** Induction
on the run. -/
theorem boundOrdersKnown_iff (run : ServerRun config h s) (hfaults : NoFaults h) :
    (∀ x ∈ h, BoundOrdersKnown x.post.store) ↔ ∀ x ∈ h, KnowsWho x.pre x.label := by
  constructor
  · intro hposts x hx
    obtain ⟨⟨_, before⟩, step⟩ := run.of_mem hx
    exact .of_post (hposts x hx) (run_typed (before.snoc step)) step (hfaults x hx)
  · intro hsteps
    -- the store the run ends with carries the induction
    suffices (∀ x ∈ h, BoundOrdersKnown x.post.store) ∧ BoundOrdersKnown s.store from this.1
    induction run with
    | nil =>
      refine ⟨by simp, ?_⟩
      intro o ho
      cases ho
    | @snoc h s s' x run step ih =>
      obtain ⟨hposts, hs⟩ := ih (fun y hy => hfaults y (by simp [hy]))
        (fun y hy => hsteps y (by simp [hy]))
      have hs' : BoundOrdersKnown s'.store :=
        hs.step (run_typed run) (hsteps ⟨s, x, s'⟩ (by simp)) step (hfaults ⟨s, x, s'⟩ (by simp))
      refine ⟨?_, hs'⟩
      intro y hy
      rcases List.mem_append.mp hy with hy | hy
      · exact hposts y hy
      · obtain rfl := List.mem_singleton.mp hy
        exact hs'

/-- An eUICC whose EID is not UTF-8 authenticates. -/
def noEid : List (Command × Env Bytes) :=
  [(addProfile 7 "A", .echo 0), (initiate, .echo 1), (authenticate 1 [255], .echo 0)]

theorem noEid_noFaults : NoFaults (echoed noEid) := noFaults_echoed (by simp [noEid, Env.echo])

theorem boundOrdersKnown_iff_noEid :
    (∀ x ∈ echoed noEid, BoundOrdersKnown x.post.store)
      ↔ ∀ x ∈ echoed noEid, KnowsWho x.pre x.label :=
  boundOrdersKnown_iff (run_echoed noEid) noEid_noFaults

/-- The order is bound, and knows neither. -/
theorem bound_unknown :
    ¬ ∀ (config : ServerConfig) (h : List (Step (AppState Bytes) (Event Bytes)))
        (s : AppState Bytes), ServerRun config h s → NoFaults h → BoundOrdersKnown s.store := by
  intro hall
  have hknown := hall _ _ _ (run_echoed noEid) noEid_noFaults
  let bound : Order :=
    { id := 1, matchingId := "A", iccid := ⟨List.replicate 10 7, rfl⟩, upp := [7],
      metadata := [0xbf, 0x25, 0x0c, 0x5a, 0x0a] ++ List.replicate 10 7, state := .bound,
      eid := none, euiccCert := none }
  have hrow : (echoedState noEid).store.orders.row? bound.id = some bound.toRow := by decide
  exact absurd (hknown bound hrow (.inl rfl)).1 (by decide)

end Smdp
