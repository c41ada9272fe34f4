import Smdp.Server.Step

/-!
# Smdp — no order is stranded or settled without cause

The state of an order is explained by what happened to it since it was added or last reset
(`Since`). If it is `Downloaded` it was handed out or reported installed, if it is `Failed` its
eUICC reported so and the report is on file, and if none of that happened it is still on offer,
however many requests failed (`settled_for_cause`).
-/

namespace Smdp

open Interaction Rowid

variable {σ : Type} {config : ServerConfig} {s s' : AppState σ} {x : Event σ} {i : Int}
  {h recent : List (Step (AppState σ) (Event σ))}

/-! ## What happened since -/

/-- `recent` is what happened since order `i` was added or last reset. -/
def Since (h recent : List (Step (AppState σ) (Event σ))) (i : Int) : Prop :=
  ∃ before x, h = before ++ x :: recent ∧ (Adds x.label i ∨ Resets x.label i)
    ∧ ∀ y ∈ recent, ¬ Adds y.label i ∧ ¬ Resets y.label i

/-- Where order `o` stands is explained by what is in `recent`. -/
structure ForCause (recent : List (Step (AppState σ) (Event σ))) (st : SqliteStore)
    (o : Order) : Prop where
  downloaded : o.state = .downloaded → ∃ x ∈ recent, HandsOut x.pre x.label o.id
    ∨ ∃ v, Reports x.pre x.label o.id v ∧ v.installed = true
  failed : o.state = .failed →
    (∃ x ∈ recent, ∃ v, Reports x.pre x.label o.id v ∧ v.installed = false)
      ∧ ∃ n ∈ st.listNotifications, n.orderId = some o.id ∧ n.verified = true
          ∧ n.installed = some false
  offered : (∀ x ∈ recent, ¬ HandsOut x.pre x.label o.id ∧ ∀ v, ¬ Reports x.pre x.label o.id v) →
    o.state.Offered

theorem Since.start {y : Step (AppState σ) (Event σ)}
    (hy : Adds y.label i ∨ Resets y.label i) : Since (h ++ [y]) [] i :=
  ⟨h, y, rfl, hy, by simp⟩

/-- What happened since goes on as long as nothing puts the order on offer again. -/
theorem Since.snoc {y : Step (AppState σ) (Event σ)} (hsince : Since h recent i)
    (hadds : ¬ Adds y.label i) (hresets : ¬ Resets y.label i) :
    Since (h ++ [y]) (recent ++ [y]) i := by
  obtain ⟨before, x, rfl, hx, hquiet⟩ := hsince
  refine ⟨before, x, by simp, hx, ?_⟩
  intro z hz
  rcases List.mem_append.mp hz with hz | hz
  · exact hquiet z hz
  · obtain rfl := List.mem_singleton.mp hz
    exact ⟨hadds, hresets⟩

/-! ## One step -/

/-- The order an `order add` returns was not there. -/
theorem Adds.absent (hx : Adds x i) (step : Serving config s x s') :
    s.store.orders.row? i = none := by
  obtain ⟨args, o, command, answer, rfl⟩ := hx
  cases serving_cases step with
  | orderAdd _ answer' exit =>
    obtain rfl := Answer.added.inj (answer.symm.trans answer')
    cases exit with
    | added _ _ _ inserted =>
      rw [SqliteStore.id_of_addOrder inserted]
      exact Table.row?_nextKey _
  | initiateAuthentication command' | authenticateClient command'
  | getBoundProfilePackage command' | handleNotification command' | orderReset command'
  | look command' =>
    simp [command] at command'

/-- An `order reset` that went through made the order available. -/
theorem Resets.state {txt : String} (hx : Resets x i) (step : Serving config s x s')
    (hi : s.store.state? i = some txt) :
    s'.store.state? i = some OrderState.available.asStr := by
  obtain ⟨command, answer⟩ := hx
  cases serving_cases step with
  | orderReset command' answer' exit =>
    obtain rfl : i = _ := by simpa [command] using command'
    obtain rfl := Answer.reset.inj (answer.symm.trans answer')
    cases exit with
    | reset unfaulted =>
      exact (SqliteStore.state?_written hi).mpr (.inl unfaulted)
  | initiateAuthentication command' | authenticateClient command'
  | getBoundProfilePackage command' | handleNotification command' | orderAdd command'
  | look command' =>
    simp [command] at command'

/-- A verified report of order `i` that says it could not be installed is on file. -/
def RefusalKept (st : SqliteStore) (i : Int) : Prop :=
  ∃ row ∈ st.notifications.rows, row.orderId = some i ∧ row.verified = 1
    ∧ row.installed = some 0

theorem RefusalKept.kept (hi : RefusalKept s.store i) (step : Serving config s x s') :
    RefusalKept s'.store i := by
  obtain ⟨row, hrow, hfields⟩ := hi
  refine ⟨row, ?_, hfields⟩
  exact serving_store (fun st => row ∈ st.notifications.rows)
    (fun faults c st hst => SqliteStore.mem_notifications_after faults c hst) step hrow

theorem RefusalKept.listed {st : SqliteStore} (hi : RefusalKept st i) :
    ∃ n ∈ st.listNotifications, n.orderId = some i ∧ n.verified = true
      ∧ n.installed = some false := by
  obtain ⟨row, hrow, horder, hverified, hinstalled⟩ := hi
  refine ⟨rowToNotification row, List.mem_map_of_mem hrow, horder, ?_, ?_⟩
  · simp [rowToNotification, hverified]
  · simp [rowToNotification, hinstalled]

/-- Such a report is recorded before it moves its order. -/
theorem Reports.refusalKept {v : Notification} (hx : Reports s x i v)
    (step : Serving config s x s') (hfaults : x.input.faults = StoreFaults.none)
    (hrefused : v.installed = false) : RefusalKept s'.store i := by
  obtain ⟨req, o, command, hmatched, rfl, hverified, hresult⟩ := hx
  obtain ⟨_, rfl⟩ := serving_handleNotification step command
  have hm : (verifiedAs x.input s.store req.pendingNotification).or
      (x.input.library.notificationMetadata req.pendingNotification).toOption = some v := by
    rw [hverified]
    rfl
  have hrows := s.store.rows_after_recordNotification x.input.faults
    (toRecord (some v) v (some o) req.pendingNotification)
  have htaken : x.input.faults (.recordNotification
      (toRecord (some v) v (some o) req.pendingNotification)) = none := by
    rw [hfaults]
    rfl
  rw [if_pos htaken] at hrows
  refine ⟨(toRecord (some v) v (some o) req.pendingNotification).toRow
    s.store.notifications.nextKey, ?_, rfl, rfl, ?_⟩
  · show _ ∈ (notifiedStore x.input s.store req.pendingNotification).notifications.rows
    rw [notifications_notified hm, hmatched, hverified, hrows]
    exact List.mem_append_right _ (List.mem_singleton.mpr rfl)
  · simp [NewNotification.toRow, toRecord, hresult, hrefused]

/-! ## Whole runs -/

/-- Why an order stands where it does: still on offer, or settled by one of the three events. -/
inductive Explains (recent : List (Step (AppState σ) (Event σ))) (st : SqliteStore) (i : Int) :
    OrderState → Prop where
  | offered {state} (offered : state.Offered) : Explains recent st i state
  | handedOut {y} (mem : y ∈ recent) (hands : HandsOut y.pre y.label i) :
      Explains recent st i .downloaded
  | installed {y v} (mem : y ∈ recent) (reports : Reports y.pre y.label i v)
      (installed : v.installed = true) : Explains recent st i .downloaded
  | refused {y v} (mem : y ∈ recent) (reports : Reports y.pre y.label i v)
      (refused : v.installed = false) (kept : RefusalKept st i) : Explains recent st i .failed

/-- An explanation stands while the state does. -/
theorem Explains.snoc {state : OrderState} (hexplains : Explains recent s.store i state)
    (step : Serving config s x s') : Explains (recent ++ [⟨s, x, s'⟩]) s'.store i state := by
  cases hexplains with
  | offered offered => exact .offered offered
  | handedOut mem hands => exact .handedOut (List.mem_append_left _ mem) hands
  | installed mem reports installed =>
    exact .installed (List.mem_append_left _ mem) reports installed
  | refused mem reports refused kept =>
    exact .refused (List.mem_append_left _ mem) reports refused (kept.kept step)

/-- A step that does not reset the order leaves it where its past, and the step itself,
explain. -/
theorem explains_step {state state' : OrderState} (hexplains : Explains recent s.store i state)
    (hi : s.store.state? i = some state.asStr) (hi' : s'.store.state? i = some state'.asStr)
    (step : Serving config s x s') (hfaults : x.input.faults = StoreFaults.none)
    (hx : ¬ Resets x i) : Explains (recent ++ [⟨s, x, s'⟩]) s'.store i state' := by
  have hlast : (⟨s, x, s'⟩ : Step (AppState σ) (Event σ)) ∈ recent ++ [⟨s, x, s'⟩] := by simp
  have hsame : ∀ {state'' : OrderState}, s'.store.state? i = some state''.asStr →
      state' = state'' := by
    intro state'' h
    simpa using hi'.symm.trans h
  cases serving_state step hi with
  | kept kept =>
    rw [hsame kept]
    exact hexplains.snoc step
  | bound _ _ bound =>
    rw [hsame bound]
    exact .offered (.inr rfl)
  | downloaded hands downloaded =>
    rw [hsame downloaded]
    exact .handedOut hlast hands
  | @reported v reports reported =>
    rw [hsame reported]
    unfold Notification.verdict
    cases hinstalled : v.installed with
    | true => exact .installed hlast reports hinstalled
    | false =>
      exact .refused hlast reports hinstalled (reports.refusalKept step hfaults hinstalled)
  | reset resets => exact absurd resets hx

/-- **Every order of a run is explained.** Induction on the run: a step adds the order, resets
it, or adds itself to what happened since. -/
theorem explained_of_run (run : ServerRun config h s) (hfaults : NoFaults h) {state : OrderState}
    (hi : s.store.state? i = some state.asStr) :
    ∃ recent, Since h recent i ∧ Explains recent s.store i state := by
  induction run generalizing state with
  | nil => cases hi
  | @snoc h s s' x run step ih =>
    cases hbefore : s.store.state? i with
    | none =>
      -- not there before, so this step added it
      rcases serving_appears step (Option.map_eq_none_iff.mp hbefore) with hnone | ⟨hadds, new, hrow⟩
      · rw [SqliteStore.state?, hnone] at hi
        cases hi
      · have hstate := (SqliteStore.state?_of_row? hrow).symm.trans hi
        obtain rfl : OrderState.available = state := OrderState.asStr_injective (Option.some.inj hstate)
        exact ⟨[], .start (.inl hadds), .offered (.inl rfl)⟩
    | some txt =>
      by_cases hresets : Resets x i
      · have hstate := (hresets.state step hbefore).symm.trans hi
        obtain rfl : OrderState.available = state := OrderState.asStr_injective (Option.some.inj hstate)
        exact ⟨[], .start (.inr hresets), .offered (.inl rfl)⟩
      · obtain ⟨before, hbefore'⟩ := (run_typed run).state hbefore
        rw [hbefore'] at hbefore
        obtain ⟨recent, hsince, hexplains⟩ := ih (fun y hy => hfaults y (by simp [hy])) hbefore
        -- an id is given out once, so an order that is there is not added
        have hadds : ¬ Adds x i := by
          intro hadds
          rw [SqliteStore.state?, hadds.absent step] at hbefore
          cases hbefore
        exact ⟨recent ++ [⟨s, x, s'⟩], hsince.snoc hadds hresets,
          explains_step hexplains hbefore hi step (hfaults ⟨s, x, s'⟩ (by simp)) hresets⟩

/-- **No order is stranded or settled without cause.** What explains the state of an order is
carried along the run from where it was last on offer: a step that leaves the state keeps the
explanation, one that changes it is the new one, and a reset starts over with none needed. -/
theorem settled_for_cause (run : ServerRun config h s) (hfaults : NoFaults h) {o : Order}
    (ho : s.store.orders.row? o.id = some o.toRow) :
    ∃ recent, Since h recent o.id ∧ ForCause recent s.store o := by
  obtain ⟨recent, hsince, hexplains⟩ :=
    explained_of_run run hfaults (SqliteStore.state?_of_row? ho)
  refine ⟨recent, hsince, ?_, ?_, ?_⟩
  · intro hstate
    rw [hstate] at hexplains
    cases hexplains with
    | offered offered => exact absurd offered (by decide)
    | handedOut mem hands => exact ⟨_, mem, .inl hands⟩
    | installed mem reports installed => exact ⟨_, mem, .inr ⟨_, reports, installed⟩⟩
  · intro hstate
    rw [hstate] at hexplains
    cases hexplains with
    | offered offered => exact absurd offered (by decide)
    | refused mem reports refused kept =>
      exact ⟨⟨_, mem, _, reports, refused⟩, kept.listed⟩
  · intro hquiet
    generalize o.state = state at hexplains
    cases hexplains with
    | offered offered => exact offered
    | handedOut mem hands => exact absurd hands (hquiet _ mem).1
    | installed mem reports | refused mem reports => exact absurd reports ((hquiet _ mem).2 _)

/-- An order that `A` downloads, and then reports that it could not install. -/
def downloadRefused : List (Command × Env Bytes) :=
  [(addProfile 7 "A", .echo 0), (initiate, .echo 1), (authenticate 1 [65], .echo 0),
   (download 1, .echo 0), (.handleNotification ⟨[65, 1, 0] ++ List.replicate 10 7⟩, .echo 0)]

/-- How that order stands. -/
def refusedOrder : Order where
  id := 1
  matchingId := "A"
  iccid := iccidOf 7
  upp := [7]
  metadata := [0xbf, 0x25, 0x0c, 0x5a, 0x0a] ++ List.replicate 10 7
  state := .failed
  eid := some "A"
  euiccCert := some [65]

theorem settled_for_cause_downloadRefused :
    ∃ recent, Since (echoed downloadRefused) recent 1
      ∧ ForCause recent (echoedState downloadRefused).store refusedOrder :=
  have hrow : (echoedState downloadRefused).store.orders.row? refusedOrder.id
      = some refusedOrder.toRow := by decide
  settled_for_cause (run_echoed downloadRefused)
    (noFaults_echoed (by simp [downloadRefused, Env.echo])) hrow

end Smdp
