import Smdp.Server.Step

/-!
# Smdp — what a report moves

`seq_number` is stored and never compared. A verified installation result sets the order it
is matched to, whatever was processed before, so an old one delivered again after a reset
takes the order off offer (`stale_report_moves`). What holds instead (`reports_in_order`):
the report delivered last wins, it moves no other order, and delivering a report again
changes nothing as long as its order was not reset, handed out or reported otherwise since.
-/

namespace Smdp

open Interaction

variable {σ : Type} {config : ServerConfig} {s s' : AppState σ}
  {h : List (Step (AppState σ) (Event σ))}

/-- The store takes what a report writes to order `i`. -/
def Taken (x : Event σ) (i : Int) (v : Notification) : Prop :=
  x.input.faults (.setState i v.verdict) = none

instance (x : Event σ) (i : Int) (v : Notification) : Decidable (Taken x i v) := by
  unfold Taken
  infer_instance

/-- A report the store takes leaves its order as it says, and no report moves another order. -/
def LastDeliveredWins (h : List (Step (AppState σ) (Event σ))) : Prop :=
  ∀ x ∈ h, ∀ i v, Reports x.pre x.label i v →
    (Taken x.label i v → x.post.store.state? i = some v.verdict.asStr)
      ∧ ∀ j, j ≠ i → x.post.store.state? j = x.pre.store.state? j

/-- A step moves order `i` away from `state`, or could: a reset, a hand-out, or a report that
says otherwise. -/
def Disturbs (x : Step (AppState σ) (Event σ)) (i : Int) (state : OrderState) : Prop :=
  Resets x.label i ∨ (HandsOut x.pre x.label i ∧ state ≠ .downloaded)
    ∨ ∃ w, Reports x.pre x.label i w ∧ w.verdict ≠ state

/-- A report that says what an earlier one said, which the store took, changes no order's
state, if nothing disturbed its order in between. -/
def RedeliveryIdle (h : List (Step (AppState σ) (Event σ))) : Prop :=
  ∀ pre x mid y post i v w, h = pre ++ x :: (mid ++ y :: post) → Reports x.pre x.label i v →
    Taken x.label i v → Reports y.pre y.label i w → w.verdict = v.verdict →
    (∀ z ∈ mid, ¬ Disturbs z i v.verdict) →
    ∀ j, y.post.store.state? j = y.pre.store.state? j

/-! ## One report -/

/-- **What a report does to the state column.** -/
theorem Reports.state {x : Event σ} {i : Int} {v : Notification} (hx : Reports s x i v)
    (step : Serving config s x s') (j : Int) :
    s'.store.state? j
      = if j = i ∧ Taken x i v then some v.verdict.asStr else s.store.state? j := by
  obtain ⟨req, o, command, hmatched, rfl, hverified, hresult⟩ := hx
  obtain ⟨_, rfl⟩ := serving_handleNotification step command
  have hthere := SqliteStore.state?_of_row? (matchedOrder_row hmatched)
  show ((notifiedStore x.input s.store req.pendingNotification).orders.row? j).map _ = _
  rw [orders_notified hmatched hverified hresult]
  show (s.store.after x.input.faults (.setState o.id v.verdict)).state? j = _
  rw [SqliteStore.state?_after_setState]
  unfold Taken
  by_cases hj : j = o.id
  · rw [hj, hthere]
    rfl
  · rw [if_neg fun h => hj h.1, if_neg fun h => hj h.1]

/-- An order stays as it was reported until something disturbs it. It is settled, so no
`authenticate_client` can bind it. -/
theorem reported_kept {x : Event σ} {i : Int} {v : Notification}
    (hi : s.store.state? i = some v.verdict.asStr) (step : Serving config s x s')
    (hx : ¬ Disturbs ⟨s, x, s'⟩ i v.verdict) : s'.store.state? i = some v.verdict.asStr := by
  have hsettled : s.store.Settled i := ⟨v.verdict, v.verdict_not_offered, hi⟩
  cases serving_state step hi with
  | kept state => exact state
  | bound _ offered => exact absurd offered hsettled.not_onOffer
  | downloaded hands state =>
    by_cases hsame : v.verdict = .downloaded
    · rw [state, hsame]
    · exact absurd (.inr (.inl ⟨hands, hsame⟩)) hx
  | @reported w reports state =>
    by_cases hsame : w.verdict = v.verdict
    · rw [state, hsame]
    · exact absurd (.inr (.inr ⟨w, reports, hsame⟩)) hx
  | reset resets => exact absurd (.inl resets) hx

/-! ## Whole runs -/

/-- Each report that is taken stands, whatever was reported before it: nothing looks at the number
it carries. -/
theorem lastDeliveredWins (run : ServerRun config h s) : LastDeliveredWins h := by
  intro x hx i v hreports
  have step := (run.of_mem hx).2
  constructor
  · intro htaken
    rw [hreports.state step, if_pos ⟨rfl, htaken⟩]
  · intro j hj
    rw [hreports.state step, if_neg fun h => hj h.1]

/-- Taking the same report again moves nothing, if nothing else did in between. -/
theorem redeliveryIdle (run : ServerRun config h s) : RedeliveryIdle h := by
  rintro pre x mid y post i v w rfl hx htaken hy hsame hquiet j
  obtain ⟨_, stepx, rest⟩ := run.split
  obtain ⟨middle, stepy, _⟩ := rest.split
  -- the order stands where the first report put it
  have hafter : x.post.store.state? i = some v.verdict.asStr := by
    rw [hx.state stepx, if_pos ⟨rfl, htaken⟩]
  have hbefore : y.pre.store.state? i = some v.verdict.asStr :=
    middle.unless (P := fun s => s.store.state? i = some v.verdict.asStr)
      (Q := fun z => Disturbs z i v.verdict) (fun z _ step hz hquiet => reported_kept hz step hquiet)
      hafter hquiet
  -- and the second one puts it there again, if the store takes it
  rw [hy.state stepy]
  split
  · rename_i hwrite
    rw [hwrite.1, hbefore, hsame]
  · rfl

/-- **The report delivered last wins, and a repeated one is idle until its order is disturbed.** No
sequence number enters: a report is stored with its number, and the number is read by nothing. -/
theorem reports_in_order (run : ServerRun config h s) : LastDeliveredWins h ∧ RedeliveryIdle h :=
  ⟨lastDeliveredWins run, redeliveryIdle run⟩

/-- `A` reports that Profile 7 is installed, with the sequence number 1. -/
def reportInstalled : Command := .handleNotification ⟨[65, 1, 1] ++ List.replicate 10 7⟩

/-- A download that is reported, an `order reset`, and the report again. -/
def reportedAgain : List (Command × Env Bytes) :=
  [(addProfile 7 "A", .echo 0), (initiate, .echo 1), (authenticate 1 [65], .echo 0),
   (download 1, .echo 0), (reportInstalled, .echo 0), (.orderReset 1, .echo 0),
   (reportInstalled, .echo 0)]

theorem reports_in_order_reportedAgain :
    LastDeliveredWins (echoed reportedAgain) ∧ RedeliveryIdle (echoed reportedAgain) :=
  reports_in_order (run_echoed reportedAgain)

theorem reportedAgain_noFaults : NoFaults (echoed reportedAgain) :=
  noFaults_echoed (by simp [reportedAgain, Env.echo])

/-- A report no newer than one of the same eUICC for the same order changes no order's
state. -/
def StaleIdle (h : List (Step (AppState σ) (Event σ))) : Prop :=
  ∀ pre x mid y post i v w, h = pre ++ x :: (mid ++ y :: post) → Reports x.pre x.label i v →
    Reports y.pre y.label i w → y.pre.store.euicc? i = x.pre.store.euicc? i →
    w.seqNumber ≤ v.seqNumber → ∀ j, y.post.store.state? j = y.pre.store.state? j

/-- The report takes the order it was reset to offer off again. -/
theorem stale_report_moves :
    ¬ ∀ (config : ServerConfig) (h : List (Step (AppState Bytes) (Event Bytes)))
        (s : AppState Bytes), ServerRun config h s → NoFaults h → StaleIdle h := by
  intro hall
  have hidle := hall _ _ _ (run_echoed reportedAgain) reportedAgain_noFaults
  have hkept := hidle ((echoed reportedAgain).take 4) ((echoed reportedAgain)[4])
    [(echoed reportedAgain)[5]] ((echoed reportedAgain)[6]) [] 1 _ _ rfl
    ⟨_, _, rfl, rfl, rfl, rfl, rfl⟩ ⟨_, _, rfl, rfl, rfl, rfl, rfl⟩ rfl (Int.le_refl _) 1
  have hbefore : ((echoed reportedAgain)[6]).pre.store.state? 1
      = some OrderState.available.asStr := by decide
  have hafter : ((echoed reportedAgain)[6]).post.store.state? 1
      = some OrderState.downloaded.asStr := by decide
  exact absurd (hafter.symm.trans (hkept.trans hbefore)) (by decide)

end Smdp
