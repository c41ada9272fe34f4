import Smdp.Server.Step

/-!
# Smdp — everything that arrives is kept

`handle_notification` answers 204 to everything, and the LPA then deletes the only other
copy. It keeps what it could read: a notification whose metadata does not read and that does
not verify either is answered 204 and left out (`arrived_lost`). That is the only loss, and
nothing else ever touches a notification (`kept_iff_readable`).
-/

namespace Smdp

open Interaction

variable {σ : Type} {config : ServerConfig} {s s' : AppState σ}
  {h : List (Step (AppState σ) (Event σ))}

/-! ## What arrives and what is kept -/

/-- The notification a step delivers. -/
def deliveredBy (x : Step (AppState σ) (Event σ)) : Option Bytes :=
  match x.label.command with
  | .handleNotification req => some req.pendingNotification
  | _ => none

/-- The notifications delivered over a run, in order. -/
def arrived (h : List (Step (AppState σ) (Event σ))) : List Bytes := h.filterMap deliveredBy

/-- The `raw` column, in the order of the table. -/
def SqliteStore.raws (st : SqliteStore) : List Bytes :=
  st.notifications.rows.map NotificationRow.raw

/-- Everything that arrived over the run was kept, and only that. -/
structure EverythingKept (h : List (Step (AppState σ) (Event σ))) (s : AppState σ) : Prop where
  /-- A delivery is answered 204 and adds one row, which holds it byte for byte. -/
  delivery : ∀ x ∈ h, ∀ req, x.label.command = .handleNotification req →
    x.label.answer = .http noContent ∧ ∃ row,
      x.post.store.notifications.rows = x.pre.store.notifications.rows ++ [row]
        ∧ row.raw = req.pendingNotification
  /-- No other command removes or alters a row. -/
  other : ∀ x ∈ h, (∀ req, x.label.command ≠ .handleNotification req) →
    x.post.store.notifications = x.pre.store.notifications
  /-- So the column is the sequence of what arrived. -/
  column : s.store.raws = arrived h

/-- The library makes something of a notification: its metadata read, or it verifies with no
certificate to check it against. -/
def Readable (lib : Library σ) (raw : Bytes) : Prop :=
  (∃ n, lib.notificationMetadata raw = .ok n) ∨ ∃ n, lib.verifyNotification none raw = .ok n

/-- Everything that arrives over the run is readable. -/
def AllReadable (h : List (Step (AppState σ) (Event σ))) : Prop :=
  ∀ x ∈ h, ∀ req, x.label.command = .handleNotification req →
    Readable x.label.input.library req.pendingNotification

/-! ## One delivery -/

/-- Something is made of a notification exactly when it is readable. Without metadata there
is no ICCID, so no order and no certificate either. -/
theorem readable_iff (env : Env σ) (st : SqliteStore) (raw : Bytes) :
    Readable env.library raw
      ↔ ∃ m, (verifiedAs env st raw).or (env.library.notificationMetadata raw).toOption = some m := by
  cases hmeta : env.library.notificationMetadata raw with
  | ok n =>
    have hreadable : Readable env.library raw := .inl ⟨n, hmeta⟩
    refine iff_of_true hreadable ?_
    cases verifiedAs env st raw with
    | some v => exact ⟨v, rfl⟩
    | none => exact ⟨n, rfl⟩
  | error e =>
    have hunmatched : matchedOrder env st raw = none := by
      unfold matchedOrder
      rw [hmeta]
      rfl
    have hverified : verifiedAs env st raw = (env.library.verifyNotification none raw).toOption := by
      unfold verifiedAs
      rw [hunmatched]
      rfl
    rw [hverified]
    unfold Readable
    rw [hmeta]
    cases env.library.verifyNotification none raw with
    | ok v => exact iff_of_true (.inr ⟨v, rfl⟩) ⟨v, rfl⟩
    | error e' =>
      refine iff_of_false ?_ ?_
      · rintro (⟨_, h⟩ | ⟨_, h⟩) <;> cases h
      · rintro ⟨_, h⟩
        cases h

/-- A delivery adds its row exactly when it is readable. -/
theorem delivery_iff {x : Event σ} (step : Serving config s x s')
    (hfaults : x.input.faults = StoreFaults.none) {req : HandleNotificationRequest}
    (hx : x.command = .handleNotification req) :
    (x.answer = .http noContent ∧ ∃ row,
        s'.store.notifications.rows = s.store.notifications.rows ++ [row]
          ∧ row.raw = req.pendingNotification)
      ↔ Readable x.input.library req.pendingNotification := by
  obtain ⟨hanswer, rfl⟩ := serving_handleNotification step hx
  rw [readable_iff x.input s.store]
  show (_ ∧ ∃ row, (notifiedStore x.input s.store req.pendingNotification).notifications.rows
    = _ ++ [row] ∧ _) ↔ _
  cases hmade : (verifiedAs x.input s.store req.pendingNotification).or
      (x.input.library.notificationMetadata req.pendingNotification).toOption with
  | none =>
    rw [notifications_notified_of_none hmade]
    refine iff_of_false ?_ ?_
    · rintro ⟨_, row, hrow, _⟩
      simp at hrow
    · rintro ⟨_, h⟩
      cases h
  | some m =>
    rw [notifications_notified hmade, SqliteStore.rows_after_recordNotification, hfaults]
    exact iff_of_true ⟨hanswer, _, rfl, rfl⟩ ⟨m, rfl⟩

/-! ## Whole runs -/

/-- What was kept so far and what a step adds to it. -/
theorem column_of_steps (run : ServerRun config h s) (hfaults : NoFaults h)
    (hreadable : AllReadable h) : s.store.raws = arrived h := by
  induction run with
  | nil => rfl
  | @snoc h s s' x run step ih =>
    have hprev := ih (fun y hy => hfaults y (by simp [hy])) fun y hy => hreadable y (by simp [hy])
    have harrived : arrived (h ++ [⟨s, x, s'⟩])
        = arrived h ++ (deliveredBy ⟨s, x, s'⟩).toList := by
      unfold arrived
      rw [List.filterMap_append]
      cases hd : deliveredBy ⟨s, x, s'⟩ <;> simp [hd]
    rw [harrived, ← hprev]
    unfold SqliteStore.raws
    by_cases hx : ∃ req, x.command = .handleNotification req
    · -- a delivery, which adds its row
      obtain ⟨req, hcommand⟩ := hx
      have hread := hreadable ⟨s, x, s'⟩ (by simp) req hcommand
      obtain ⟨_, row, hrows, hraw⟩ :=
        (delivery_iff step (hfaults ⟨s, x, s'⟩ (by simp)) hcommand).mpr hread
      have hdelivered : deliveredBy ⟨s, x, s'⟩ = some req.pendingNotification := by
        unfold deliveredBy
        rw [hcommand]
      rw [hrows, hdelivered, List.map_append, ← hraw]
      rfl
    · -- anything else leaves the table alone
      have hother : ∀ req, x.command ≠ .handleNotification req := fun req h => hx ⟨req, h⟩
      have hdelivered : deliveredBy ⟨s, x, s'⟩ = none := by
        unfold deliveredBy
        split
        · rename_i req hcommand
          exact absurd hcommand (hother req)
        · rfl
      rw [serving_notifications step hother, hdelivered]
      simp

/-- **Everything that arrives is kept exactly when everything that arrives is readable.** One
delivery at a time: a row more is there if and only if the notification verified or its metadata
could be read. No other step touches the table, so the whole run is the sum of its deliveries. -/
theorem kept_iff_readable (run : ServerRun config h s) (hfaults : NoFaults h) :
    EverythingKept h s ↔ AllReadable h := by
  have steps : ∀ x ∈ h, Serving config x.pre x.label x.post := fun x hx => (run.of_mem hx).2
  constructor
  · intro hkept x hx req hcommand
    exact (delivery_iff (steps x hx) (hfaults x hx) hcommand).mp (hkept.delivery x hx req hcommand)
  · intro hreadable
    refine ⟨?_, ?_, column_of_steps run hfaults hreadable⟩
    · intro x hx req hcommand
      exact (delivery_iff (steps x hx) (hfaults x hx) hcommand).mpr (hreadable x hx req hcommand)
    · intro x hx hother
      exact serving_notifications (steps x hx) hother

/-- A notification too short to read. -/
def unreadable : List (Command × Env Bytes) :=
  [(addProfile 7 "A", .echo 0), (.handleNotification ⟨[1]⟩, .echo 0)]

theorem unreadable_noFaults : NoFaults (echoed unreadable) :=
  noFaults_echoed (by simp [unreadable, Env.echo])

theorem kept_iff_readable_unreadable :
    EverythingKept (echoed unreadable) (echoedState unreadable)
      ↔ AllReadable (echoed unreadable) :=
  kept_iff_readable (run_echoed unreadable) unreadable_noFaults

/-- It is answered 204, and nothing is kept. -/
theorem arrived_lost :
    ¬ ∀ (config : ServerConfig) (h : List (Step (AppState Bytes) (Event Bytes)))
        (s : AppState Bytes), ServerRun config h s → NoFaults h → EverythingKept h s := by
  intro hall
  have hkept := hall _ _ _ (run_echoed unreadable) unreadable_noFaults
  have hcolumn := hkept.column
  have harrived : arrived (echoed unreadable) = [[1]] := rfl
  rw [harrived] at hcolumn
  exact absurd hcolumn (by decide)

end Smdp
