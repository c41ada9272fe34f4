import Smdp.Laws.Account
import Smdp.Laws.Migration

/-!
# Smdp — an upgrade loses nothing, for good

A server is started on a database that an older version wrote. If opening it succeeds, and it is
not of one of the shapes that opening misses, then what was in it is there after every history of
the new server: each order as the Profile it was, each notification with its columns, counted as
verified or not as it was (`upgrade_keeps`).
-/

namespace Smdp

open Interaction Rowid

variable {db : Db}

/-- A new process on the database `st`. -/
def AppState.started {σ : Type} (st : SqliteStore) : AppState σ := ⟨st, Sessions.empty⟩

/-- **An upgrade loses nothing.** The store behind a database of an older version that was opened
holds what the database held, and so does the store after every history of the processes that
serve it, however their requests are interleaved and wherever they end. -/
theorem upgrade_keeps (σ : Type) (config : ServerConfig) (hscope : InScope db)
    (hshape : ¬ MissedShape db) (hopen : db.open.1 = .ok ()) :
    ∃ st, db.open.2.store? = some st
      ∧ ∀ (h : List (Step (ServerPool σ) (ServerLifeEvent σ))) (p : ServerPool σ),
        Run (LifeServing config) (.idle (AppState.started st)) h p →
        (∀ r ∈ db.heldOrders,
          ∃ r', p.shared.store.orders.row? r.id = some r' ∧ r.SameProfile r')
        ∧ ∀ n ∈ db.heldNotifications, ∃ r ∈ p.shared.store.notifications.rows, r.columns = n.1
          ∧ (r.verified ≠ 0 ↔ n.2 = none ∨ ∃ v ≠ 0, n.2 = some v) := by
  obtain ⟨st, hst, horders, hnotifications⟩ :=
    (opensCurrent_of_not_missed hscope hshape hopen).tables
  refine ⟨st, hst, fun h p run => ⟨?_, ?_⟩⟩
  · intro r hr
    have hrow : st.orders.row? r.id = some r := Table.row?_of_mem (horders r hr)
    exact lives_sameProfile run hrow
  · intro n hn
    obtain ⟨r, hr, hcolumns, _, hverified⟩ := hnotifications n hn
    have hkept : r ∈ p.shared.store.notifications.rows :=
      lives_store (fun st => r ∈ st.notifications.rows)
        (fun faults c _ hmem => SqliteStore.mem_notifications_after faults c hmem) run hr
    exact ⟨r, hkept, hcolumns, hverified⟩

/-- A file from before versions were tracked, with an order in it. -/
def soldBefore : Db :=
  { writtenBefore with
    orders := some (OrderTable.empty.insertOrder ⟨"A", iccidOf 7, [7], []⟩ List.not_mem_nil) }

/-- The order is sold, and its download reported; then the process ends, and the next one resets
it. -/
def sellingOn : List (Machine.Action Command (Env Bytes)) :=
  uninterrupted 0 initiate (.echo 1) ++ uninterrupted 1 (authenticate 1 [65]) (.echo 0)
    ++ uninterrupted 2 (download 1) (.echo 0)
    ++ uninterrupted 3 (.handleNotification ⟨65 :: 1 :: 1 :: List.replicate 10 7⟩) (.echo 0)

theorem upgrade_keeps_soldBefore :
    ∃ st, soldBefore.open.2.store? = some st
      ∧ ∃ p, p = resumedPool ((machine ⟨"smdp.example.com"⟩).played (.idle (.started st)) sellingOn)
          (uninterrupted 0 (.orderReset 1) (.echo 0))
        ∧ (∃ r, p.shared.store.orders.row? 1 = some r ∧ r.matchingId = "A")
        ∧ ∃ r ∈ p.shared.store.notifications.rows, r.id = 1 ∧ r.verified ≠ 0 := by
  have hshape : ¬ MissedShape soldBefore := by
    rintro (hversion | ⟨_, hnone, _⟩)
    · cases hversion
    · cases hnone
  obtain ⟨st, hst, hkept⟩ :=
    upgrade_keeps Bytes ⟨"smdp.example.com"⟩ (.untracked rfl) hshape rfl
  have hrun : Run (LifeServing ⟨"smdp.example.com"⟩) (.idle (.started st)) _ _ :=
    Machine.Run.inLife
      (Machine.run_play (M := machine ⟨"smdp.example.com"⟩) (.idle (.started st)) sellingOn)
  obtain ⟨horders, hnotifications⟩ := hkept _ _
    (hrun.append (run_resumed _ (uninterrupted 0 (.orderReset 1) (.echo 0))))
  obtain ⟨r, hr, hsame⟩ := horders _ List.mem_cons_self
  obtain ⟨n, hn, hcolumns, hverified⟩ := hnotifications _ List.mem_cons_self
  refine ⟨st, hst, _, rfl, ⟨r, hr, hsame.matchingId⟩, n, hn, ?_, hverified.mpr (.inl rfl)⟩
  exact congrArg OldNotificationRow.id hcolumns

end Smdp
