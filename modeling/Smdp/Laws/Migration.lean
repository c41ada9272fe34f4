import Smdp.Store.Stage

/-!
# Smdp — opening brings a database to the current schema

`migrate` tells the old shapes apart by `user_version` and by whether the notifications table is
there, and runs a part of the schema for each. Two shapes come out of it stamped as current that
are not (`opensCurrent_iff`): version 1 itself, which is only stamped, and a file with no orders
table but the old notifications table, which is given its column and no orders.
-/

namespace Smdp

open Interaction Rowid

variable {db db' : Db}

/-! ## What a file holds, and what opening owes it -/

/-- The columns an old notification has, of a current one. -/
def NotificationRow.columns (r : NotificationRow) : OldNotificationRow where
  id := r.id
  orderId := r.orderId
  seqNumber := r.seqNumber
  operation := r.operation
  iccid := r.iccid
  installed := r.installed
  raw := r.raw

/-- A notification as it lies in a file: its columns, and its `verified` if there is such a
column. -/
def NotificationsShape.held : NotificationsShape → List (OldNotificationRow × Option Int)
  | .current t => t.rows.map fun r => (r.columns, some r.verified)
  | .unverified t => t.rows.map fun r => (r, none)

/-- The orders a file holds, if it has the table. -/
def Db.heldOrders (db : Db) : List OrderRow :=
  match db.orders with
  | some t => t.rows
  | none => []

/-- The notifications it holds, each with its `verified` column where there is one. -/
def Db.heldNotifications (db : Db) : List (OldNotificationRow × Option Int) :=
  match db.notifications with
  | some t => t.held
  | none => []

/-- The databases an older version, or this one, can have written. -/
inductive InScope (db : Db) : Prop where
  | untracked (version : db.userVersion = 0)
  | version1 (version : db.userVersion = 1) (orders : db.orders.isSome)
      (notifications : ∃ t, db.notifications = some (.unverified t))
  | version2 (version : db.userVersion = 2) (orders : db.orders.isSome)
      (notifications : ∃ t, db.notifications = some (.current t))

/-- `db'` is at the current schema and holds what `db` did: a notification counts as verified
exactly if it said so, or had no such column. -/
structure BroughtUp (db db' : Db) : Prop where
  version : db'.userVersion = 2
  tables : ∃ st, db'.store? = some st ∧ (∀ r ∈ db.heldOrders, r ∈ st.orders.rows)
    ∧ ∀ n ∈ db.heldNotifications, ∃ r ∈ st.notifications.rows, r.columns = n.1
      ∧ (∀ v, n.2 = some v → r.verified = v) ∧ (r.verified ≠ 0 ↔ n.2 = none ∨ ∃ v ≠ 0, n.2 = some v)

/-- Opening `db` fails, or brings it up. -/
def OpensCurrent (db : Db) : Prop := db.open.1 = .ok () → BroughtUp db db.open.2

/-- Version 1, or only its notifications table. -/
def MissedShape (db : Db) : Prop :=
  db.userVersion = 1
    ∨ db.userVersion = 0 ∧ db.orders = none ∧ ∃ t, db.notifications = some (.unverified t)

/-! ## What each branch leaves -/

theorem broughtUp_untracked_none (hversion : db.userVersion = 0) (hnone : db.notifications = none) :
    BroughtUp db db.open.2 := by
  rw [Db.open_untracked_none hversion hnone]
  refine ⟨rfl, ⟨db.orders.getD OrderTable.empty, Table.empty⟩, rfl, ?_, ?_⟩
  · intro r hr
    unfold Db.heldOrders at hr
    cases horders : db.orders with
    | none =>
      rw [horders] at hr
      cases hr
    | some t =>
      rw [horders] at hr
      exact hr
  · intro n hn
    unfold Db.heldNotifications at hn
    rw [hnone] at hn
    cases hn

/-- A backfilled row has the old one's columns, and counts as verified. -/
theorem broughtUp_unverified {t : Table OldNotificationRow OldNotificationRow.id}
    {orders : OrderTable} (hversion : db.userVersion = 0) (horders : db.orders = some orders)
    (hold : db.notifications = some (.unverified t)) : BroughtUp db db.open.2 := by
  rw [Db.open_untracked_unverified hversion hold]
  refine ⟨rfl, ⟨orders, backfillTable t⟩, ?_, ?_, ?_⟩
  · unfold Db.store?
    rw [horders]
  · intro r hr
    unfold Db.heldOrders at hr
    rw [horders] at hr
    exact hr
  · intro n hn
    unfold Db.heldNotifications at hn
    rw [hold] at hn
    obtain ⟨r, hr, rfl⟩ := List.mem_map.mp hn
    exact ⟨r.backfill, List.mem_map_of_mem hr, rfl, by simp, by simp [OldNotificationRow.backfill]⟩

/-- What is only stamped is brought up if it has both tables. -/
theorem broughtUp_tracked {t : NotificationTable} {orders : OrderTable}
    (hversion : db.userVersion = 2) (horders : db.orders = some orders)
    (hcurrent : db.notifications = some (.current t)) : BroughtUp db db.open.2 := by
  rw [Db.open_tracked (by omega) (by omega)]
  refine ⟨rfl, ⟨orders, t⟩, ?_, ?_, ?_⟩
  · unfold Db.store?
    rw [horders, hcurrent]
  · intro r hr
    unfold Db.heldOrders at hr
    rw [horders] at hr
    exact hr
  · intro n hn
    unfold Db.heldNotifications at hn
    rw [hcurrent] at hn
    obtain ⟨r, hr, rfl⟩ := List.mem_map.mp hn
    exact ⟨r, hr, rfl, by simp, by simp⟩

/-- Without both tables in their current shape nothing was brought up. -/
theorem not_broughtUp (hstore : db'.store? = none) : ¬ BroughtUp db db' := by
  intro h
  obtain ⟨st, hst, _⟩ := h.tables
  rw [hstore] at hst
  cases hst

/-! ## Which databases are brought up -/

/-- What opens, and is not of a missed shape, is brought up. -/
theorem opensCurrent_of_not_missed (hscope : InScope db) (hshape : ¬ MissedShape db) :
    OpensCurrent db := by
  intro hopen
  cases hscope with
  | untracked version =>
    cases hnotifications : db.notifications with
    | none => exact broughtUp_untracked_none version hnotifications
    | some shape =>
      cases shape with
      | current t =>
        -- the column is there already: opening fails
        rw [Db.open_untracked_current version hnotifications] at hopen
        cases hopen
      | unverified t =>
        cases horders : db.orders with
        | none => exact absurd (.inr ⟨version, horders, t, hnotifications⟩) hshape
        | some orders => exact broughtUp_unverified version horders hnotifications
  | version1 version orders notifications => exact absurd (.inl version) hshape
  | version2 version orders notifications =>
    obtain ⟨t, ht⟩ := notifications
    obtain ⟨orders, horders⟩ := Option.isSome_iff_exists.mp orders
    exact broughtUp_tracked version horders ht

/-- A missed shape is opened without an error, and a table of the store behind it is not there, or
lacks its column. -/
theorem not_opensCurrent_of_missed (hscope : InScope db) (hshape : MissedShape db) :
    ¬ OpensCurrent db := by
  intro hbrought
  rcases hshape with version | ⟨version, horders, t, ht⟩
  · cases hscope with
    | untracked version' => omega
    | version2 version' => omega
    | version1 _ orders notifications =>
      -- version 1 is stamped, and its notifications stay as they were
      obtain ⟨t, ht⟩ := notifications
      unfold OpensCurrent at hbrought
      rw [Db.open_tracked (by omega) (by omega)] at hbrought
      apply not_broughtUp _ (hbrought rfl)
      unfold Db.store?
      rw [ht]
      cases db.orders <;> rfl
  · -- the notifications get their column, and nothing makes an orders table
    unfold OpensCurrent at hbrought
    rw [Db.open_untracked_unverified version ht] at hbrought
    apply not_broughtUp _ (hbrought rfl)
    unfold Db.store?
    rw [horders]

/-- **Opening brings a database to the current schema exactly if it is not of a missed shape**; one
from a newer version is refused and left alone. The cases are the branches of `migrate`: version 0
with and without the notifications table, and the versions that are only stamped. -/
theorem opensCurrent_iff (db : Db) : (InScope db → (OpensCurrent db ↔ ¬ MissedShape db))
    ∧ (2 < db.userVersion → db.open = (.error (.schemaTooNew db.userVersion), db)) := by
  refine ⟨?_, Db.open_tooNew⟩
  intro hscope
  constructor
  · intro hopens hshape
    exact not_opensCurrent_of_missed hscope hshape hopens
  · exact opensCurrent_of_not_missed hscope

/-- A file written before versions were tracked: one notification, and no orders table. -/
def writtenBefore : Db where
  userVersion := 0
  orders := none
  ordersByIccid := false
  notifications := some (.unverified
    ⟨[⟨1, none, 29, 0, none, some 1, [0xbf, 0x37]⟩], List.pairwise_singleton _ _⟩)

theorem opensCurrent_iff_writtenBefore :
    (OpensCurrent writtenBefore ↔ ¬ MissedShape writtenBefore)
      ∧ { writtenBefore with userVersion := 3 }.open
        = (.error (.schemaTooNew 3), { writtenBefore with userVersion := 3 }) :=
  ⟨(opensCurrent_iff writtenBefore).1 (.untracked rfl),
    (opensCurrent_iff { writtenBefore with userVersion := 3 }).2 (by decide)⟩

/-- It is opened, and stamped, with no orders table in it. -/
theorem opened_without_orders : ¬ ∀ db, InScope db → OpensCurrent db := by
  intro hall
  obtain ⟨st, hst, _⟩ := (hall writtenBefore (.untracked rfl) rfl).tables
  cases hst

end Smdp
