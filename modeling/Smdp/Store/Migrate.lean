import Smdp.Interaction.Program
import Smdp.Store.Sqlite

/-!
# Smdp — opening a database (`migrate`, `SqliteStore::open`)

A database file may be brand new, or written by an older version of the server. `Db` is
what `migrate` can meet: the `user_version`, and each table there or not, the
notifications table with or without its `verified` column. `migrate` is a program over
SQL statements, one `ask` a statement, since each commits on its own.

`SqliteStore.toDb` is a prepared store seen as a file. Opening that file again changes
nothing (`reopen_eq`).
-/

namespace Smdp

open Interaction Rowid

/-! ## What a database file can hold -/

/-- A notification as the version without the `verified` column wrote it. -/
structure OldNotificationRow where
  id : Int
  orderId : Option Int
  seqNumber : Int
  operation : Int
  iccid : Option Bytes
  installed : Option Int
  raw : Bytes
  deriving DecidableEq

/-- The two shapes the table has had. -/
inductive NotificationsShape where
  /-- As in `SCHEMA`. -/
  | current (t : NotificationTable)
  /-- As in `SCHEMA`, without `verified`. -/
  | unverified (t : Table OldNotificationRow OldNotificationRow.id)

structure Db where
  userVersion : Int
  orders : Option OrderTable
  /-- The index `orders_by_iccid`. -/
  ordersByIccid : Bool
  notifications : Option NotificationsShape

/-- A new file. -/
def Db.empty : Db := ⟨0, none, false, none⟩

/-! ## The statements `migrate` runs -/

/-- The statements `migrate` runs, each of which commits by itself. -/
inductive Sql where
  /-- `PRAGMA user_version` -/
  | userVersion
  /-- `SELECT count(*) FROM sqlite_master WHERE type = 'table' AND name = 'notifications'` -/
  | countNotifications
  /-- `CREATE TABLE IF NOT EXISTS orders (…)` -/
  | createOrders
  /-- `CREATE INDEX IF NOT EXISTS orders_by_iccid ON orders(iccid)` -/
  | createOrdersByIccid
  /-- `CREATE TABLE IF NOT EXISTS notifications (…)` -/
  | createNotifications
  /-- `ALTER TABLE notifications ADD COLUMN verified INTEGER NOT NULL DEFAULT 1` -/
  | addVerified
  /-- `PRAGMA user_version = v` -/
  | setUserVersion (v : Int)

/-- The two queries return a number, every other statement nothing. -/
abbrev SqlSig : Sig where
  Op := Sql
  Ret
    | .userVersion => Except StoreError Int
    | .countNotifications => Except StoreError Int
    | _ => Except StoreError Unit

/-- The row `ALTER TABLE … DEFAULT 1` makes of an old one. -/
def OldNotificationRow.backfill (r : OldNotificationRow) : NotificationRow where
  id := r.id
  orderId := r.orderId
  seqNumber := r.seqNumber
  operation := r.operation
  iccid := r.iccid
  installed := r.installed
  verified := 1
  raw := r.raw

/-- The table with every row backfilled; the rowids are as they were. -/
def backfillTable (t : Table OldNotificationRow OldNotificationRow.id) : NotificationTable where
  rows := t.rows.map OldNotificationRow.backfill
  increasing := List.pairwise_map.mpr (t.increasing.imp fun h => h)

/-- What SQLite does on each statement. -/
def Db.perform : (sql : Sql) → Db → SqlSig.Ret sql × Db
  | .userVersion, db => (.ok db.userVersion, db)
  | .countNotifications, db => (.ok (if db.notifications.isSome then 1 else 0), db)
  | .createOrders, db => (.ok (), { db with orders := some (db.orders.getD OrderTable.empty) })
  | .createOrdersByIccid, db =>
    match db.orders with
    | none => (.error (.db "no such table: main.orders"), db)
    | some _ => (.ok (), { db with ordersByIccid := true })
  | .createNotifications, db =>
    (.ok (), { db with notifications := some (db.notifications.getD (.current Table.empty)) })
  | .addVerified, db =>
    match db.notifications with
    | none => (.error (.db "no such table: notifications"), db)
    | some (.current _) => (.error (.db "duplicate column name: verified"), db)
    | some (.unverified t) =>
      (.ok (), { db with notifications := some (.current (backfillTable t)) })
  | .setUserVersion v, db => (.ok (), { db with userVersion := v })

/-! ## `migrate` -/

/-- `SCHEMA_VERSION`. -/
def schemaVersion : Int := 2

/-- `execute_batch(SCHEMA)`: its statements in order, stopping at the first that fails. -/
def schemaBatch : Prog SqlSig (Except StoreError Unit) := do
  match ← Prog.ask (F := SqlSig) Sql.createOrders with
  | .error e => return .error e
  | .ok _ =>
    match ← Prog.ask (F := SqlSig) Sql.createOrdersByIccid with
    | .error e => return .error e
    | .ok _ => Prog.ask (F := SqlSig) Sql.createNotifications

/-- The statements of one branch of `migrate`, then the version stamp. -/
def stampAfter (batch : Prog SqlSig (Except StoreError Unit)) :
    Prog SqlSig (Except StoreError Unit) := do
  match ← batch with
  | .error e => return .error e
  | .ok _ => Prog.ask (F := SqlSig) (Sql.setUserVersion schemaVersion)

/-- `migrate`: which branch is taken is decided by the version and, at version 0, by whether the
notifications table is there. Version 1 is in neither branch, and is only stamped. -/
def migrate : Prog SqlSig (Except StoreError Unit) := do
  match ← Prog.ask (F := SqlSig) Sql.userVersion with
  | .error e => return .error e
  | .ok version =>
    if version = 0 then
      -- brand new, or written before versions were tracked
      match ← Prog.ask (F := SqlSig) Sql.countNotifications with
      | .error e => return .error e
      | .ok existing =>
        if existing = 0 then
          stampAfter schemaBatch
        else
          stampAfter (Prog.ask (F := SqlSig) Sql.addVerified)
    else if version > schemaVersion then
      return .error (.schemaTooNew version)
    else
      stampAfter (return .ok ())

/-! ## `open` -/

/-- `SqliteStore::open` on a file: `migrate`, and the file it leaves. -/
def Db.open (db : Db) : Except StoreError Unit × Db :=
  let out := migrate.exec Db.perform db
  (out.value, out.state)

/-- The store behind a file with both tables in their current shape. -/
def Db.store? (db : Db) : Option SqliteStore :=
  match db.orders, db.notifications with
  | some orders, some (.current notifications) => some ⟨orders, notifications⟩
  | _, _ => none

/-- A prepared store, as a file. -/
def SqliteStore.toDb (st : SqliteStore) : Db where
  userVersion := schemaVersion
  orders := some st.orders
  ordersByIccid := true
  notifications := some (.current st.notifications)

/-- Open the file of a store that is already prepared. -/
def SqliteStore.reopen (st : SqliteStore) : Except StoreError Unit × SqliteStore :=
  let (r, db) := st.toDb.open
  (r, db.store?.getD st)

/-- A file at the current schema version is left as it is. -/
theorem SqliteStore.open_toDb (st : SqliteStore) : st.toDb.open = (.ok (), st.toDb) := rfl

theorem SqliteStore.reopen_eq (st : SqliteStore) : st.reopen = (.ok (), st) := rfl

/-- A new file opens to the empty store. -/
theorem Db.open_empty : Db.empty.open = (.ok (), SqliteStore.empty.toDb) := rfl

end Smdp
