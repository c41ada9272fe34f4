import Smdp.Rowid.Table
import Smdp.Store.Order

/-!
# Smdp — the SQLite store (`store/sqlite.rs`)

The two tables as SQLite keeps them, and the `Store` operations as the statements
`SqliteStore` runs on them. A row is raw: `state` is TEXT, `iccid` a BLOB of any length,
`eid` and `euicc_cert` may be NULL, booleans are integers. `rowToOrder` is the fallible
way back to an `Order`, exactly where the source has it.

What the schema itself guarantees is carried by the types: rowids are unique and
increasing (`Rowid.Table`), and `matching_id` is UNIQUE (`OrderTable`).
-/

namespace Smdp

open Rowid

/-! ## Rows and tables -/

/-- A row of `orders`, column by column and as SQLite types it. -/
structure OrderRow where
  id : Int
  matchingId : String
  iccid : Bytes
  upp : Bytes
  metadata : Bytes
  state : String
  eid : Option String
  euiccCert : Option Bytes
  deriving DecidableEq

/-- The `orders` table. -/
structure OrderTable extends Table OrderRow OrderRow.id where
  matchingIds_nodup : (rows.map OrderRow.matchingId).Nodup

/-- A row of `notifications`. Both booleans are INTEGER columns, and `installed` is NULL where
nothing was reported. -/
structure NotificationRow where
  id : Int
  orderId : Option Int
  seqNumber : Int
  operation : Int
  iccid : Option Bytes
  installed : Option Int
  verified : Int
  raw : Bytes
  deriving DecidableEq

/-- The `notifications` table. -/
abbrev NotificationTable := Table NotificationRow NotificationRow.id

/-- A prepared database: the contents of both tables. -/
structure SqliteStore where
  orders : OrderTable
  notifications : NotificationTable

/-- The table `CREATE TABLE` makes. -/
def OrderTable.empty : OrderTable := ⟨Table.empty, List.nodup_nil⟩

/-- A fresh database. -/
def SqliteStore.empty : SqliteStore := ⟨OrderTable.empty, Table.empty⟩

/-! ## Statements on the orders table -/

/-- `UPDATE orders SET … WHERE id = i`, on columns other than the two keys. -/
def OrderTable.updateWhere (t : OrderTable) (i : Int) (f : OrderRow → OrderRow)
    (hid : ∀ r, (f r).id = r.id) (hm : ∀ r, (f r).matchingId = r.matchingId) : OrderTable where
  toTable := t.toTable.updateWhere i f hid
  matchingIds_nodup := by
    -- the update leaves the column alone, so what was UNIQUE stays so
    have hsame : (OrderRow.matchingId ∘ fun r => if r.id = i then f r else r)
        = OrderRow.matchingId := by
      funext r
      simp only [Function.comp]
      split
      · exact hm r
      · rfl
    rw [Table.updateWhere_rows, List.map_map, hsame]
    exact t.matchingIds_nodup

/-- `UPDATE orders SET state = ?2 WHERE id = ?1`. -/
def OrderTable.setState (t : OrderTable) (order : Int) (state : OrderState) : OrderTable :=
  t.updateWhere order (fun r => { r with state := state.asStr }) (fun _ => rfl) (fun _ => rfl)

/-- `UPDATE orders SET eid = ?2, euicc_cert = ?3 WHERE id = ?1`. -/
def OrderTable.bindEuicc (t : OrderTable) (order : Int) (eid : String) (euiccCert : Bytes) :
    OrderTable :=
  t.updateWhere order (fun r => { r with eid := some eid, euiccCert := some euiccCert })
    (fun _ => rfl) (fun _ => rfl)

/-- The row an INSERT of `new` makes under the rowid `id`. -/
def NewOrder.toRow (new : NewOrder) (id : Int) : OrderRow where
  id := id
  matchingId := new.matchingId
  iccid := new.iccid.val
  upp := new.upp
  metadata := new.metadata
  state := OrderState.available.asStr
  eid := none
  euiccCert := none

@[simp] theorem NewOrder.toRow_id (new : NewOrder) (id : Int) : (new.toRow id).id = id := rfl

/-- The row an INSERT of `n` makes under the rowid `id`. -/
def NewNotification.toRow (n : NewNotification) (id : Int) : NotificationRow where
  id := id
  orderId := n.orderId
  seqNumber := n.seqNumber
  operation := n.operation
  iccid := n.iccid.map Subtype.val
  installed := n.installed.map Bool.toInt
  verified := n.verified.toInt
  raw := n.raw

@[simp] theorem NewNotification.toRow_id (n : NewNotification) (id : Int) :
    (n.toRow id).id = id := rfl

/-- `INSERT INTO orders …`, when no row has that `matching_id`. -/
def OrderTable.insertOrder (t : OrderTable) (new : NewOrder)
    (hnew : new.matchingId ∉ t.rows.map OrderRow.matchingId) : OrderTable where
  toTable := t.toTable.insert new.toRow new.toRow_id
  matchingIds_nodup := by
    rw [Table.insert_rows, List.map_append]
    refine List.nodup_append.mpr ⟨t.matchingIds_nodup, by simp, ?_⟩
    -- the one new MatchingID was not there
    intro a ha b hb hab
    obtain rfl : b = new.matchingId := by simpa [NewOrder.toRow] using hb
    exact hnew (hab ▸ ha)

/-! ## Reading rows back -/

/-- `row_to_order`. The columns SQLite types (`id`, `matching_id`, …) read as they are; the
BLOB that must be ten bytes and the TEXT that must be a state are checked here. -/
def rowToOrder (row : OrderRow) : Except StoreError Order :=
  match Octets.ofBytes? 10 row.iccid with
  -- the BLOB is checked first, so a row with both faults names this one
  | none => .error (.malformedIccid row.iccid.length)
  | some iccid =>
    match OrderState.parse row.state with
    | .error e => .error e
    | .ok state =>
      .ok { id := row.id, matchingId := row.matchingId, iccid, upp := row.upp,
            metadata := row.metadata, state, eid := row.eid, euiccCert := row.euiccCert }

/-- The row that holds `o`. -/
def Order.toRow (o : Order) : OrderRow where
  id := o.id
  matchingId := o.matchingId
  iccid := o.iccid.val
  upp := o.upp
  metadata := o.metadata
  state := o.state.asStr
  eid := o.eid
  euiccCert := o.euiccCert

/-- **A row reads back exactly when it holds an order.** -/
theorem rowToOrder_eq_ok {row : OrderRow} {o : Order} :
    rowToOrder row = .ok o ↔ row = o.toRow := by
  constructor
  · intro h
    unfold rowToOrder at h
    split at h
    · cases h
    · rename_i iccid hiccid
      split at h
      · cases h
      · rename_i state hstate
        cases h
        -- both checks passed, so the BLOB and the TEXT are what `toRow` writes
        have hblob := Octets.ofBytes?_eq_some.mp hiccid
        have htext := OrderState.asStr_of_parse hstate
        cases row
        simp_all [Order.toRow]
  · rintro rfl
    simp [rowToOrder, Order.toRow]

theorem Order.toRow_injective : Function.Injective Order.toRow := by
  intro o o' h
  have hread : rowToOrder o.toRow = .ok o := rowToOrder_eq_ok.mpr rfl
  have hread' : rowToOrder o.toRow = .ok o' := rowToOrder_eq_ok.mpr h
  exact Except.ok.inj (hread.symm.trans hread')

/-- The closure `notifications` maps over its rows. -/
def rowToNotification (r : NotificationRow) : StoredNotification where
  id := r.id
  verified := r.verified != 0
  orderId := r.orderId
  seqNumber := r.seqNumber
  operation := r.operation
  installed := r.installed.map (· != 0)
  raw := r.raw

namespace SqliteStore

/-- `SELECT … FROM orders WHERE p`, and the first row of it: `query_row(..).optional()`. -/
def one (st : SqliteStore) (p : OrderRow → Bool) : Except StoreError (Option Order) :=
  match st.orders.rows.find? p with
  -- `optional()`: no row is not an error
  | none => .ok none
  | some r => (rowToOrder r).map some

/-- `list_orders`: `SELECT … FROM orders ORDER BY id`, failing on the first row that does not read
back. -/
def listOrders (st : SqliteStore) : Except StoreError (List Order) :=
  st.orders.rows.mapM rowToOrder

/-- `order_by_matching_id`: `WHERE matching_id = ?1`, which is UNIQUE. -/
def orderByMatchingId (st : SqliteStore) (id : String) : Except StoreError (Option Order) :=
  st.one (fun r => r.matchingId = id)

/-- `order_by_iccid`: `WHERE iccid = ?1`. Several orders may have one ICCID; the first row by
rowid is the one returned. -/
def orderByIccid (st : SqliteStore) (iccid : Iccid) : Except StoreError (Option Order) :=
  st.one (fun r => r.iccid = iccid.val)

/-! ## The writes -/

/-- `add_order`: the row is inserted, and the order returned is built of what was inserted and of
`last_insert_rowid`. -/
def addOrder (st : SqliteStore) (new : NewOrder) : Except StoreError Order × SqliteStore :=
  if h : new.matchingId ∈ st.orders.rows.map OrderRow.matchingId then
    -- the UNIQUE constraint on matching_id
    (.error (.duplicateMatchingId new.matchingId), st)
  else
    (.ok { id := st.orders.nextKey, matchingId := new.matchingId, iccid := new.iccid,
           upp := new.upp, metadata := new.metadata, state := .available,
           eid := none, euiccCert := none },
     { st with orders := st.orders.insertOrder new h })

/-- `bind_euicc`, whether or not the order was bound before. -/
def bindEuicc (st : SqliteStore) (order : Int) (eid : String) (euiccCert : Bytes) : SqliteStore :=
  { st with orders := st.orders.bindEuicc order eid euiccCert }

/-- `set_state`. Nothing checks which state it was in. -/
def setState (st : SqliteStore) (order : Int) (state : OrderState) : SqliteStore :=
  { st with orders := st.orders.setState order state }

/-- `record_notification`: one more row, whatever is on file already. -/
def recordNotification (st : SqliteStore) (n : NewNotification) : SqliteStore :=
  { st with notifications := st.notifications.insert n.toRow n.toRow_id }

/-- `SELECT id, order_id, … FROM notifications ORDER BY id`. -/
def listNotifications (st : SqliteStore) : List StoredNotification :=
  st.notifications.rows.map rowToNotification

end SqliteStore

end Smdp
