import Smdp.Store.Migrate

/-!
# Smdp — the `Store` trait (`store/mod.rs`)

The operations a caller asks of the store, one `StoreCall` each, and `SqliteStore.perform`,
which answers them. `SqliteStore::open` is among them: the command line opens the file
before each of its commands.
-/

namespace Smdp

/-- One constructor for each method of `Store`, and one for `SqliteStore::open`. -/
inductive StoreCall where
  | open
  | addOrder (new : NewOrder)
  | listOrders
  | orderByMatchingId (id : String)
  | orderByIccid (iccid : Iccid)
  | bindEuicc (order : Int) (eid : String) (euiccCert : Bytes)
  | setState (order : Int) (state : OrderState)
  | recordNotification (n : NewNotification)
  | notifications
  deriving DecidableEq

/-- What a call returns when it succeeds. -/
abbrev StoreCall.Val : StoreCall → Type
  | .addOrder _ => Order
  | .listOrders => List Order
  | .orderByMatchingId _ => Option Order
  | .orderByIccid _ => Option Order
  | .notifications => List StoredNotification
  | _ => Unit

/-- Every method is fallible, and with the same error type. -/
abbrev StoreCall.Ret (c : StoreCall) : Type := Except StoreError c.Val

/-- `impl Store for SqliteStore`. -/
def SqliteStore.perform : (c : StoreCall) → SqliteStore → c.Ret × SqliteStore
  | .open, st => st.reopen
  | .addOrder new, st => st.addOrder new
  | .listOrders, st => (st.listOrders, st)
  | .orderByMatchingId id, st => (st.orderByMatchingId id, st)
  | .orderByIccid iccid, st => (st.orderByIccid iccid, st)
  | .bindEuicc order eid euiccCert, st => (.ok (), st.bindEuicc order eid euiccCert)
  -- `UPDATE .. WHERE id = ?` succeeds on no rows at all, so both updates are always `Ok`
  | .setState order state, st => (.ok (), st.setState order state)
  | .recordNotification n, st => (.ok (), st.recordNotification n)
  | .notifications, st => (.ok st.listNotifications, st)

/-- Which calls fail while one request is served, and with what. A call that fails leaves
the database as it was. No request makes the same call twice, so every pattern of failures
is one of these. -/
abbrev StoreFaults := StoreCall → Option StoreError

/-- A store that never fails. -/
def StoreFaults.none : StoreFaults := fun _ => Option.none

/-- A call under a pattern of failures: it fails where the pattern says so, and otherwise does
what it does. -/
def SqliteStore.performUnder (faults : StoreFaults) (c : StoreCall) (st : SqliteStore) :
    c.Ret × SqliteStore :=
  match faults c with
  | some e => (.error e, st)
  | none => st.perform c

namespace SqliteStore

/-- The database a call leaves. -/
def after (faults : StoreFaults) (c : StoreCall) (st : SqliteStore) : SqliteStore :=
  (st.performUnder faults c).2

/-- What listing the orders returns. -/
def listed (faults : StoreFaults) (st : SqliteStore) : Except StoreError (List Order) :=
  (st.performUnder faults .listOrders).1

/-! Reading leaves the database as it was, and so does opening it again. -/

theorem after_open (faults : StoreFaults) (st : SqliteStore) : st.after faults .open = st := by
  unfold after performUnder
  split <;> rfl

theorem after_listOrders (faults : StoreFaults) (st : SqliteStore) :
    st.after faults .listOrders = st := by
  unfold after performUnder
  split <;> rfl

theorem after_orderByIccid (faults : StoreFaults) (iccid : Iccid) (st : SqliteStore) :
    st.after faults (.orderByIccid iccid) = st := by
  unfold after performUnder
  split <;> rfl

end SqliteStore

end Smdp
