import Mathlib.Data.Set.List
import Mathlib.Logic.Function.Basic
import Smdp.Interaction.History
import Smdp.Store.Effect

/-!
# Smdp — the store as a map of orders

What the orders table is for: a map from ids to orders. A call that adds an order puts it into
the map, `set_state` and `bind_euicc` change the order of their id, if there is one, and nothing
else changes anything (`OrderMap.after`).

`SqliteStore.orderMap` reads that map off the raw rows. `orderMap_perform` says that the store
does to its rows what the call does to the map, as long as every row is readable, and a run of
calls from an empty store keeps it so (`typed_of_run`).
-/

namespace Smdp

open Interaction Rowid

variable {st st' : SqliteStore} {i : Int} {o : Order}

/-! ## The map -/

/-- Ids to orders. There is no table, row or text in it. -/
abbrev OrderMap := Int → Option Order

/-- What a call makes of an order. -/
def StoreCall.onOrder : StoreCall → Order → Order
  | .setState order state, o => if o.id = order then { o with state } else o
  | .bindEuicc order eid euiccCert, o =>
    if o.id = order then { o with eid := some eid, euiccCert := some euiccCert } else o
  | _, o => o

/-- The row of an order is changed as the order is. -/
theorem StoreCall.onRow_onOrder (c : StoreCall) (o : Order) :
    c.onRow o.toRow = (c.onOrder o).toRow := by
  cases c with
  | setState order state =>
    show (if o.id = order then _ else _) = Order.toRow (if o.id = order then _ else _)
    split <;> rfl
  | bindEuicc order eid euiccCert =>
    show (if o.id = order then _ else _) = Order.toRow (if o.id = order then _ else _)
    split <;> rfl
  | _ => rfl

/-- No call gives an order another id. -/
theorem StoreCall.onOrder_id (c : StoreCall) (o : Order) : (c.onOrder o).id = o.id := by
  cases c with
  | setState order state =>
    unfold StoreCall.onOrder
    dsimp only
    split <;> rfl
  | bindEuicc order eid euiccCert =>
    unfold StoreCall.onOrder
    dsimp only
    split <;> rfl
  | _ => rfl

/-! ## Calls and their answers -/

/-- The calls of the store, as a signature of their own: what the server's histories project to.
-/
abbrev StoreSig : Sig where
  Op := StoreCall
  Ret := StoreCall.Ret

/-- The store answers a call. -/
def Answers (st : SqliteStore) (call : Call StoreSig) (st' : SqliteStore) : Prop :=
  st.perform call.op = (call.answer, st')

/-- Calls one after the other, on a freshly prepared database. -/
abbrev StoreRun (h : List (Step SqliteStore (Call StoreSig))) (st : SqliteStore) : Prop :=
  Run Answers SqliteStore.empty h st

/-- The history of answering `cs`, one after the other. -/
def answered (st : SqliteStore) : List StoreCall → List (Step SqliteStore (Call StoreSig))
  | [] => []
  | c :: cs => ⟨st, ⟨c, (st.perform c).1⟩, (st.perform c).2⟩ :: answered (st.perform c).2 cs

/-- The store that leaves. -/
def answeredStore (st : SqliteStore) (cs : List StoreCall) : SqliteStore :=
  cs.foldl (fun st c => (st.perform c).2) st

/-- **Every list of calls has its run.** Induction on the list. -/
theorem run_answered (st : SqliteStore) (cs : List StoreCall) :
    Run Answers st (answered st cs) (answeredStore st cs) := by
  induction cs generalizing st with
  | nil => exact .nil
  | cons c cs ih => exact Run.cons rfl (ih (st.perform c).2)

/-- The order that a call added. -/
def addedBy (call : Call StoreSig) : Option Order :=
  match call with
  | ⟨.addOrder _, .ok o⟩ => some o
  | _ => none

/-- The error that a call failed with. -/
def failedWith (call : Call StoreSig) : Option StoreError :=
  match (call.answer : Except StoreError call.op.Val) with
  | .error e => some e
  | .ok _ => none

/-- What an answered call makes of the map. -/
def OrderMap.after (m : OrderMap) (call : Call StoreSig) : OrderMap :=
  match addedBy call with
  | some o => Function.update m o.id (some o)
  | none => fun i => (m i).map call.op.onOrder

/-! ## The map behind the rows -/

/-- The order in the row of `i`, if there is a row and it can be read. -/
def SqliteStore.orderMap (st : SqliteStore) : OrderMap :=
  fun i => (st.orders.row? i).bind fun r => (rowToOrder r).toOption

theorem SqliteStore.orderMap_of_row? (h : st.orders.row? i = some o.toRow) :
    st.orderMap i = some o := by
  unfold SqliteStore.orderMap
  rw [h, Option.bind_some, rowToOrder_eq_ok.mpr rfl]
  rfl

theorem SqliteStore.orderMap_of_none (h : st.orders.row? i = none) : st.orderMap i = none := by
  unfold SqliteStore.orderMap
  rw [h]
  rfl

/-- Where every row is readable, the map and the rows say the same. -/
theorem SqliteStore.Typed.orderMap_eq_some (h : st.Typed) :
    st.orderMap i = some o ↔ st.orders.row? i = some o.toRow := by
  constructor
  · intro hmap
    cases hrow : st.orders.row? i with
    | none =>
      rw [orderMap_of_none hrow] at hmap
      cases hmap
    | some r =>
      obtain ⟨o', rfl⟩ := h i r hrow
      rw [orderMap_of_row? hrow] at hmap
      rw [Option.some.inj hmap]
  · exact orderMap_of_row?

/-! ## Adding an order -/

/-- An order is added exactly if no order has its MatchingID. -/
theorem SqliteStore.addOrder_cases (st : SqliteStore) (new : NewOrder) :
    (new.matchingId ∈ st.orders.rows.map OrderRow.matchingId
        ∧ st.addOrder new = (.error (.duplicateMatchingId new.matchingId), st))
      ∨ (new.matchingId ∉ st.orders.rows.map OrderRow.matchingId
        ∧ ∃ o, (st.addOrder new).1 = .ok o ∧ o.toRow = new.toRow st.orders.nextKey
          ∧ (st.addOrder new).2.orders.rows = st.orders.rows ++ [o.toRow]) := by
  unfold SqliteStore.addOrder
  by_cases hnew : new.matchingId ∈ st.orders.rows.map OrderRow.matchingId
  · rw [dif_pos hnew]
    exact .inl ⟨hnew, rfl⟩
  · rw [dif_neg hnew]
    exact .inr ⟨hnew, _, rfl, rfl, rfl⟩

/-! ## The store follows the map -/

/-- A call that adds no order changes each order there is, and makes none. -/
theorem SqliteStore.Typed.orderMap_perform_of_ne (h : st.Typed) {c : StoreCall}
    (hc : ∀ new, c ≠ .addOrder new) :
    (st.perform c).2.orderMap = fun i => (st.orderMap i).map c.onOrder := by
  -- id by id
  funext i
  cases hrow : st.orders.row? i with
  | none =>
    have hnone : (st.perform c).2.orders.row? i = none := by
      have hafter := row?_after_none StoreFaults.none c hrow
      rw [after_of_none rfl] at hafter
      rcases hafter with hnone | ⟨new, hadd, _⟩
      · exact hnone
      · exact absurd hadd (hc new)
    rw [orderMap_of_none hnone, orderMap_of_none hrow]
    rfl
  | some r =>
    obtain ⟨o, rfl⟩ := h i r hrow
    have hafter := row?_perform c hrow
    rw [c.onRow_onOrder] at hafter
    rw [orderMap_of_row? hafter, orderMap_of_row? hrow]
    rfl

/-- An order that is added is put on the map under its id, the next rowid. -/
theorem SqliteStore.orderMap_addOrder {new : NewOrder}
    (hnew : new.matchingId ∉ st.orders.rows.map OrderRow.matchingId)
    (ho : o.toRow = new.toRow st.orders.nextKey) :
    (st.addOrder new).2.orderMap = Function.update st.orderMap o.id (some o) := by
  have hid : o.id = st.orders.nextKey := congrArg OrderRow.id ho
  funext i
  rw [Function.update_apply]
  have hrow : (st.addOrder new).2.orders.row? i
      = if i = st.orders.nextKey then some (new.toRow st.orders.nextKey)
        else st.orders.row? i := by
    unfold SqliteStore.addOrder
    rw [dif_neg hnew]
    exact st.orders.row?_insertOrder new hnew i
  by_cases hi : i = o.id
  · rw [if_pos hi]
    apply orderMap_of_row?
    rw [hrow, if_pos (hi.trans hid), ho]
  · rw [if_neg hi]
    unfold SqliteStore.orderMap
    rw [hrow, if_neg fun h => hi (h.trans hid.symm)]

/-- **The store does to its rows what a call does to the map.** -/
theorem SqliteStore.Typed.orderMap_answers (h : st.Typed) {call : Call StoreSig}
    (step : Answers st call st') : st'.orderMap = st.orderMap.after call := by
  obtain ⟨c, answer⟩ := call
  have hanswer : (st.perform c).1 = answer := congrArg Prod.fst step
  have hafter : (st.perform c).2 = st' := congrArg Prod.snd step
  subst hanswer hafter
  -- an `add_order` changes the map at one id, or is refused and changes nothing
  by_cases hc : ∃ new, c = .addOrder new
  · obtain ⟨new, rfl⟩ := hc
    show (st.addOrder new).2.orderMap = st.orderMap.after ⟨.addOrder new, (st.addOrder new).1⟩
    rcases st.addOrder_cases new with ⟨_, hout⟩ | ⟨hnew, o, hok, ho, _⟩
    · rw [hout]
      funext i
      show st.orderMap i = (st.orderMap i).map fun o => o
      rw [Option.map_id']
    · rw [orderMap_addOrder hnew ho, hok]
      rfl
  · have hnot : ∀ new, c ≠ .addOrder new := fun new hadd => hc ⟨new, hadd⟩
    -- every other call is done order by order
    have hadds : addedBy ⟨c, (st.perform c).1⟩ = none := by
      cases c with
      | addOrder new => exact absurd rfl (hnot new)
      | _ => rfl
    rw [h.orderMap_perform_of_ne hnot]
    unfold OrderMap.after
    rw [hadds]

theorem typed_answers (h : st.Typed) {call : Call StoreSig} (step : Answers st call st') :
    st'.Typed := by
  have hafter := h.after StoreFaults.none call.op
  rw [SqliteStore.after_of_none rfl, show (st.perform call.op).2 = st' from congrArg Prod.snd step]
    at hafter
  exact hafter

theorem typed_of_run {h : List (Step SqliteStore (Call StoreSig))} (run : StoreRun h st) :
    st.Typed := by
  apply run.invariant SqliteStore.Typed SqliteStore.typed_empty
  intro st call st' hst step
  exact typed_answers hst step

/-! ## Reading -/

/-- **A readable store lists its orders**: those of the map, by id. -/
theorem SqliteStore.Typed.listOrders (h : st.Typed) :
    ∃ os, st.listOrders = .ok os ∧ st.orders.rows = os.map Order.toRow
      ∧ ∀ o, o ∈ os ↔ st.orderMap o.id = some o := by
  -- every row holds an order, so the rows are those of a list of orders
  have hall : st.orders.rows ∈ Set.range (List.map Order.toRow) := by
    rw [Set.range_list_map]
    intro r hr
    obtain ⟨o, ho⟩ := h r.id r (Table.row?_of_mem hr)
    exact ⟨o, ho.symm⟩
  obtain ⟨os, hos⟩ := hall
  refine ⟨os, listOrders_eq_ok.mpr hos.symm, hos.symm, ?_⟩
  intro o
  rw [h.orderMap_eq_some, Table.row?_eq_some, ← hos, List.mem_map_of_injective Order.toRow_injective]
  exact (and_iff_left rfl).symm

/-- A query on a readable store does not fail, and returns the first order that matches. -/
theorem SqliteStore.Typed.one (h : st.Typed) (p : OrderRow → Bool) :
    ∃ found, st.one p = .ok found
      ∧ ∀ o, found = some o ↔ st.orders.rows.find? p = some o.toRow := by
  cases hfind : st.orders.rows.find? p with
  | none =>
    refine ⟨none, ?_, by simp⟩
    unfold SqliteStore.one
    rw [hfind]
  | some r =>
    obtain ⟨o, rfl⟩ := h r.id r (Table.row?_of_mem (List.mem_of_find?_eq_some hfind))
    refine ⟨some o, one_eq_ok.mpr hfind, ?_⟩
    intro o'
    rw [Option.some.injEq, Option.some.injEq, Order.toRow_injective.eq_iff]

end Smdp
