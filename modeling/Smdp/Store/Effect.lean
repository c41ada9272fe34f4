import Smdp.Store.Interface

/-!
# Smdp — what a store call does to a row

One statement for all nine calls: a row that is there stays there, and `StoreCall.onRow` is
what the call makes of it (`row?_after`); a row that was not there was inserted by
`addOrder` under the next rowid (`row?_after_none`). Nothing below unfolds a write again.

* `OrderRow.SameProfile`: the columns no call ever writes twice. What a Profile is and how
  it is found is fixed when the order is added.
* `SqliteStore.Typed`: every row reads back as an order. Every call keeps it, so a store
  built from an empty database always lists.
-/

namespace Smdp

open Rowid

variable {st : SqliteStore} {r : OrderRow} {i : Int} {faults : StoreFaults}

/-! ## Under faults -/

namespace SqliteStore

theorem after_of_some {c : StoreCall} {e : StoreError} (h : faults c = some e) :
    st.after faults c = st := by
  simp [after, performUnder, h]

theorem after_of_none {c : StoreCall} (h : faults c = none) :
    st.after faults c = (st.perform c).2 := by
  simp [after, performUnder, h]

/-- A call that fails changes nothing, so a call does what it does or nothing. -/
theorem after_cases (faults : StoreFaults) (c : StoreCall) (st : SqliteStore) :
    st.after faults c = st ∨ st.after faults c = (st.perform c).2 := by
  cases h : faults c with
  | some e => exact .inl (after_of_some h)
  | none => exact .inr (after_of_none h)

/-- An order that could not be added was not. -/
theorem after_addOrder_of_error {new : NewOrder} {e : StoreError}
    (h : (st.performUnder faults (.addOrder new)).1 = .error e) :
    st.after faults (.addOrder new) = st := by
  unfold after
  unfold performUnder at h ⊢
  split
  · rfl
  · rename_i hf
    rw [hf] at h
    simp only [perform, addOrder] at h ⊢
    split at h
    · rw [dif_pos ‹_›]
    · cases h

/-- An order that was added got the next rowid. -/
theorem id_of_addOrder {new : NewOrder} {o : Order}
    (h : (st.performUnder faults (.addOrder new)).1 = .ok o) : o.id = st.orders.nextKey := by
  unfold performUnder at h
  split at h
  · cases h
  · simp only [perform, addOrder] at h
    split at h
    · cases h
    · cases h
      rfl

/-- Setting a state is answered by the faults alone: whether there is such an order makes no
difference to the answer. -/
theorem setState_eq (faults : StoreFaults) (order : Int) (state : OrderState)
    (st : SqliteStore) :
    (st.performUnder faults (.setState order state)).1
      = match faults (.setState order state) with
        | some e => .error e
        | none => .ok () := by
  unfold performUnder
  cases faults (.setState order state) with
  | some e => rfl
  | none => rfl

end SqliteStore

/-! ## The three writes, by row -/

theorem OrderTable.row?_updateWhere (t : OrderTable) {order : Int} {f : OrderRow → OrderRow}
    {hid : ∀ r, (f r).id = r.id} {hm : ∀ r, (f r).matchingId = r.matchingId} {i : Int} :
    (t.updateWhere order f hid hm).row? i
      = if i = order then (t.row? i).map f else t.row? i :=
  Table.row?_updateWhere t.toTable order f hid i

theorem OrderTable.row?_setState (t : OrderTable) (order : Int) (state : OrderState) (i : Int) :
    (t.setState order state).row? i
      = if i = order then (t.row? i).map fun r => { r with state := state.asStr }
        else t.row? i :=
  t.row?_updateWhere

theorem OrderTable.row?_bindEuicc (t : OrderTable) (order : Int) (eid : String)
    (euiccCert : Bytes) (i : Int) :
    (t.bindEuicc order eid euiccCert).row? i
      = if i = order
        then (t.row? i).map fun r => { r with eid := some eid, euiccCert := some euiccCert }
        else t.row? i :=
  t.row?_updateWhere

theorem OrderTable.row?_insertOrder (t : OrderTable) (new : NewOrder)
    (hnew : new.matchingId ∉ t.rows.map OrderRow.matchingId) (i : Int) :
    (t.insertOrder new hnew).row? i
      = if i = t.nextKey then some (new.toRow t.nextKey) else t.row? i :=
  Table.row?_insert t.toTable new.toRow new.toRow_id i

theorem OrderTable.row?_insertOrder_of_some (t : OrderTable) (new : NewOrder)
    (hnew : new.matchingId ∉ t.rows.map OrderRow.matchingId) (h : t.row? i = some r) :
    (t.insertOrder new hnew).row? i = some r :=
  t.toTable.row?_insert_of_some new.toRow_id h

/-! ## Rows that are there -/

/-- What a call makes of a row. -/
def StoreCall.onRow : StoreCall → OrderRow → OrderRow
  | .setState order state, r => if r.id = order then { r with state := state.asStr } else r
  | .bindEuicc order eid euiccCert, r =>
    if r.id = order then { r with eid := some eid, euiccCert := some euiccCert } else r
  | _, r => r

theorem StoreCall.onRow_setState (order : Int) (state : OrderState) (r : OrderRow) :
    (StoreCall.setState order state).onRow r
      = if r.id = order then { r with state := state.asStr } else r := rfl

theorem StoreCall.onRow_bindEuicc (order : Int) (eid : String) (euiccCert : Bytes)
    (r : OrderRow) :
    (StoreCall.bindEuicc order eid euiccCert).onRow r
      = if r.id = order then { r with eid := some eid, euiccCert := some euiccCert } else r := rfl

/-- A row that is there is made into what `onRow` says, by every call. An inserted row has another
id, so it is no other case. -/
theorem SqliteStore.row?_perform (c : StoreCall) (h : st.orders.row? i = some r) :
    (st.perform c).2.orders.row? i = some (c.onRow r) := by
  obtain rfl : r.id = i := Table.key_of_row? h
  cases c with
  | setState order state =>
    rw [StoreCall.onRow_setState]
    refine (st.orders.row?_setState order state r.id).trans ?_
    rw [h]
    split <;> rfl
  | bindEuicc order eid euiccCert =>
    rw [StoreCall.onRow_bindEuicc]
    refine (st.orders.row?_bindEuicc order eid euiccCert r.id).trans ?_
    rw [h]
    split <;> rfl
  | addOrder new =>
    simp only [SqliteStore.perform, SqliteStore.addOrder, StoreCall.onRow]
    split
    · exact h
    · rename_i hnew
      exact st.orders.row?_insertOrder_of_some new hnew h
  -- neither a query nor a notification touches the orders
  | _ => exact h

/-- The same under faults: the row is as it was, or as the call makes it. -/
theorem SqliteStore.row?_after (faults : StoreFaults) (c : StoreCall) (h : st.orders.row? i = some r) :
    (st.after faults c).orders.row? i = some (if (faults c).isSome then r else c.onRow r) := by
  cases hf : faults c with
  | some e => rw [after_of_some hf]; exact h
  | none => rw [after_of_none hf]; exact row?_perform c h

/-! ## Rows that are not -/

/-- A row appears only as the next one, by `addOrder`. -/
theorem SqliteStore.row?_after_none (faults : StoreFaults) (c : StoreCall) (h : st.orders.row? i = none) :
    (st.after faults c).orders.row? i = none
      ∨ ∃ new, c = .addOrder new ∧ i = st.orders.nextKey
          ∧ (st.after faults c).orders.row? i = some (new.toRow i) := by
  rcases after_cases faults c st with hs | hs
  · rw [hs]
    exact .inl h
  · rw [hs]
    cases c with
    | setState order state =>
      left
      refine (st.orders.row?_setState order state i).trans ?_
      rw [h]
      split <;> rfl
    | bindEuicc order eid euiccCert =>
      left
      refine (st.orders.row?_bindEuicc order eid euiccCert i).trans ?_
      rw [h]
      split <;> rfl
    | addOrder new =>
      simp only [SqliteStore.perform, SqliteStore.addOrder]
      split
      · exact .inl h
      · rename_i hnew
        -- inserted: the row is the new one, or still not there
        have hrow := st.orders.row?_insertOrder new hnew i
        by_cases hi : i = st.orders.nextKey
        · refine .inr ⟨new, rfl, hi, hrow.trans ?_⟩
          rw [if_pos hi, hi]
        · refine .inl (hrow.trans ?_)
          rw [if_neg hi, h]
    | _ => exact .inl h

/-! ## What never changes -/

/-- Two rows for one Profile: they differ at most in where the order stands and in which
eUICC it went to. -/
structure OrderRow.SameProfile (r r' : OrderRow) : Prop where
  id : r'.id = r.id
  matchingId : r'.matchingId = r.matchingId
  iccid : r'.iccid = r.iccid
  upp : r'.upp = r.upp
  metadata : r'.metadata = r.metadata

theorem OrderRow.SameProfile.refl (r : OrderRow) : r.SameProfile r := ⟨rfl, rfl, rfl, rfl, rfl⟩

theorem OrderRow.SameProfile.trans {r r' r'' : OrderRow} (h : r.SameProfile r')
    (h' : r'.SameProfile r'') : r.SameProfile r'' :=
  ⟨h'.id.trans h.id, h'.matchingId.trans h.matchingId, h'.iccid.trans h.iccid,
    h'.upp.trans h.upp, h'.metadata.trans h.metadata⟩

/-- Both updates write columns outside the Profile. -/
theorem StoreCall.onRow_sameProfile (c : StoreCall) (r : OrderRow) : r.SameProfile (c.onRow r) := by
  cases c with
  | setState order state =>
    rw [StoreCall.onRow_setState]
    split
    · exact ⟨rfl, rfl, rfl, rfl, rfl⟩
    · exact .refl r
  | bindEuicc order eid euiccCert =>
    rw [StoreCall.onRow_bindEuicc]
    split
    · exact ⟨rfl, rfl, rfl, rfl, rfl⟩
    · exact .refl r
  | _ => exact .refl r

/-- **No call ever rewrites a Profile.** -/
theorem SqliteStore.sameProfile_after (faults : StoreFaults) (c : StoreCall) (h : st.orders.row? i = some r) :
    ∃ r', (st.after faults c).orders.row? i = some r' ∧ r.SameProfile r' := by
  refine ⟨_, row?_after faults c h, ?_⟩
  split
  · exact .refl r
  · exact c.onRow_sameProfile r

/-! ## Reading rows back -/

/-- **The orders list exactly when every row holds one**, and then they are what the rows
hold, in the order of the table. -/
theorem SqliteStore.listOrders_eq_ok {os : List Order} :
    st.listOrders = .ok os ↔ st.orders.rows = os.map Order.toRow := by
  unfold SqliteStore.listOrders
  generalize st.orders.rows = rows
  -- row by row, as `collect` does: the first row that does not read back ends it
  induction rows generalizing os with
  | nil =>
    constructor
    · intro h
      cases h
      rfl
    · intro h
      rw [List.map_eq_nil_iff.mp h.symm]
      rfl
  | cons row rows ih =>
    rw [List.mapM_cons]
    constructor
    · intro h
      cases hrow : rowToOrder row with
      | error e => rw [hrow] at h; cases h
      | ok o =>
        cases hrest : rows.mapM rowToOrder with
        | error e => rw [hrow, hrest] at h; cases h
        | ok rest =>
          rw [hrow, hrest] at h
          cases h
          rw [List.map_cons, ← ih.mp hrest, ← rowToOrder_eq_ok.mp hrow]
    · intro h
      obtain ⟨o, rest, rfl, ho, hrest⟩ := List.map_eq_cons_iff.mp h.symm
      rw [rowToOrder_eq_ok.mpr ho.symm, ih.mpr hrest.symm]
      rfl

theorem SqliteStore.listed_eq_ok {os : List Order} (h : st.listed faults = .ok os) :
    st.orders.rows = os.map Order.toRow := by
  unfold SqliteStore.listed SqliteStore.performUnder at h
  split at h
  · cases h
  · exact listOrders_eq_ok.mp h

/-- A listed order is the row of its id. -/
theorem SqliteStore.row?_of_listed {os : List Order} {o : Order}
    (h : st.listed faults = .ok os) (ho : o ∈ os) : st.orders.row? o.id = some o.toRow := by
  have hmem : o.toRow ∈ st.orders.rows := by
    rw [listed_eq_ok h]
    exact List.mem_map_of_mem ho
  exact Table.row?_of_mem hmem

/-- The order a query returns is the first row that matches, if that row holds one. -/
theorem SqliteStore.one_eq_ok {p : OrderRow → Bool} {o : Order} :
    st.one p = .ok (some o) ↔ st.orders.rows.find? p = some o.toRow := by
  unfold SqliteStore.one
  cases st.orders.rows.find? p with
  | none => simp
  | some r =>
    have hread := @rowToOrder_eq_ok r o
    dsimp only
    cases hrow : rowToOrder r with
    | error e =>
      rw [hrow] at hread
      refine iff_of_false (by simp [Except.map]) ?_
      intro h
      cases hread.mpr (Option.some.inj h)
    | ok o' =>
      rw [hrow] at hread
      simpa [Except.map] using hread

/-- Every row reads back as an order. -/
def SqliteStore.Typed (st : SqliteStore) : Prop :=
  ∀ i r, st.orders.row? i = some r → ∃ o : Order, r = o.toRow

/-- An empty table has no row to read back. -/
theorem SqliteStore.typed_empty : SqliteStore.empty.Typed := by
  intro i r h
  cases h

/-- A row that holds an order holds one after the call: each update writes a column as the order
itself would. -/
theorem StoreCall.onRow_toRow (c : StoreCall) (o : Order) :
    ∃ o' : Order, c.onRow o.toRow = o'.toRow := by
  cases c with
  | setState order state =>
    rw [StoreCall.onRow_setState]
    split
    · exact ⟨{ o with state }, rfl⟩
    · exact ⟨o, rfl⟩
  | bindEuicc order eid euiccCert =>
    rw [StoreCall.onRow_bindEuicc]
    split
    · exact ⟨{ o with eid := some eid, euiccCert := some euiccCert }, rfl⟩
    · exact ⟨o, rfl⟩
  | _ => exact ⟨o, rfl⟩

theorem NewOrder.toRow_eq (new : NewOrder) (i : Int) :
    ∃ o : Order, new.toRow i = o.toRow :=
  ⟨{ id := i, matchingId := new.matchingId, iccid := new.iccid, upp := new.upp,
     metadata := new.metadata, state := .available, eid := none, euiccCert := none }, rfl⟩

/-- **Every call keeps every row readable.** -/
theorem SqliteStore.Typed.after (h : st.Typed) (faults : StoreFaults) (c : StoreCall) :
    (st.after faults c).Typed := by
  intro i r hr
  cases hrow : st.orders.row? i with
  | some r₀ =>
    -- the row was there: it is the same order, or one with a column rewritten
    obtain ⟨o, rfl⟩ := h i r₀ hrow
    rw [row?_after faults c hrow] at hr
    obtain rfl := Option.some.inj hr
    split
    · exact ⟨o, rfl⟩
    · exact c.onRow_toRow o
  | none =>
    -- it was not: it is the row an `addOrder` inserted
    rcases row?_after_none faults c hrow with hnone | ⟨new, _, _, hnew⟩
    · rw [hnone] at hr
      cases hr
    · rw [hnew] at hr
      obtain rfl := Option.some.inj hr
      exact new.toRow_eq i

/-- The state column of a readable row is a state. -/
theorem SqliteStore.Typed.state (h : st.Typed) {txt : String}
    (hi : (st.orders.row? i).map OrderRow.state = some txt) :
    ∃ state : OrderState, txt = state.asStr := by
  obtain ⟨r, hr, rfl⟩ := Option.map_eq_some_iff.mp hi
  obtain ⟨o, rfl⟩ := h i r hr
  exact ⟨o.state, rfl⟩

/-! ## The state of an order -/

namespace SqliteStore

/-- The state column of order `i`, if there is such an order. -/
def state? (st : SqliteStore) (i : Int) : Option String := (st.orders.row? i).map OrderRow.state

/-- Order `i` is still offered. -/
def OnOffer (st : SqliteStore) (i : Int) : Prop :=
  ∃ state : OrderState, state.Offered ∧ st.state? i = some state.asStr

/-- Order `i` was handed out, or its eUICC reported how the installation went. -/
def Settled (st : SqliteStore) (i : Int) : Prop :=
  ∃ state : OrderState, ¬ state.Offered ∧ st.state? i = some state.asStr

theorem Settled.not_onOffer (h : st.Settled i) : ¬ st.OnOffer i := by
  rintro ⟨state, hoffered, hstate⟩
  obtain ⟨state', hsettled, hstate'⟩ := h
  rw [hstate] at hstate'
  obtain rfl : state = state' := by simpa using hstate'
  exact hsettled hoffered

theorem state?_of_row? (h : st.orders.row? i = some r) : st.state? i = some r.state := by
  rw [state?, h]
  rfl

/-- The state column of any order after a `set_state`: written if it is that order and the call
went through, and otherwise what it was. -/
theorem state?_after_setState (st : SqliteStore) (faults : StoreFaults) (j : Int)
    (state : OrderState) (i : Int) :
    (st.after faults (.setState j state)).state? i
      = if i = j ∧ faults (.setState j state) = none
        then (st.state? i).map fun _ => state.asStr
        else st.state? i := by
  cases hf : faults (.setState j state) with
  | some e => simp [after_of_some hf]
  | none =>
    rw [after_of_none hf]
    have hrow := st.orders.row?_setState j state i
    show ((st.orders.setState j state).row? i).map OrderRow.state = _
    rw [hrow]
    -- the row of that order has the column rewritten, any other is the row it was
    by_cases hij : i = j
    · simp only [hij, if_true, and_self, Option.map_map]
      rw [state?, Option.map_map]
      rfl
    · simp [hij, state?]

/-- No other row is touched. -/
theorem row?_after_setState_of_ne {j : Int} (state : OrderState) (hj : i ≠ j) :
    (st.after faults (.setState j state)).orders.row? i = st.orders.row? i := by
  rcases after_cases faults (.setState j state) st with h | h
  · rw [h]
  · rw [h]
    exact (st.orders.row?_setState j state i).trans (if_neg hj)

/-- No other call moves an order that is there. -/
theorem state?_after_of_some {txt : String} {c : StoreCall}
    (hc : ∀ state, c ≠ .setState i state) (h : st.state? i = some txt) :
    (st.after faults c).state? i = some txt := by
  obtain ⟨r, hr, rfl⟩ := Option.map_eq_some_iff.mp h
  have hid : r.id = i := Table.key_of_row? hr
  rw [state?_of_row? (row?_after faults c hr)]
  split
  · rfl
  · cases c with
    | setState j state =>
      -- a write to another order, then
      have hother : r.id ≠ j := by
        rintro rfl
        exact hc state (by rw [hid])
      rw [StoreCall.onRow_setState, if_neg hother]
    | bindEuicc order eid euiccCert =>
      rw [StoreCall.onRow_bindEuicc]
      split <;> rfl
    | _ => rfl

/-! ## The eUICC remembered of an order -/

/-- The `eid` and `euicc_cert` columns of order `i`, if there is such an order. -/
def euicc? (st : SqliteStore) (i : Int) : Option (Option String × Option Bytes) :=
  (st.orders.row? i).map fun r => (r.eid, r.euiccCert)

theorem euicc?_of_row? (h : st.orders.row? i = some r) :
    st.euicc? i = some (r.eid, r.euiccCert) := by
  rw [euicc?, h]
  rfl

/-- The same of the two columns `bind_euicc` writes, which it writes together. -/
theorem euicc?_after_bindEuicc (st : SqliteStore) (faults : StoreFaults) (j : Int)
    (eid : String) (cert : Bytes) (i : Int) :
    (st.after faults (.bindEuicc j eid cert)).euicc? i
      = if i = j ∧ faults (.bindEuicc j eid cert) = none
        then (st.euicc? i).map fun _ => (some eid, some cert)
        else st.euicc? i := by
  cases hf : faults (.bindEuicc j eid cert) with
  | some e => simp [after_of_some hf]
  | none =>
    rw [after_of_none hf]
    have hrow := st.orders.row?_bindEuicc j eid cert i
    show ((st.orders.bindEuicc j eid cert).row? i).map (fun r => (r.eid, r.euiccCert)) = _
    rw [hrow]
    by_cases hij : i = j
    · simp only [hij, if_true, and_self, Option.map_map]
      rw [euicc?, Option.map_map]
      rfl
    · simp [hij, euicc?]

/-- No other call rebinds an order that is there. -/
theorem euicc?_after_of_some {p : Option String × Option Bytes} {c : StoreCall}
    (hc : ∀ eid cert, c ≠ .bindEuicc i eid cert) (h : st.euicc? i = some p) :
    (st.after faults c).euicc? i = some p := by
  obtain ⟨r, hr, rfl⟩ := Option.map_eq_some_iff.mp h
  have hid : r.id = i := Table.key_of_row? hr
  rw [euicc?_of_row? (row?_after faults c hr)]
  split
  · rfl
  · cases c with
    | setState j state =>
      rw [StoreCall.onRow_setState]
      split <;> rfl
    | bindEuicc j eid cert =>
      have hother : r.id ≠ j := by
        rintro rfl
        exact hc eid cert (by rw [hid])
      rw [StoreCall.onRow_bindEuicc, if_neg hother]
    | _ => rfl

/-- An order that is not there appears with nothing remembered. -/
theorem euicc?_after_of_none (faults : StoreFaults) (c : StoreCall) (h : st.euicc? i = none) :
    (st.after faults c).euicc? i = none ∨ (st.after faults c).euicc? i = some (none, none) := by
  have hrow : st.orders.row? i = none := Option.map_eq_none_iff.mp h
  rcases row?_after_none faults c hrow with hnone | ⟨new, _, _, hnew⟩
  · left
    rw [euicc?, hnone]
    rfl
  · right
    rw [euicc?_of_row? hnew]
    rfl

/-! ## One write -/

/-- After a write of an order's state the state is there exactly when the write went through
or it was there before. -/
theorem state?_written {state : OrderState} {txt : String} (hi : st.state? i = some txt) :
    (st.after faults (.setState i state)).state? i = some state.asStr
      ↔ faults (.setState i state) = none ∨ st.state? i = some state.asStr := by
  rw [state?_after_setState]
  by_cases hfault : faults (.setState i state) = none
  · rw [if_pos ⟨rfl, hfault⟩, hi]
    exact iff_of_true rfl (.inl hfault)
  · -- refused: then it is there only if it was
    rw [if_neg fun h => hfault h.2]
    constructor
    · exact .inr
    · rintro (h | h)
      · exact absurd h hfault
      · exact h

/-- The same for what is remembered of an eUICC. -/
theorem euicc?_written {eid : String} {cert : Bytes} {p : Option String × Option Bytes}
    (hi : st.euicc? i = some p) :
    (st.after faults (.bindEuicc i eid cert)).euicc? i = some (some eid, some cert)
      ↔ faults (.bindEuicc i eid cert) = none ∨ st.euicc? i = some (some eid, some cert) := by
  rw [euicc?_after_bindEuicc]
  by_cases hfault : faults (.bindEuicc i eid cert) = none
  · rw [if_pos ⟨rfl, hfault⟩, hi]
    exact iff_of_true rfl (.inl hfault)
  · rw [if_neg fun h => hfault h.2]
    constructor
    · exact .inr
    · rintro (h | h)
      · exact absurd h hfault
      · exact h

end SqliteStore

/-! ## Notifications -/

/-- Only `recordNotification` touches the notifications. -/
theorem SqliteStore.notifications_after (c : StoreCall)
    (h : ∀ n, c ≠ .recordNotification n) :
    (st.after faults c).notifications = st.notifications := by
  rcases after_cases faults c st with hs | hs
  · rw [hs]
  · rw [hs]
    cases c with
    | recordNotification n => exact absurd rfl (h n)
    | addOrder new =>
      -- inserted or refused, the notifications are another table
      simp only [SqliteStore.perform, SqliteStore.addOrder]
      split <;> rfl
    | _ => rfl

/-- A row is recorded exactly when the store takes it. -/
theorem SqliteStore.rows_after_recordNotification (st : SqliteStore) (faults : StoreFaults)
    (n : NewNotification) :
    (st.after faults (.recordNotification n)).notifications.rows
      = st.notifications.rows
        ++ if faults (.recordNotification n) = none then [n.toRow st.notifications.nextKey]
           else [] := by
  cases hfault : faults (.recordNotification n) with
  | some e =>
    rw [after_of_some hfault]
    exact (List.append_nil _).symm
  | none =>
    rw [after_of_none hfault]
    rfl

/-- What is on file stays there. -/
theorem SqliteStore.mem_notifications_after (faults : StoreFaults) (c : StoreCall)
    {row : NotificationRow} (hrow : row ∈ st.notifications.rows) :
    row ∈ (st.after faults c).notifications.rows := by
  by_cases hc : ∃ n, c = .recordNotification n
  · obtain ⟨n, rfl⟩ := hc
    rw [rows_after_recordNotification]
    exact List.mem_append_left _ hrow
  · rw [notifications_after c fun n h => hc ⟨n, h⟩]
    exact hrow

end Smdp
