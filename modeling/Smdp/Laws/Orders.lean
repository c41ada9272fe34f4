import Smdp.Store.OrderMap

/-!
# Smdp — the store is a map of orders

A run of calls on a freshly prepared database, told from its history alone: the orders there are
those that were added, each as it was added, in the state that was set last and with the eUICC
that was bound last since then; and looking, listing and adding answer accordingly
(`refines_orderMap`).
-/

namespace Smdp

open Interaction Rowid

variable {st st' : SqliteStore} {h : List (Step SqliteStore (Call StoreSig))}
  {call : Call StoreSig} {o : Order} {i : Int}

/-! ## What the history says of an order -/

/-- A call of the store, with the database before it and after. -/
abbrev StoreStep := Step SqliteStore (Call StoreSig)

/-- The state a call sets for order `i`. -/
def stateSet (i : Int) (x : StoreStep) : Option OrderState :=
  match x.label.op with
  | .setState order state => if order = i then some state else none
  | _ => none

/-- The EID and the certificate a call binds to order `i`. -/
def euiccBound (i : Int) (x : StoreStep) : Option (String × Bytes) :=
  match x.label.op with
  | .bindEuicc order eid euiccCert => if order = i then some (eid, euiccCert) else none
  | _ => none

/-- `o` is `new`, in the state set last in `since` and with the eUICC bound last. -/
structure IsAsAdded (new : NewOrder) (since : List StoreStep) (o : Order) : Prop where
  matchingId : o.matchingId = new.matchingId
  iccid : o.iccid = new.iccid
  upp : o.upp = new.upp
  metadata : o.metadata = new.metadata
  state : o.state = (latest (stateSet o.id) since).getD .available
  eid : o.eid = (latest (euiccBound o.id) since).map Prod.fst
  euiccCert : o.euiccCert = (latest (euiccBound o.id) since).map Prod.snd

/-- `o` was added, under its id, and is as it was added but for what was set and bound since. -/
def Accountable (h : List StoreStep) (o : Order) : Prop :=
  ∃ before x since new added, h = before ++ x :: since ∧ x.label = ⟨.addOrder new, .ok added⟩
    ∧ added.id = o.id ∧ IsAsAdded new since o

/-- The orders that were added, in turn. -/
def addedOrders (h : List StoreStep) : List Order := h.filterMap fun x => addedBy x.label

/-- What listing the orders must return after `h`. -/
structure ListsAdded (h : List StoreStep) (os : List Order) : Prop where
  ids : os.map Order.id = (addedOrders h).map Order.id
  increasing : os.Pairwise fun o o' => o.id < o'.id
  matchingIds : (os.map Order.matchingId).Nodup
  accountable : ∀ o ∈ os, Accountable h o

/-- What looking up a MatchingID and adding an order must do where `os` are the orders. -/
structure AnswersFor (st : SqliteStore) (os : List Order) : Prop where
  lookup : ∀ m, ∃ found, st.orderByMatchingId m = .ok found
    ∧ ∀ o, found = some o ↔ o ∈ os ∧ o.matchingId = m
  duplicate : ∀ new, (st.addOrder new).1 = .error (.duplicateMatchingId new.matchingId)
    ↔ ∃ o ∈ os, o.matchingId = new.matchingId
  unchanged : ∀ new e, (st.addOrder new).1 = .error e → (st.addOrder new).2 = st

/-- What the call of a step is answered, and does, where `os` are the orders before it. -/
def AnsweredFrom (os : List Order) (x : StoreStep) : Prop :=
  match x.label with
  | ⟨.listOrders, r⟩ => r = .ok os
  | ⟨.orderByMatchingId m, r⟩ =>
    ∃ found, r = .ok found ∧ ∀ o, found = some o ↔ o ∈ os ∧ o.matchingId = m
  | ⟨.orderByIccid iccid, r⟩ => r = .ok (os.find? fun o => o.iccid = iccid)
  | ⟨.addOrder new, r⟩ =>
    (r = .error (.duplicateMatchingId new.matchingId) ↔ ∃ o ∈ os, o.matchingId = new.matchingId)
      ∧ ∀ e, r = .error e → x.post = x.pre
  | _ => True

/-! ## One call -/

/-- A call that sets and binds nothing for the order leaves what is said of it. -/
theorem IsAsAdded.snoc_of_none {new : NewOrder} {since : List StoreStep} {x : StoreStep}
    (ho : IsAsAdded new since o) (hstate : stateSet o.id x = none)
    (heuicc : euiccBound o.id x = none) : IsAsAdded new (since ++ [x]) o := by
  have hsince : latest (stateSet o.id) (since ++ [x]) = latest (stateSet o.id) since := by
    rw [latest_snoc, hstate, Option.none_or]
  have hbound : latest (euiccBound o.id) (since ++ [x]) = latest (euiccBound o.id) since := by
    rw [latest_snoc, heuicc, Option.none_or]
  exact ⟨ho.matchingId, ho.iccid, ho.upp, ho.metadata, hsince ▸ ho.state, hbound ▸ ho.eid,
    hbound ▸ ho.euiccCert⟩

/-- **What a call makes of an order is what the history says of it afterwards.** -/
theorem IsAsAdded.snoc {new : NewOrder} {since : List StoreStep} (ho : IsAsAdded new since o)
    (x : StoreStep) : IsAsAdded new (since ++ [x]) (x.label.op.onOrder o) := by
  obtain ⟨pre, ⟨c, answer⟩, post⟩ := x
  cases c with
  | setState order state =>
    by_cases hid : o.id = order
    · subst hid
      -- the state set last is this one, and the eUICC is untouched
      have hnow : StoreCall.onOrder (.setState o.id state) o = { o with state } := if_pos rfl
      have hstate : stateSet o.id ⟨pre, ⟨.setState o.id state, answer⟩, post⟩ = some state :=
        if_pos rfl
      show IsAsAdded new _ (StoreCall.onOrder (.setState o.id state) o)
      rw [hnow]
      refine ⟨ho.matchingId, ho.iccid, ho.upp, ho.metadata, ?_, ?_, ?_⟩
      · show state = (latest (stateSet o.id) _).getD .available
        rw [latest_snoc, hstate]
        rfl
      · show o.eid = (latest (euiccBound o.id) _).map Prod.fst
        rw [latest_snoc]
        exact ho.eid
      · show o.euiccCert = (latest (euiccBound o.id) _).map Prod.snd
        rw [latest_snoc]
        exact ho.euiccCert
    · have hnow : StoreCall.onOrder (.setState order state) o = o := if_neg hid
      show IsAsAdded new _ (StoreCall.onOrder (.setState order state) o)
      rw [hnow]
      exact ho.snoc_of_none (if_neg (Ne.symm hid)) rfl
  | bindEuicc order eid cert =>
    by_cases hid : o.id = order
    · subst hid
      -- the eUICC bound last is this one, and the state is untouched
      have hnow : StoreCall.onOrder (.bindEuicc o.id eid cert) o
          = { o with eid := some eid, euiccCert := some cert } := if_pos rfl
      have hbound : euiccBound o.id ⟨pre, ⟨.bindEuicc o.id eid cert, answer⟩, post⟩
          = some (eid, cert) := if_pos rfl
      show IsAsAdded new _ (StoreCall.onOrder (.bindEuicc o.id eid cert) o)
      rw [hnow]
      refine ⟨ho.matchingId, ho.iccid, ho.upp, ho.metadata, ?_, ?_, ?_⟩
      · show o.state = (latest (stateSet o.id) _).getD .available
        rw [latest_snoc]
        exact ho.state
      · show some eid = (latest (euiccBound o.id) _).map Prod.fst
        rw [latest_snoc, hbound]
        rfl
      · show some cert = (latest (euiccBound o.id) _).map Prod.snd
        rw [latest_snoc, hbound]
        rfl
    · have hnow : StoreCall.onOrder (.bindEuicc order eid cert) o = o := if_neg hid
      show IsAsAdded new _ (StoreCall.onOrder (.bindEuicc order eid cert) o)
      rw [hnow]
      exact ho.snoc_of_none rfl (if_neg (Ne.symm hid))
  | _ => exact ho.snoc_of_none rfl rfl

theorem Accountable.snoc (ho : Accountable h o) (x : StoreStep) :
    Accountable (h ++ [x]) (x.label.op.onOrder o) := by
  obtain ⟨before, y, since, new, added, rfl, hy, hid, hsince⟩ := ho
  refine ⟨before, y, since ++ [x], new, added, by simp, hy, ?_, hsince.snoc x⟩
  rw [hid, StoreCall.onOrder_id]

theorem addedBy_eq_some (hadded : addedBy call = some o) :
    ∃ new, call = ⟨.addOrder new, .ok o⟩ := by
  obtain ⟨c, answer⟩ := call
  cases c with
  | addOrder new =>
    match answer with
    | .ok o' =>
      obtain rfl : o' = o := Option.some.inj hadded
      exact ⟨new, rfl⟩
    | .error e => cases hadded
  | _ => cases hadded

/-- What was added is `new`, under the next id. -/
theorem isAsAdded_of_answers {new : NewOrder} (step : Answers st ⟨.addOrder new, .ok o⟩ st') :
    o.id = st.orders.nextKey ∧ IsAsAdded new [] o := by
  have hok : (st.addOrder new).1 = .ok o := congrArg Prod.fst step
  unfold SqliteStore.addOrder at hok
  split at hok
  · cases hok
  · cases hok
    exact ⟨rfl, rfl, rfl, rfl, rfl, rfl, rfl, rfl⟩

/-- The orders there are after a call: those there were, and the one it added. -/
theorem ids_answers (step : Answers st call st') :
    st'.orders.rows.map OrderRow.id
      = st.orders.rows.map OrderRow.id ++ (addedBy call).toList.map Order.id := by
  obtain ⟨c, answer⟩ := call
  have hanswer : (st.perform c).1 = answer := congrArg Prod.fst step
  have hafter : (st.perform c).2 = st' := congrArg Prod.snd step
  subst hanswer hafter
  have hupdate : ∀ (order : Int) (f : OrderRow → OrderRow), (∀ r, (f r).id = r.id) →
      (st.orders.rows.map fun r => if r.id = order then f r else r).map OrderRow.id
        = st.orders.rows.map OrderRow.id := by
    intro order f hf
    rw [List.map_map]
    apply List.map_congr_left
    intro r _
    show OrderRow.id (if r.id = order then f r else r) = r.id
    split
    · exact hf r
    · rfl
  cases c with
  | addOrder new =>
    show (st.addOrder new).2.orders.rows.map OrderRow.id
      = _ ++ (addedBy ⟨.addOrder new, (st.addOrder new).1⟩).toList.map Order.id
    rcases st.addOrder_cases new with ⟨_, hout⟩ | ⟨_, o, hok, _, hrows⟩
    · rw [hout]
      exact (List.append_nil _).symm
    · rw [hrows, hok, List.map_append]
      rfl
  | setState order state =>
    exact (hupdate order (fun r => { r with state := state.asStr }) fun _ => rfl).trans
      (List.append_nil _).symm
  | bindEuicc order eid cert =>
    exact (hupdate order (fun r => { r with eid := some eid, euiccCert := some cert })
      fun _ => rfl).trans (List.append_nil _).symm
  | _ => exact (List.append_nil _).symm

/-- Only adding an order fails, and only for its MatchingID. -/
theorem failedWith_answers (hst : st.Typed) (step : Answers st call st') {e : StoreError}
    (hfailed : failedWith call = some e) :
    ∃ new, call.op = .addOrder new ∧ e = .duplicateMatchingId new.matchingId := by
  obtain ⟨c, answer⟩ := call
  have hanswer : (st.perform c).1 = answer := congrArg Prod.fst step
  subst hanswer
  cases c with
  | addOrder new =>
    refine ⟨new, rfl, ?_⟩
    have hfailed' : failedWith ⟨.addOrder new, (st.addOrder new).1⟩ = some e := hfailed
    rcases st.addOrder_cases new with ⟨_, hout⟩ | ⟨_, o, hok, _⟩
    · rw [hout] at hfailed'
      exact (Option.some.inj hfailed').symm
    · rw [hok] at hfailed'
      cases hfailed'
  | listOrders =>
    obtain ⟨os, hos, _⟩ := hst.listOrders
    have hfailed' : failedWith ⟨.listOrders, st.listOrders⟩ = some e := hfailed
    rw [hos] at hfailed'
    cases hfailed'
  | orderByMatchingId m =>
    obtain ⟨found, hfound, _⟩ := hst.one fun r => r.matchingId = m
    have hfailed' : failedWith ⟨.orderByMatchingId m, st.one fun r => r.matchingId = m⟩ = some e :=
      hfailed
    rw [hfound] at hfailed'
    cases hfailed'
  | orderByIccid iccid =>
    obtain ⟨found, hfound, _⟩ := hst.one fun r => r.iccid = iccid.val
    have hfailed' : failedWith ⟨.orderByIccid iccid, st.one fun r => r.iccid = iccid.val⟩ = some e :=
      hfailed
    rw [hfound] at hfailed'
    cases hfailed'
  | _ => cases hfailed

/-! ## Whole runs -/

/-- **Every order in the map is accounted for.** Induction on the run: an order was there, and is
what the last call made of it, or the last call added it. -/
theorem accountable_of_run (run : StoreRun h st) :
    ∀ i o, st.orderMap i = some o → Accountable h o := by
  induction run with
  | nil =>
    intro i o ho
    cases ho
  | @snoc h st st' call run step ih =>
    intro i o ho
    rw [(typed_of_run run).orderMap_answers step] at ho
    unfold OrderMap.after at ho
    -- what the map holds after the call it held before, unless the call added it
    cases hadded : addedBy call with
    | none =>
      rw [hadded] at ho
      obtain ⟨o', ho', rfl⟩ := Option.map_eq_some_iff.mp ho
      exact (ih i o' ho').snoc ⟨st, call, st'⟩
    | some o' =>
      rw [hadded] at ho
      obtain ⟨new, rfl⟩ := addedBy_eq_some hadded
      dsimp only at ho
      rw [Function.update_apply] at ho
      by_cases hi : i = o'.id
      · rw [if_pos hi] at ho
        obtain rfl := Option.some.inj ho
        exact ⟨h, ⟨st, ⟨.addOrder new, .ok o'⟩, st'⟩, [], new, o', rfl, rfl, rfl,
          (isAsAdded_of_answers step).2⟩
      · rw [if_neg hi] at ho
        exact (ih i o ho).snoc ⟨st, ⟨.addOrder new, .ok o'⟩, st'⟩

/-- The rows are the orders that were added, in the order they were. -/
theorem ids_of_run (run : StoreRun h st) :
    st.orders.rows.map OrderRow.id = (addedOrders h).map Order.id := by
  induction run with
  | nil => rfl
  | @snoc h st st' call run step ih =>
    rw [ids_answers step, ih]
    unfold addedOrders
    rw [List.filterMap_append, List.map_append]
    cases hadded : addedBy call with
    | none => simp [hadded]
    | some o => simp [hadded]

/-- A MatchingID belongs to one row. -/
theorem find?_matchingId {r : OrderRow} (m : String) :
    st.orders.rows.find? (fun r => r.matchingId = m) = some r
      ↔ r ∈ st.orders.rows ∧ r.matchingId = m := by
  constructor
  · intro hfind
    exact ⟨List.mem_of_find?_eq_some hfind, by simpa using List.find?_some hfind⟩
  · rintro ⟨hr, hm⟩
    cases hfind : st.orders.rows.find? (fun r => r.matchingId = m) with
    | none =>
      have hno := List.find?_eq_none.mp hfind r hr
      exact absurd hm (by simpa using hno)
    | some r' =>
      have hm' : r'.matchingId = m := by simpa using List.find?_some hfind
      have hsame := List.inj_on_of_nodup_map st.orders.matchingIds_nodup
        (List.mem_of_find?_eq_some hfind) hr (hm'.trans hm.symm)
      rw [hsame]

theorem listsAdded_of_run {os : List Order} (run : StoreRun h st)
    (hrows : st.orders.rows = os.map Order.toRow) (hmap : ∀ o ∈ os, st.orderMap o.id = some o) :
    ListsAdded h os := by
  have hids := ids_of_run run
  have hincreasing := st.orders.increasing
  have hnodup := st.orders.matchingIds_nodup
  rw [hrows, List.map_map] at hids hnodup
  rw [hrows, List.pairwise_map] at hincreasing
  exact ⟨hids, hincreasing, hnodup,
    fun o ho => accountable_of_run run o.id o (hmap o ho)⟩

theorem answersFor_of_rows {os : List Order} (htyped : st.Typed)
    (hrows : st.orders.rows = os.map Order.toRow) : AnswersFor st os := by
  have hmem : ∀ o : Order, o.toRow ∈ st.orders.rows ↔ o ∈ os := by
    intro o
    rw [hrows]
    exact List.mem_map_of_injective Order.toRow_injective
  constructor
  · intro m
    obtain ⟨found, hfound, hiff⟩ := htyped.one fun r => r.matchingId = m
    refine ⟨found, hfound, ?_⟩
    intro o
    rw [hiff, find?_matchingId, hmem]
    rfl
  · intro new
    -- the UNIQUE column of the rows is that field of the orders
    have hexists : new.matchingId ∈ st.orders.rows.map OrderRow.matchingId
        ↔ ∃ o ∈ os, o.matchingId = new.matchingId := by
      rw [hrows, List.map_map]
      exact List.mem_map
    rw [← hexists]
    rcases st.addOrder_cases new with ⟨hthere, hout⟩ | ⟨hnew, o, hok, _⟩
    · rw [hout]
      exact iff_of_true rfl hthere
    · rw [hok]
      exact iff_of_false (by simp) hnew
  · intro new e herror
    rcases st.addOrder_cases new with ⟨_, hout⟩ | ⟨_, o, hok, _⟩
    · rw [hout]
    · rw [hok] at herror
      cases herror

/-- The first order with an ICCID is the one whose row has it first. -/
theorem find?_iccid {os : List Order} (hrows : st.orders.rows = os.map Order.toRow)
    (iccid : Iccid) :
    st.orders.rows.find? (fun r => r.iccid = iccid.val) = some o.toRow
      ↔ os.find? (fun o => o.iccid = iccid) = some o := by
  have hsame : (fun o : Order => decide (o.toRow.iccid = iccid.val))
      = fun o => decide (o.iccid = iccid) := by
    funext o
    exact decide_eq_decide.mpr Subtype.ext_iff.symm
  rw [hrows, List.find?_map]
  show (os.find? fun o => decide (o.toRow.iccid = iccid.val)).map Order.toRow = _ ↔ _
  rw [hsame, Option.map_eq_some_iff]
  constructor
  · rintro ⟨o', hfind, hrow⟩
    rw [hfind, Order.toRow_injective hrow]
  · exact fun hfind => ⟨o, hfind, rfl⟩

/-- **A call is answered from the orders there are.** -/
theorem answeredFrom_of_answers {os : List Order} (htyped : st.Typed)
    (hos : st.listOrders = .ok os) (hrows : st.orders.rows = os.map Order.toRow)
    (step : Answers st call st') : AnsweredFrom os ⟨st, call, st'⟩ := by
  have hanswers := answersFor_of_rows htyped hrows
  obtain ⟨c, answer⟩ := call
  have hanswer : (st.perform c).1 = answer := congrArg Prod.fst step
  have hafter : (st.perform c).2 = st' := congrArg Prod.snd step
  subst hanswer hafter
  cases c with
  | listOrders => exact hos
  | orderByMatchingId m => exact hanswers.lookup m
  | orderByIccid iccid =>
    obtain ⟨found, hfound, hiff⟩ := htyped.one fun r => r.iccid = iccid.val
    have hsame : found = os.find? fun o => o.iccid = iccid := by
      apply Option.ext
      intro o
      rw [hiff, find?_iccid hrows]
    show st.one (fun r => r.iccid = iccid.val) = _
    rw [hfound, hsame]
  | addOrder new => exact ⟨hanswers.duplicate new, hanswers.unchanged new⟩
  | _ => trivial

/-- **The store refines a map of orders**: it lists the orders that were added, as the history
has them, answers look-ups and additions by them, and nothing else ever fails. Each call of the
history was answered so as well, from the orders there were before it. -/
theorem refines_orderMap (run : StoreRun h st) :
    (∀ x ∈ h, ∀ e, failedWith x.label = some e →
        ∃ new, x.label.op = .addOrder new ∧ e = .duplicateMatchingId new.matchingId)
      ∧ (∀ before x after, h = before ++ x :: after → ∃ os, x.pre.listOrders = .ok os
        ∧ ListsAdded before os ∧ AnsweredFrom os x)
      ∧ ∃ os, st.listOrders = .ok os ∧ ListsAdded h os ∧ AnswersFor st os := by
  have hlisted : ∀ {h' st'}, StoreRun h' st' → ∃ os, st'.listOrders = .ok os ∧ ListsAdded h' os
      ∧ st'.orders.rows = os.map Order.toRow := by
    intro h' st' run
    obtain ⟨os, hos, hrows, hmap⟩ := (typed_of_run run).listOrders
    exact ⟨os, hos, listsAdded_of_run run hrows fun o ho => (hmap o).mp ho, hrows⟩
  refine ⟨?_, ?_, ?_⟩
  · intro x hx e hfailed
    obtain ⟨⟨_, before⟩, step⟩ := run.of_mem hx
    exact failedWith_answers (typed_of_run before) step hfailed
  · rintro before x after rfl
    obtain ⟨hbefore, step, _⟩ := run.split
    obtain ⟨os, hos, hadded, hrows⟩ := hlisted hbefore
    exact ⟨os, hos, hadded, answeredFrom_of_answers (typed_of_run hbefore) hos hrows step⟩
  · obtain ⟨os, hos, hadded, hrows⟩ := hlisted run
    exact ⟨os, hos, hadded, answersFor_of_rows (typed_of_run run) hrows⟩

/-- The state of order 1 is set before there is such an order. Then it is added, bound to an
eUICC and set, and a second order may not have its MatchingID. -/
def twoAdded : List StoreCall :=
  let new : NewOrder := ⟨"A", ⟨List.replicate 10 8, rfl⟩, [7], [0xbf, 0x25]⟩
  [.setState 1 .failed, .addOrder new, .bindEuicc 1 "E" [1], .setState 1 .bound, .addOrder new]

theorem refines_orderMap_twoAdded :
    (∀ x ∈ answered SqliteStore.empty twoAdded, ∀ e, failedWith x.label = some e →
        ∃ new, x.label.op = .addOrder new ∧ e = .duplicateMatchingId new.matchingId)
      ∧ (∀ before x after, answered SqliteStore.empty twoAdded = before ++ x :: after →
        ∃ os, x.pre.listOrders = .ok os ∧ ListsAdded before os ∧ AnsweredFrom os x)
      ∧ ∃ os, (answeredStore SqliteStore.empty twoAdded).listOrders = .ok os
        ∧ ListsAdded (answered SqliteStore.empty twoAdded) os
        ∧ AnswersFor (answeredStore SqliteStore.empty twoAdded) os :=
  refines_orderMap (run_answered SqliteStore.empty twoAdded)

end Smdp
