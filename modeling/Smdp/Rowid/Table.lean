import Mathlib.Data.List.Nodup
import Mathlib.Tactic.Common

/-!
# Rowid — tables keyed by an increasing rowid

A table whose rows carry an integer key, kept in increasing key order: what SQLite's
`INTEGER PRIMARY KEY` makes of a table, read `ORDER BY` that key. The order is a field of
`Table`, so two rows of one key cannot be built. Rows are looked up (`row?`), inserted
under the next key (`insert`) and updated in place (`updateWhere`); the lemmas say what
each write does to `row?`, which is all a caller needs.
-/

namespace Rowid

/-- Rows in increasing order of their key. -/
structure Table (ρ : Type) (key : ρ → Int) where
  rows : List ρ
  increasing : rows.Pairwise (fun a b => key a < key b)

namespace Table

variable {ρ : Type} {key : ρ → Int} {r r' : ρ} {i j : Int}

/-- A table with no row in it. -/
def empty : Table ρ key := ⟨[], .nil⟩

/-- One key, one row. -/
theorem eq_of_key_eq (t : Table ρ key) (hr : r ∈ t.rows) (hr' : r' ∈ t.rows)
    (hkey : key r = key r') : r = r' := by
  have hnodup : (t.rows.map key).Nodup :=
    List.pairwise_map.mpr (t.increasing.imp fun h => Int.ne_of_lt h)
  exact List.inj_on_of_nodup_map hnodup hr hr' hkey

/-! ## Lookup -/

/-- `SELECT … WHERE id = i`. -/
def row? (t : Table ρ key) (i : Int) : Option ρ := t.rows.find? (fun r => key r = i)

/-- The row of a key is the row that is there under it: by uniqueness it does not matter that
`find?` takes the first. -/
theorem row?_eq_some {t : Table ρ key} : t.row? i = some r ↔ r ∈ t.rows ∧ key r = i := by
  unfold row?
  constructor
  · intro h
    exact ⟨List.mem_of_find?_eq_some h, by simpa using List.find?_some h⟩
  · rintro ⟨hr, hkey⟩
    cases hfind : t.rows.find? (fun r => key r = i) with
    | none =>
      have := List.find?_eq_none.mp hfind r hr
      simp [hkey] at this
    | some r' =>
      have hr' := List.mem_of_find?_eq_some hfind
      have hkey' : key r' = i := by simpa using List.find?_some hfind
      -- what was found has the key of `r`, so it is `r`
      rw [t.eq_of_key_eq hr' hr (hkey'.trans hkey.symm)]

theorem row?_of_mem {t : Table ρ key} (hr : r ∈ t.rows) : t.row? (key r) = some r :=
  row?_eq_some.mpr ⟨hr, rfl⟩

theorem key_of_row? {t : Table ρ key} (h : t.row? i = some r) : key r = i :=
  (row?_eq_some.mp h).2

theorem mem_of_row? {t : Table ρ key} (h : t.row? i = some r) : r ∈ t.rows :=
  (row?_eq_some.mp h).1

/-- The first row that matches is the matching row of the least key. -/
theorem find?_eq_some_iff (t : Table ρ key) (p : ρ → Bool) :
    t.rows.find? p = some r
      ↔ r ∈ t.rows ∧ p r = true ∧ ∀ r' ∈ t.rows, key r' < key r → p r' = false := by
  rw [List.find?_eq_some_iff_append]
  constructor
  · rintro ⟨hp, as, bs, hrows, hbefore⟩
    have hinc := t.increasing
    rw [hrows] at hinc ⊢
    refine ⟨by simp, hp, ?_⟩
    intro r' hr' hlt
    -- what comes after `r` has a larger key
    have hafter : ∀ b ∈ bs, key r < key b :=
      (List.pairwise_cons.mp (List.pairwise_append.mp hinc).2.1).1
    -- `r'` is before `r`, is `r`, or comes after it
    rcases List.mem_append.mp hr' with hr' | hr'
    · simpa using hbefore r' hr'
    · rcases List.mem_cons.mp hr' with rfl | hr'
      · omega
      · have := hafter r' hr'
        omega
  · rintro ⟨hr, hp, hleast⟩
    obtain ⟨as, bs, hrows⟩ := List.append_of_mem hr
    refine ⟨hp, as, bs, hrows, ?_⟩
    intro a ha
    have hinc := t.increasing
    rw [hrows] at hinc
    have hlt : key a < key r := (List.pairwise_append.mp hinc).2.2 a ha r (by simp)
    have hmem : a ∈ t.rows := by rw [hrows]; exact List.mem_append_left _ ha
    simpa using hleast a hmem hlt

/-! ## Insertion -/

/-- The rowid of the next row: one more than the largest in use, and 1 in an empty table. -/
def nextKey (t : Table ρ key) : Int :=
  match t.rows.getLast? with
  | some r => key r + 1
  | none => 1

theorem key_lt_nextKey (t : Table ρ key) (hr : r ∈ t.rows) : key r < t.nextKey := by
  obtain ⟨rows, hinc⟩ := t
  unfold nextKey
  -- the last row has the largest key
  rcases List.eq_nil_or_concat rows with rfl | ⟨init, last, rfl⟩
  · simp at hr
  · simp only [List.concat_eq_append, List.mem_append, List.mem_singleton] at hr hinc ⊢
    rw [List.getLast?_append, List.getLast?_singleton]
    change key r < key last + 1
    rcases hr with hinit | rfl
    · have hlt : key r < key last :=
        (List.pairwise_append.mp hinc).2.2 r hinit last (by simp)
      omega
    · omega

theorem row?_nextKey (t : Table ρ key) : t.row? t.nextKey = none := by
  rw [Option.eq_none_iff_forall_not_mem]
  intro r hr
  have hlt := t.key_lt_nextKey (mem_of_row? hr)
  have hkey := key_of_row? hr
  omega

/-- `INSERT`: the row `mk` makes of the next key goes to the end. -/
def insert (t : Table ρ key) (mk : Int → ρ) (hmk : ∀ i, key (mk i) = i) : Table ρ key where
  rows := t.rows ++ [mk t.nextKey]
  increasing := by
    refine List.pairwise_append.mpr ⟨t.increasing, List.pairwise_singleton _ _, ?_⟩
    intro a ha b hb
    obtain rfl : b = mk t.nextKey := by simpa using hb
    rw [hmk]
    exact t.key_lt_nextKey ha

@[simp] theorem insert_rows (t : Table ρ key) (mk : Int → ρ) (hmk : ∀ i, key (mk i) = i) :
    (t.insert mk hmk).rows = t.rows ++ [mk t.nextKey] := rfl

/-- After an insert: the new row under the next key, and every other key as it was. With this no
proof about an insert looks at the rows again. -/
theorem row?_insert (t : Table ρ key) (mk : Int → ρ) (hmk : ∀ i, key (mk i) = i) (j : Int) :
    (t.insert mk hmk).row? j = if j = t.nextKey then some (mk t.nextKey) else t.row? j := by
  ext r
  split
  · rename_i hj
    have hnone := t.row?_nextKey
    constructor
    · intro h
      obtain ⟨hr, hkey⟩ := row?_eq_some.mp h
      rcases List.mem_append.mp hr with hr | hr
      · -- no row there has the next key
        exact absurd (row?_eq_some.mpr ⟨hr, hkey.trans hj⟩) (by simp [hnone])
      · exact congrArg some (List.mem_singleton.mp hr).symm
    · intro h
      obtain rfl : mk t.nextKey = r := by simpa using h
      exact row?_eq_some.mpr ⟨by simp, by rw [hmk, hj]⟩
  · rename_i hj
    rw [row?_eq_some, row?_eq_some]
    constructor
    · rintro ⟨hr, hkey⟩
      rcases List.mem_append.mp hr with hr | hr
      · exact ⟨hr, hkey⟩
      · obtain rfl : r = mk t.nextKey := by simpa using hr
        exact absurd ((hmk _).symm.trans hkey).symm hj
    · rintro ⟨hr, hkey⟩
      exact ⟨List.mem_append_left _ hr, hkey⟩

/-- Rows already there stay where they are. -/
theorem row?_insert_of_some (t : Table ρ key) {mk : Int → ρ} (hmk : ∀ i, key (mk i) = i)
    (h : t.row? i = some r) : (t.insert mk hmk).row? i = some r := by
  rw [row?_insert, if_neg, h]
  rintro rfl
  rw [t.row?_nextKey] at h
  cases h

/-! ## Update in place -/

/-- `UPDATE … WHERE id = i`, for a change that leaves the key alone. -/
def updateWhere (t : Table ρ key) (i : Int) (f : ρ → ρ) (hf : ∀ r, key (f r) = key r) :
    Table ρ key where
  rows := t.rows.map (fun r => if key r = i then f r else r)
  increasing := by
    refine List.pairwise_map.mpr (t.increasing.imp ?_)
    intro a b hab
    have hsame : ∀ r, key (if key r = i then f r else r) = key r := by
      intro r
      split
      · exact hf r
      · rfl
    rw [hsame, hsame]
    exact hab

@[simp] theorem updateWhere_rows (t : Table ρ key) (i : Int) (f : ρ → ρ)
    (hf : ∀ r, key (f r) = key r) :
    (t.updateWhere i f hf).rows = t.rows.map (fun r => if key r = i then f r else r) := rfl

/-- After an update: the row of that key changed, and every other key as it was. -/
theorem row?_updateWhere (t : Table ρ key) (i : Int) (f : ρ → ρ)
    (hf : ∀ r, key (f r) = key r) (j : Int) :
    (t.updateWhere i f hf).row? j = if j = i then (t.row? j).map f else t.row? j := by
  have hsame : ∀ r, key (if key r = i then f r else r) = key r := by
    intro r
    split
    · exact hf r
    · rfl
  -- the change keeps the key, so it may be made after the row is found
  have hmap : (t.updateWhere i f hf).row? j
      = (t.row? j).map (fun r => if key r = i then f r else r) := by
    unfold row? updateWhere
    rw [List.find?_map]
    congr 2
    funext r
    simp only [Function.comp, hsame]
  rw [hmap]
  cases hrow : t.row? j with
  | none => simp
  | some r =>
    have hkey := key_of_row? hrow
    by_cases hji : j = i
    · simp [hji, hkey]
    · simp [hji, hkey]

/-! ## Rows without gaps -/

/-- Where nothing was ever deleted, the keys are `1, 2, 3, …`. -/
def Numbered (t : Table ρ key) : Prop :=
  t.rows.map key = (List.range t.rows.length).map fun (k : Nat) => (k : Int) + 1

theorem numbered_empty : (empty : Table ρ key).Numbered := rfl

theorem Numbered.nextKey {t : Table ρ key} (h : t.Numbered) : t.nextKey = t.rows.length + 1 := by
  unfold Numbered at h
  unfold Table.nextKey
  -- by the last row: it carries the largest number
  rcases List.eq_nil_or_concat t.rows with hrows | ⟨init, last, hrows⟩
  · rw [hrows]
    rfl
  · rw [hrows] at h ⊢
    simp only [List.concat_eq_append, List.map_append, List.map_cons, List.map_nil,
      List.length_append, List.length_singleton, List.range_succ] at h ⊢
    have hlast := (List.append_inj_right' h rfl : [key last] = [((init.length : Nat) : Int) + 1])
    rw [List.getLast?_append, List.getLast?_singleton]
    simpa using hlast

theorem Numbered.insert {t : Table ρ key} (h : t.Numbered) (mk : Int → ρ)
    (hmk : ∀ i, key (mk i) = i) : (t.insert mk hmk).Numbered := by
  unfold Numbered at h ⊢
  rw [insert_rows, List.map_append, List.length_append, List.length_singleton, List.range_succ,
    List.map_append, h, List.map_singleton, hmk, nextKey h, List.map_singleton]

/-- An update leaves the numbers alone, and an insert takes the next one. So a table that only these
two write is numbered throughout. -/
theorem Numbered.updateWhere {t : Table ρ key} (h : t.Numbered) (i : Int) (f : ρ → ρ)
    (hf : ∀ r, key (f r) = key r) : (t.updateWhere i f hf).Numbered := by
  unfold Numbered at h ⊢
  rw [updateWhere_rows, List.length_map, ← h, List.map_map]
  apply List.map_congr_left
  intro r _
  show key (if key r = i then f r else r) = key r
  split
  · exact hf r
  · rfl

end Table

end Rowid
