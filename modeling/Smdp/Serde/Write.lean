import Smdp.Serde.Struct

/-!
# Serde — writing a struct as a JSON object, and reading it back

What a derived `Serialize` makes of a struct with named fields: an object with an entry a field, in
the order of the struct, without the fields that are skipped. `Writers` is to it what `Fields` is to
`Deserialize`.

An object says the same in whatever order its entries come (`Json.Same`), and some writers of JSON
text sort them. `Fields.decode_of_same`: where each field undoes its writer, all that says the same
as what was written of a struct is read as that struct. `Fields.decode_first` and
`Fields.not_decode_of_missing` are about a struct with other fields than those that were written.
-/

namespace Serde

/-! ## Up to the order of the entries -/

/-- The same keys in some order, with values that `R` relates. -/
inductive Reordered (R : Json → Json → Prop) :
    List (String × Json) → List (String × Json) → Prop where
  | nil : Reordered R [] []
  | cons {key : String} {j j' : Json} {entries before after : List (String × Json)}
      (value : R j j') (others : Reordered R entries (before ++ after)) :
      Reordered R ((key, j) :: entries) (before ++ (key, j') :: after)

/-- The same value, but for the order of the entries of the objects in it. -/
inductive Json.Same : Json → Json → Prop where
  | refl (j : Json) : Json.Same j j
  | array {items items' : List Json} (same : List.Forall₂ Json.Same items items') :
      Json.Same (.array items) (.array items')
  | object {entries entries' : List (String × Json)}
      (same : Reordered Json.Same entries entries') :
      Json.Same (.object entries) (.object entries')

variable {δ α β : Type}

theorem Json.Same.null {j : Json} (h : j.Same .null) : j = .null := by
  cases h with
  | refl => rfl

theorem Json.Same.string {s : String} {j : Json} (h : (Json.string s).Same j) : j = .string s := by
  cases h with
  | refl => rfl

theorem Json.Same.bool {b : Bool} {j : Json} (h : (Json.bool b).Same j) : j = .bool b := by
  cases h with
  | refl => rfl

theorem Reordered.refl (entries : List (String × Json)) :
    Reordered Json.Same entries entries := by
  induction entries with
  | nil => exact .nil
  | cons entry entries ih =>
    obtain ⟨key, j⟩ := entry
    show Reordered Json.Same ((key, j) :: entries) ([] ++ (key, j) :: entries)
    exact .cons (.refl j) ih

theorem Json.Same.object_inv {entries : List (String × Json)} {j : Json}
    (h : (Json.object entries).Same j) :
    ∃ entries', j = .object entries' ∧ Reordered Json.Same entries entries' := by
  cases h with
  | refl => exact ⟨entries, rfl, .refl entries⟩
  | object same => exact ⟨_, rfl, same⟩

/-- Under `key` comes what says the same as `value`, once, or nothing comes. -/
def Comes (key : String) (value : Option Json) (entries : List (String × Json)) : Prop :=
  match value with
  | none => valuesOf key entries = []
  | some j => ∃ j', valuesOf key entries = [j'] ∧ j.Same j'

theorem valuesOf_append {key : String} {before after : List (String × Json)} :
    valuesOf key (before ++ after) = valuesOf key before ++ valuesOf key after := by
  simp [valuesOf]

/-- What comes under a key, once or not at all, comes in any other order too. Induction on the
reordering. -/
theorem Reordered.comes {key : String} {entries entries' : List (String × Json)}
    (h : Reordered Json.Same entries entries') {value : Option Json}
    (hvalue : valuesOf key entries = value.toList) : Comes key value entries' := by
  induction h generalizing value with
  | nil =>
    cases value with
    | none => rfl
    | some j => cases hvalue
  | @cons key' j j' entries before after hsame _ ih =>
    -- the entry that was moved, or another; where it went to does not matter to the others
    by_cases hkey : key' = key
    · subst hkey
      rw [valuesOf_cons_self] at hvalue
      cases value with
      | none => cases hvalue
      | some j₀ =>
        obtain ⟨rfl, hothers⟩ : j = j₀ ∧ valuesOf key' entries = [] := by simpa using hvalue
        -- it came once, so there is nothing else before or after it
        have hnone : Comes key' none (before ++ after) := ih hothers
        have hrest : valuesOf key' (before ++ after) = [] := hnone
        rw [valuesOf_append, List.append_eq_nil_iff] at hrest
        refine ⟨j', ?_, hsame⟩
        rw [valuesOf_append, valuesOf_cons_self, hrest.1, hrest.2]
        rfl
    · rw [valuesOf_cons_of_ne hkey] at hvalue
      have hrest : Comes key value (before ++ after) := ih hvalue
      have hskip : valuesOf key (before ++ (key', j') :: after)
          = valuesOf key (before ++ after) := by
        rw [valuesOf_append, valuesOf_cons_of_ne hkey, valuesOf_append]
      unfold Comes at hrest ⊢
      rw [hskip]
      exact hrest

/-! ## Writing -/

/-- A named field as it is written. -/
structure Writer (α : Type) where
  key : String
  /-- The value of the entry, or none where `skip_serializing_if` skips it. -/
  write : α → Option Json

/-- A field that is always there. -/
def required (key : String) (write : α → Json) : Writer α := ⟨key, fun a => some (write a)⟩

/-- `#[serde(skip_serializing_if = "Option::is_none")]`. -/
def skipNone (key : String) (write : α → Json) : Writer (Option α) := ⟨key, Option.map write⟩

/-- The fields of a struct as they are written, in its order. -/
inductive Writers : Type → Type 1 where
  | nil : Writers Unit
  | cons {α β : Type} (writer : Writer α) (rest : Writers β) : Writers (α × β)

namespace Writers

/-- The keys they are written under. -/
def keys : {α : Type} → Writers α → List String
  | _, nil => []
  | _, cons w rest => w.key :: rest.keys

/-- The entries of the object, in the order of the struct. -/
def entries : {α : Type} → Writers α → α → List (String × Json)
  | _, nil, _ => []
  | _, cons w rest, (a, b) =>
    match w.write a with
    | none => rest.entries b
    | some j => (w.key, j) :: rest.entries b

/-- `Serialize` of the struct. -/
def encode (ws : Writers α) (v : α) : Json := .object (ws.entries v)

/-- Under each key comes what its writer made of the value. -/
def Comes : {α : Type} → Writers α → α → List (String × Json) → Prop
  | _, nil, _, _ => True
  | _, cons w rest, (a, b), entries => Serde.Comes w.key (w.write a) entries ∧ rest.Comes b entries

theorem entries_cons {w : Writer α} {rest : Writers β} {a : α} {b : β} :
    (cons w rest).entries (a, b)
      = match w.write a with
        | none => rest.entries b
        | some j => (w.key, j) :: rest.entries b := rfl

theorem valuesOf_cons_of_ne {key : String} {w : Writer α} {rest : Writers β} {a : α} {b : β}
    (hne : w.key ≠ key) :
    valuesOf key ((cons w rest).entries (a, b)) = valuesOf key (rest.entries b) := by
  rw [entries_cons]
  cases w.write a with
  | none => rfl
  | some j => exact Serde.valuesOf_cons_of_ne hne j (rest.entries b)

theorem valuesOf_of_not_mem {key : String} {ws : Writers α} {v : α} (hkey : key ∉ ws.keys) :
    valuesOf key (ws.entries v) = [] := by
  induction ws with
  | nil => rfl
  | cons w rest ih =>
    obtain ⟨a, b⟩ := v
    -- neither the first writer's key, nor one of the others'
    obtain ⟨hne, hrest⟩ := List.ne_and_not_mem_of_not_mem_cons hkey
    rw [valuesOf_cons_of_ne (Ne.symm hne)]
    exact ih hrest

theorem valuesOf_cons_self {w : Writer α} {rest : Writers β} {a : α} {b : β}
    (hkey : w.key ∉ rest.keys) :
    valuesOf w.key ((cons w rest).entries (a, b)) = (w.write a).toList := by
  have hrest : valuesOf w.key (rest.entries b) = [] := valuesOf_of_not_mem hkey
  rw [entries_cons]
  cases w.write a with
  | none => exact hrest
  | some j =>
    show valuesOf w.key ((w.key, j) :: rest.entries b) = _
    rw [Serde.valuesOf_cons_self, hrest]
    rfl

/-- What was written comes, whatever became of the order. Induction on the writers; `written` holds
what was written by those before as well. -/
theorem comes_of_reordered {ws : Writers α} (hkeys : ws.keys.Nodup) {v : α}
    {written read : List (String × Json)}
    (hwritten : ∀ key ∈ ws.keys, valuesOf key written = valuesOf key (ws.entries v))
    (h : Reordered Json.Same written read) : ws.Comes v read := by
  induction ws with
  | nil => trivial
  | cons w rest ih =>
    obtain ⟨a, b⟩ := v
    obtain ⟨hkey, hkeys⟩ := List.nodup_cons.mp hkeys
    obtain ⟨hself, hothers⟩ := List.forall_mem_cons.mp hwritten
    refine ⟨h.comes (hself.trans (valuesOf_cons_self hkey)), ih hkeys fun key hmem => ?_⟩
    have hne : w.key ≠ key := by
      intro heq
      exact hkey (heq ▸ hmem)
    rw [hothers key hmem, valuesOf_cons_of_ne hne]

end Writers

/-! ## Reading back -/

/-- The field reads what the writer wrote, and has the value the writer skipped. -/
structure Field.Undoes (f : Field δ α) (w : Writer α) : Prop where
  key : f.key = w.key
  written : ∀ {a : α} {j j' : Json}, w.write a = some j → j.Same j' → f.decode j' = .ok a
  skipped : ∀ {a : α}, w.write a = none → f.default = some a

section

variable {key : String} {write : α → Json} {decode : Json → Except (Error δ) α}

/-- A field that is always written is undone by what reads each value back. -/
theorem undoes_required {default : Option α}
    (hread : ∀ a j, (write a).Same j → decode j = .ok a) :
    Field.Undoes ⟨key, decode, default⟩ (required key write) where
  key := rfl
  written := by
    intro a j j' hwrite hsame
    cases hwrite
    exact hread a j' hsame
  skipped := by
    intro a hwrite
    cases hwrite

/-- A value that is never null is told from the one that is left out. -/
theorem undoes_skipNone (hread : ∀ a j, (write a).Same j → decode j = .ok a)
    (hnull : ∀ a, write a ≠ .null) :
    Field.Undoes ⟨key, option decode, some none⟩ (skipNone key write) where
  key := rfl
  written := by
    intro a j j' hwrite hsame
    cases a with
    | none => cases hwrite
    | some a =>
      cases hwrite
      -- it was written as a value, so it is not read as `None`
      have hvalue : j' ≠ .null := by
        intro heq
        subst heq
        exact hnull a hsame.null
      show option decode j' = .ok (some a)
      unfold option
      split
      · exact absurd rfl hvalue
      · rw [hread a j' hsame]
        rfl
  skipped := by
    intro a hwrite
    cases a with
    | none => rfl
    | some a => cases hwrite

end

/-- Reading it back does not depend on what a failure would be called. -/
theorem Field.Undoes.mapError {ε : Type} {f : δ → ε} {field : Field δ α} {w : Writer α}
    (h : field.Undoes w) : (field.mapError f).Undoes w where
  key := h.key
  written := by
    intro a j j' hwrite hsame
    show (field.decode j').mapError (Error.map f) = .ok a
    rw [h.written hwrite hsame]
    rfl
  skipped := h.skipped

/-- Where its entry comes, once or skipped, the field has the value that was written. -/
theorem Field.Undoes.finds {f : Field δ α} {w : Writer α} (h : f.Undoes w) {a : α}
    {entries : List (String × Json)} (hcomes : Comes w.key (w.write a) entries) :
    f.Finds entries a := by
  unfold Field.Finds
  rw [h.key]
  cases hwrite : w.write a with
  | none =>
    rw [hwrite] at hcomes
    have hnone : valuesOf w.key entries = [] := hcomes
    rw [hnone]
    exact h.skipped hwrite
  | some j =>
    rw [hwrite] at hcomes
    obtain ⟨j', hone, hsame⟩ := hcomes
    rw [hone]
    exact h.written hwrite hsame

namespace Fields

/-- Field by field. -/
inductive Undoes : {α : Type} → Fields δ α → Writers α → Prop where
  | nil : Undoes .nil .nil
  | cons {α β : Type} {f : Field δ α} {w : Writer α} {fs : Fields δ β} {ws : Writers β}
      (field : f.Undoes w) (rest : Undoes fs ws) : Undoes (.cons f fs) (.cons w ws)

theorem Undoes.keys {fs : Fields δ α} {ws : Writers α} (h : fs.Undoes ws) :
    fs.members.map Member.key = ws.keys := by
  induction h with
  | nil => rfl
  | cons field _ ih =>
    show _ :: _ = _ :: _
    rw [ih]
    exact congrArg (· :: _) field.key

theorem Undoes.finds {fs : Fields δ α} {ws : Writers α} (h : fs.Undoes ws) {v : α}
    {entries : List (String × Json)} (hcomes : ws.Comes v entries) : fs.Finds entries v := by
  induction h with
  | nil => trivial
  | cons field _ ih => exact ⟨field.finds hcomes.1, ih hcomes.2⟩

/-- **What was written is read back**, in whatever order the entries come. -/
theorem decode_of_same {name : String} {fs : Fields δ α} {ws : Writers α} (h : fs.Undoes ws)
    (hkeys : ws.keys.Nodup) {v : α} {j : Json} (hj : (ws.encode v).Same j) :
    fs.decode name j = .ok v := by
  obtain ⟨entries, hobject, hsame⟩ := hj.object_inv
  subst hobject
  have hmembers : (fs.members.map Member.key).Nodup := by rw [h.keys]; exact hkeys
  rw [decode_object_iff hmembers]
  exact h.finds (Writers.comes_of_reordered hkeys (fun _ _ => rfl) hsame)

/-- The same where the defaults hold for objects only: what is written is an object. -/
theorem decodeOption_of_same {γ : Type} {name : String} {fields : Option (Option γ) → Fields δ α}
    {ws : Writers α} (h : (fields (some none)).Undoes ws) (hkeys : ws.keys.Nodup) {v : α} {j : Json}
    (hj : (ws.encode v).Same j) : decodeOption name fields j = .ok v := by
  have hread : (fields (some none)).decode name j = .ok v := decode_of_same h hkeys hj
  obtain ⟨entries, hobject, _⟩ := hj.object_inv
  subst hobject
  exact hread

end Fields

end Serde
