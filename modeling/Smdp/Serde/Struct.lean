import Mathlib.Logic.Basic
import Mathlib.Tactic.Common

/-!
# Serde — reading a struct from a JSON value

What a derived `Deserialize` makes of a JSON value, for a struct with named fields. An object is
gone through entry by entry: a key no field has is ignored, a field that was read before is an
error, and a field that never came is what its attributes say. An array is read field by field, in
the order of the struct, and has to end with it.

A struct is the list of its fields (`Fields`), and the values read are a product. A field brings
its own reader, which may fail in its own ways `δ`.

* `Fields.decode_object_iff`: what an object is read as, field by field.
* `Fields.decode_ok_iff`: a struct is read exactly where every member of it is there once, as
  `Fits` spells out without reading anything.
* `Fields.decode_custom`: it fails in no way of that kind that its fields do not.
-/

namespace Serde

/-- A JSON value as it was written: an object's entries in their order, with the keys that come
twice. -/
inductive Json where
  | null
  | bool (b : Bool)
  | number (text : String)
  | string (s : String)
  | array (items : List Json)
  | object (entries : List (String × Json))

/-- What a value is called in an error. -/
def Json.unexpected : Json → String
  | .null => "null"
  | .bool _ => "boolean"
  | .number _ => "number"
  | .string _ => "string"
  | .array _ => "sequence"
  | .object _ => "map"

/-- What reading can fail with: a fault of a field's own reader, or one of serde's. -/
inductive Error (δ : Type) where
  /-- What a field's own reader reports. -/
  | custom (e : δ)
  | invalidType (unexpected expected : String)
  | invalidLength (n : Nat)
  | missingField (field : String)
  | duplicateField (field : String)
  /-- An array goes on after the last field. -/
  | trailing

variable {δ ε α β : Type}

/-- A failure of one kind, as one of another. -/
def Error.map (f : δ → ε) : Error δ → Error ε
  | .custom e => .custom (f e)
  | .invalidType unexpected expected => .invalidType unexpected expected
  | .invalidLength n => .invalidLength n
  | .missingField field => .missingField field
  | .duplicateField field => .duplicateField field
  | .trailing => .trailing

/-! ## Values that are not structs -/

/-- `String::deserialize`. -/
def string : Json → Except (Error δ) String
  | .string s => .ok s
  | j => .error (.invalidType j.unexpected "a string")

/-- `bool::deserialize`. -/
def bool : Json → Except (Error δ) Bool
  | .bool b => .ok b
  | j => .error (.invalidType j.unexpected "a boolean")

/-- `Option::deserialize`. -/
def option (decode : Json → Except (Error δ) α) : Json → Except (Error δ) (Option α)
  | .null => .ok none
  | j => (decode j).map some

theorem string_ok_iff {j : Json} :
    (∃ s, string (δ := δ) j = .ok s) ↔ ∃ s, j = .string s := by
  cases j <;> simp [string]

theorem bool_ok_iff {j : Json} : (∃ b, bool (δ := δ) j = .ok b) ↔ ∃ b, j = .bool b := by
  cases j <;> simp [bool]

theorem string_ne_custom {j : Json} {e : δ} : string j ≠ .error (.custom e) := by
  cases j <;> simp [string]

theorem bool_ne_custom {j : Json} {e : δ} : bool j ≠ .error (.custom e) := by
  cases j <;> simp [bool]

section

variable {decode : Json → Except (Error δ) α} {j : Json}

/-- An option is read from null, and from whatever its value is read from. -/
theorem option_ok_iff :
    (∃ a, option decode j = .ok a) ↔ j = .null ∨ ∃ a, decode j = .ok a := by
  unfold option
  split
  · simp
  · rename_i hnull
    have hne : j ≠ .null := fun h => hnull h
    cases hread : decode j with
    | error e => simp [hne, Except.map]
    | ok a => simp [Except.map]

/-- An option fails as its value does: null never fails. -/
theorem option_custom {P : δ → Prop} (hdecode : ∀ e, decode j = .error (.custom e) → P e) {e : δ}
    (h : option decode j = .error (.custom e)) : P e := by
  unfold option at h
  split at h
  · cases h
  · cases hread : decode j with
    | error e' =>
      rw [hread] at h
      cases h
      exact hdecode e hread
    | ok a =>
      rw [hread] at h
      cases h

end

/-! ## Fields -/

/-- A named field: its key, how its value is read, and what it is where the key does not come. -/
structure Field (δ α : Type) where
  key : String
  decode : Json → Except (Error δ) α
  /-- The value of `#[serde(default)]`, if the field has that attribute. -/
  default : Option α

/-- The field in a struct that fails in other ways. -/
def Field.mapError (f : δ → ε) (field : Field δ α) : Field ε α :=
  ⟨field.key, fun j => (field.decode j).mapError (Error.map f), field.default⟩

/-- The fields of a struct, in its order. The values they read make a product, field by field. -/
inductive Fields (δ : Type) : Type → Type 1 where
  | nil : Fields δ Unit
  | cons {α β : Type} (field : Field δ α) (rest : Fields δ β) : Fields δ (α × β)

/-- The field's value where its key does not come. -/
def Field.absent (f : Field δ α) : Except (Error δ) α :=
  match f.default with
  | some a => .ok a
  | none => .error (.missingField f.key)

/-- An entry under the field's key, after what has been read of the field. -/
def Field.visit (f : Field δ α) (j : Json) : Option α → Except (Error δ) (Option α)
  | some _ => .error (.duplicateField f.key)
  | none =>
    match f.decode j with
    | .error e => .error e
    | .ok a => .ok (some a)

/-- The field's value after the last entry. -/
def Field.value (f : Field δ α) : Option α → Except (Error δ) α
  | some a => .ok a
  | none => f.absent

/-- The field's value from the items of an array that are left, `n` of which have been read. -/
def Field.item (f : Field δ α) (n : Nat) : List Json → Except (Error δ) α
  | j :: _ => f.decode j
  | [] =>
    match f.default with
    | some a => .ok a
    | none => .error (.invalidLength n)

namespace Fields

/-- What has been read so far, field by field. -/
@[reducible] def Slots : {α : Type} → Fields δ α → Type
  | _, nil => Unit
  | _, @cons _ α _ _ rest => Option α × rest.Slots

/-- Nothing has been read. -/
def start : {α : Type} → (fs : Fields δ α) → fs.Slots
  | _, nil => ()
  | _, cons _ rest => (none, rest.start)

/-- One entry of an object. -/
def visit (key : String) (j : Json) :
    {α : Type} → (fs : Fields δ α) → fs.Slots → Except (Error δ) fs.Slots
  | _, nil, slots => .ok slots
  | _, cons f rest, slots =>
    let (slot, others) : Option _ × rest.Slots := slots
    if key = f.key then
      match f.visit j slot with
      | .error e => .error e
      | .ok slot => .ok (slot, others)
    else
      match visit key j rest others with
      | .error e => .error e
      | .ok others => .ok (slot, others)

/-- The entries of an object, in turn. -/
def visitAll (fs : Fields δ α) : List (String × Json) → fs.Slots → Except (Error δ) fs.Slots
  | [], slots => .ok slots
  | (key, j) :: entries, slots =>
    match visit key j fs slots with
    | .error e => .error e
    | .ok slots => visitAll fs entries slots

/-- The value, after the last entry. -/
def finish : {α : Type} → (fs : Fields δ α) → fs.Slots → Except (Error δ) α
  | _, nil, _ => .ok ()
  | _, cons f rest, slots =>
    let (slot, others) : Option _ × rest.Slots := slots
    match f.value slot with
    | .error e => .error e
    | .ok a =>
      match finish rest others with
      | .error e => .error e
      | .ok b => .ok (a, b)

/-- The items of an array, `n` of which have been read. -/
def visitSeq (n : Nat) : {α : Type} → Fields δ α → List Json → Except (Error δ) α
  | _, nil, [] => .ok ()
  | _, nil, _ :: _ => .error .trailing
  | _, cons f rest, items =>
    match f.item n items with
    | .error e => .error e
    | .ok a =>
      match visitSeq (n + 1) rest items.tail with
      | .error e => .error e
      | .ok b => .ok (a, b)

/-- `Deserialize` of the struct called `name`. -/
def decode (name : String) (fs : Fields δ α) : Json → Except (Error δ) α
  | .object entries =>
    match fs.visitAll entries fs.start with
    | .error e => .error e
    | .ok slots => fs.finish slots
  | .array items => fs.visitSeq 0 items
  | j => .error (.invalidType j.unexpected ("struct " ++ name))

/-- `Deserialize` of a struct with fields that are an `Option` and have no `#[serde(default)]`: an
object may leave them out, but an array may not. `fields` is told what they default to. -/
def decodeOption {γ : Type} (name : String) (fields : Option (Option γ) → Fields δ α) :
    Json → Except (Error δ) α
  | .array items => (fields none).decode name (.array items)
  | j => (fields (some none)).decode name j

/-! ## What is accepted -/

end Fields

/-- A field as the one who writes the value sees it. -/
structure Member where
  key : String
  /-- It may be left out. -/
  optional : Prop
  Admits : Json → Prop

/-- What stands under `key`, each time it comes. -/
def valuesOf (key : String) (entries : List (String × Json)) : List Json :=
  (entries.filter fun entry => entry.1 = key).map Prod.snd

/-- The key comes once, with a value the member admits, or not at all. -/
def Member.GivenIn (m : Member) (entries : List (String × Json)) : Prop :=
  match valuesOf m.key entries with
  | [] => m.optional
  | [j] => m.Admits j
  | _ => False

/-- The items are the members in their order; those at the end may be left out. -/
def ListedIn : List Member → List Json → Prop
  | [], items => items = []
  | m :: ms, [] => m.optional ∧ ListedIn ms []
  | m :: ms, j :: items => m.Admits j ∧ ListedIn ms items

/-- **What a struct accepts**, said of the value alone: every member given where it is an object,
the members in their order where it is an array, and nothing else. -/
def Fits (members : List Member) : Json → Prop
  | .object entries => ∀ m ∈ members, m.GivenIn entries
  | .array items => ListedIn members items
  | _ => False

/-- A field as a member: it may be left out if it has a default, and admits what it reads. -/
def Field.member (f : Field δ α) : Member where
  key := f.key
  optional := f.default.isSome
  Admits j := ∃ a, f.decode j = .ok a

namespace Fields

/-- The members, in the same order. -/
def members : {α : Type} → Fields δ α → List Member
  | _, nil => []
  | _, cons f rest => f.member :: rest.members

end Fields

/-- What one field makes of the entries of an object. -/
def Field.collect (f : Field δ α) : List (String × Json) → Option α → Except (Error δ) (Option α)
  | [], slot => .ok slot
  | (key, j) :: entries, slot =>
    if key = f.key then
      match f.visit j slot with
      | .error e => .error e
      | .ok slot => f.collect entries slot
    else
      f.collect entries slot

@[simp] theorem valuesOf_nil (key : String) : valuesOf key [] = [] := rfl

theorem valuesOf_cons_self (key : String) (j : Json) (entries : List (String × Json)) :
    valuesOf key ((key, j) :: entries) = j :: valuesOf key entries := by
  simp [valuesOf]

theorem valuesOf_cons_of_ne {key key' : String} (hne : key' ≠ key) (j : Json)
    (entries : List (String × Json)) :
    valuesOf key ((key', j) :: entries) = valuesOf key entries := by
  simp [valuesOf, hne]

/-- A field that was read is not to come again. -/
theorem Field.collect_some {f : Field δ α} {a : α} {entries : List (String × Json)}
    {slot : Option α} :
    f.collect entries (some a) = .ok slot ↔ valuesOf f.key entries = [] ∧ slot = some a := by
  induction entries with
  | nil => simp [Field.collect, eq_comm]
  | cons entry entries ih =>
    obtain ⟨key, j⟩ := entry
    unfold Field.collect
    split
    · rename_i hkey
      -- it was read before, so an entry under its key is a duplicate whatever it holds
      subst hkey
      rw [valuesOf_cons_self]
      simp [Field.visit]
    · rename_i hne
      rw [valuesOf_cons_of_ne hne]
      exact ih

/-- The entries give the field the value `a`. -/
def Field.Finds (f : Field δ α) (entries : List (String × Json)) (a : α) : Prop :=
  match valuesOf f.key entries with
  | [] => f.default = some a
  | [j] => f.decode j = .ok a
  | _ => False

section

variable {f : Field δ α} {a : α} {key : String} {j : Json} {entries : List (String × Json)}

theorem Field.finds_nil : f.Finds [] a ↔ f.default = some a := Iff.rfl

theorem Field.finds_cons_self (hkey : key = f.key) :
    f.Finds ((key, j) :: entries) a ↔ f.decode j = .ok a ∧ valuesOf f.key entries = [] := by
  subst hkey
  unfold Field.Finds
  rw [valuesOf_cons_self]
  cases valuesOf f.key entries with
  | nil => simp
  | cons j' rest => simp

theorem Field.finds_cons_of_ne (hne : key ≠ f.key) :
    f.Finds ((key, j) :: entries) a ↔ f.Finds entries a := by
  unfold Field.Finds
  rw [valuesOf_cons_of_ne hne]

/-- After the last entry a field has the value the entries give it. -/
theorem Field.collect_none :
    (∃ slot, f.collect entries none = .ok slot ∧ f.value slot = .ok a) ↔ f.Finds entries a := by
  induction entries with
  | nil =>
    rw [finds_nil]
    cases hdefault : f.default with
    | some a => simp [Field.collect, Field.value, Field.absent, hdefault]
    | none => simp [Field.collect, Field.value, Field.absent, hdefault]
  | cons entry entries ih =>
    obtain ⟨key, j⟩ := entry
    unfold Field.collect
    split
    · rename_i hkey
      rw [finds_cons_self hkey]
      -- once it was read, the field must not come again
      unfold Field.visit
      cases f.decode j with
      | error e => simp
      | ok a' => simp [Field.collect_some, Field.value, and_comm]
    · rename_i hne
      rw [finds_cons_of_ne hne]
      exact ih

/-- It has some value where it was given. -/
theorem Field.exists_finds : (∃ a, f.Finds entries a) ↔ f.member.GivenIn entries := by
  unfold Field.Finds Member.GivenIn Field.member
  dsimp only
  split
  · exact Option.isSome_iff_exists.symm
  · exact Iff.rfl
  · simp

end

namespace Fields

/-- An entry of another name leaves the fields as they are. -/
theorem visit_of_not_mem {key : String} {j : Json} {fs : Fields δ α} {slots : fs.Slots}
    (hkey : key ∉ fs.members.map Member.key) : visit key j fs slots = .ok slots := by
  induction fs with
  | nil => rfl
  | cons f rest ih =>
    have hne : key ≠ f.key := by
      intro heq
      exact hkey (by simp [members, Field.member, heq])
    have hrest : key ∉ rest.members.map Member.key := by
      intro hmem
      exact hkey (List.mem_cons_of_mem _ hmem)
    unfold visit
    obtain ⟨slot, others⟩ := slots
    dsimp only
    rw [if_neg hne, ih hrest]

/-- An entry, as the first field and the others see it. -/
theorem visit_cons {key : String} {j : Json} {f : Field δ α} {rest : Fields δ β}
    {slot : Option α} {others : rest.Slots} :
    visit key j (cons f rest) (slot, others)
      = if key = f.key then
          match f.visit j slot with
          | .error e => .error e
          | .ok slot => .ok (slot, others)
        else
          match visit key j rest others with
          | .error e => .error e
          | .ok others => .ok (slot, others) := rfl

/-- **The fields are read apart.** The entries of an object are read into a struct where they are
read into its first field and into the others. Induction on the entries. -/
theorem visitAll_cons {f : Field δ α} {rest : Fields δ β}
    (hkey : f.key ∉ rest.members.map Member.key) {entries : List (String × Json)}
    {slot slot' : Option α} {others others' : rest.Slots} :
    (cons f rest).visitAll entries (slot, others) = .ok (slot', others')
      ↔ f.collect entries slot = .ok slot' ∧ rest.visitAll entries others = .ok others' := by
  induction entries generalizing slot others with
  | nil =>
    show Except.ok (slot, others) = Except.ok (slot', others') ↔ _
    simp [Field.collect, visitAll]
  | cons entry entries ih =>
    obtain ⟨key, j⟩ := entry
    unfold visitAll Field.collect
    rw [visit_cons]
    by_cases heq : key = f.key
    · -- the entry is the first field's, and the others do not see it
      have hskip : visit key j rest others = .ok others :=
        visit_of_not_mem (by rw [heq]; exact hkey)
      rw [if_pos heq, if_pos heq, hskip]
      cases f.visit j slot with
      | error e => simp
      | ok slot => exact ih
    · rw [if_neg heq, if_neg heq]
      cases visit key j rest others with
      | error e => simp
      | ok others => exact ih

theorem finish_cons {f : Field δ α} {rest : Fields δ β} {slot : Option α} {others : rest.Slots} :
    (cons f rest).finish (slot, others)
      = match f.value slot with
        | .error e => .error e
        | .ok a =>
          match rest.finish others with
          | .error e => .error e
          | .ok b => .ok (a, b) := rfl

/-- A struct's value is the values of its fields. -/
theorem finish_cons_ok {f : Field δ α} {rest : Fields δ β} {slot : Option α} {others : rest.Slots}
    {a : α} {b : β} : (cons f rest).finish (slot, others) = .ok (a, b)
      ↔ f.value slot = .ok a ∧ rest.finish others = .ok b := by
  rw [finish_cons]
  cases f.value slot with
  | error e => simp
  | ok a' =>
    cases rest.finish others with
    | error e => simp
    | ok b' => simp

theorem visitAll_nil {entries : List (String × Json)} :
    visitAll (nil : Fields δ Unit) entries () = .ok () := by
  induction entries with
  | nil => rfl
  | cons entry entries ih => exact ih

/-- The entries give the fields the values of `v`. -/
def Finds : {α : Type} → Fields δ α → List (String × Json) → α → Prop
  | _, nil, _, _ => True
  | _, cons f rest, entries, (a, b) => f.Finds entries a ∧ rest.Finds entries b

/-- **What an object is read as.** Induction on the fields. -/
theorem object_eq_ok_iff {fs : Fields δ α} (hkeys : (fs.members.map Member.key).Nodup)
    {entries : List (String × Json)} {v : α} :
    (∃ slots, fs.visitAll entries fs.start = .ok slots ∧ fs.finish slots = .ok v)
      ↔ fs.Finds entries v := by
  induction fs with
  | nil =>
    constructor
    · intro _
      trivial
    · intro _
      exact ⟨(), visitAll_nil, rfl⟩
  | cons f rest ih =>
    -- no other field has the first one's key, so the entries fall apart into its own and theirs
    obtain ⟨hkey, hkeys⟩ := List.nodup_cons.mp hkeys
    obtain ⟨a, b⟩ := v
    show _ ↔ f.Finds entries a ∧ rest.Finds entries b
    rw [← ih hkeys, ← Field.collect_none]
    constructor
    · intro ⟨⟨slot, others⟩, hvisit, hfinish⟩
      obtain ⟨hslot, hothers⟩ := (visitAll_cons hkey).mp hvisit
      obtain ⟨ha, hb⟩ := finish_cons_ok.mp hfinish
      exact ⟨⟨slot, hslot, ha⟩, others, hothers, hb⟩
    · intro ⟨⟨slot, hslot, ha⟩, others, hothers, hb⟩
      exact ⟨(slot, others), (visitAll_cons hkey).mpr ⟨hslot, hothers⟩,
        finish_cons_ok.mpr ⟨ha, hb⟩⟩

/-- There are such values where every member is given. -/
theorem exists_finds {fs : Fields δ α} {entries : List (String × Json)} :
    (∃ v, fs.Finds entries v) ↔ ∀ m ∈ fs.members, m.GivenIn entries := by
  induction fs with
  | nil =>
    constructor
    · intro _ m hm
      cases hm
    · intro _
      exact ⟨(), trivial⟩
  | cons f rest ih =>
    show _ ↔ ∀ m ∈ f.member :: rest.members, m.GivenIn entries
    rw [List.forall_mem_cons, ← ih, ← Field.exists_finds]
    constructor
    · intro ⟨(a, b), ha, hb⟩
      exact ⟨⟨a, ha⟩, b, hb⟩
    · -- a value for each field makes a value of the struct
      intro ⟨⟨a, ha⟩, b, hb⟩
      exact ⟨(a, b), ha, hb⟩

/-- `Deserialize` of an object. -/
theorem decode_object_iff {name : String} {fs : Fields δ α}
    (hkeys : (fs.members.map Member.key).Nodup) {entries : List (String × Json)} {v : α} :
    fs.decode name (.object entries) = .ok v ↔ fs.Finds entries v := by
  rw [← object_eq_ok_iff hkeys]
  unfold decode
  dsimp only
  cases fs.visitAll entries fs.start with
  | error e => simp
  | ok slots => simp

/-- An array is read where its items are the members. Induction on the fields. -/
theorem array_ok_iff {fs : Fields δ α} {n : Nat} {items : List Json} :
    (∃ a, fs.visitSeq n items = .ok a) ↔ ListedIn fs.members items := by
  induction fs generalizing n items with
  | nil =>
    cases items with
    | nil => simp [visitSeq, members, ListedIn]
    | cons j items => simp [visitSeq, members, ListedIn]
  | cons f rest ih =>
    -- the first item is the first field's, or there is none and it has a default
    have hrest : (∃ v, (cons f rest).visitSeq n items = .ok v)
        ↔ (∃ a, f.item n items = .ok a) ∧ ListedIn rest.members items.tail := by
      rw [← ih, visitSeq.eq_3]
      cases f.item n items with
      | error e => simp
      | ok a =>
        cases rest.visitSeq (n + 1) items.tail with
        | error e => simp
        | ok b => simp
    rw [hrest]
    cases items with
    | nil =>
      show (∃ a, f.item n [] = .ok a) ∧ _ ↔ f.member.optional ∧ _
      unfold Field.item Field.member
      cases f.default with
      | some a => simp
      | none => simp
    | cons j items => exact Iff.rfl

/-- **What a struct accepts.** It is read exactly where its members are given, each once. -/
theorem decode_ok_iff {name : String} {fs : Fields δ α}
    (hkeys : (fs.members.map Member.key).Nodup) {j : Json} :
    (∃ a, fs.decode name j = .ok a) ↔ Fits fs.members j := by
  cases j with
  | object entries =>
    show _ ↔ ∀ m ∈ fs.members, m.GivenIn entries
    rw [← exists_finds]
    exact exists_congr fun v => decode_object_iff hkeys
  -- an array has no keys: it is the order of the items that counts
  | array items => exact array_ok_iff
  | null | bool | number | string => simp [decode, Fits]

/-! ## Where errors come from -/

end Fields

/-- The field's own reader fails in no other way than `P`. -/
def Field.FailBy (P : δ → Prop) (f : Field δ α) : Prop :=
  ∀ j e, f.decode j = .error (.custom e) → P e

namespace Fields

/-- No field of it has faults other than `P`. -/
def FailBy (P : δ → Prop) : {α : Type} → Fields δ α → Prop
  | _, nil => True
  | _, cons f rest => f.FailBy P ∧ rest.FailBy P

variable {P : δ → Prop}

theorem slot_custom {f : Field δ α} (hfield : f.FailBy P) {j : Json} {e : δ} {slot : Option α}
    (h : f.visit j slot = .error (.custom e)) : P e := by
  unfold Field.visit at h
  cases slot with
  | some a => cases h
  | none =>
    dsimp only at h
    split at h
    · rename_i e' he
      cases h
      exact hfield j e he
    · cases h

theorem visit_custom {key : String} {j : Json} {e : δ} {fs : Fields δ α} (hfs : fs.FailBy P)
    {slots : fs.Slots} (h : visit key j fs slots = .error (.custom e)) : P e := by
  induction fs with
  | nil => cases h
  | cons f rest ih =>
    obtain ⟨hfield, hrest⟩ := hfs
    obtain ⟨slot, others⟩ := slots
    rw [visit_cons] at h
    -- is the entry the first field's?
    split at h
    · split at h
      · rename_i e' he
        cases h
        exact slot_custom hfield he
      · cases h
    · split at h
      · rename_i e' he
        cases h
        exact ih hrest he
      · cases h

/-- A fault of an object is the fault of one of its entries. Induction on the entries. -/
theorem visitAll_custom {fs : Fields δ α} (hfs : fs.FailBy P) {entries : List (String × Json)}
    {slots : fs.Slots} {e : δ} (h : fs.visitAll entries slots = .error (.custom e)) : P e := by
  induction entries generalizing slots with
  | nil => cases h
  | cons entry entries ih =>
    unfold visitAll at h
    split at h
    · rename_i e' he
      cases h
      exact visit_custom hfs he
    · exact ih h

theorem absent_ne_custom {f : Field δ α} {e : δ} : f.absent ≠ .error (.custom e) := by
  unfold Field.absent
  cases f.default with
  | some a => simp
  | none => simp

theorem finish_ne_custom {e : δ} {fs : Fields δ α} {slots : fs.Slots} :
    fs.finish slots ≠ .error (.custom e) := by
  induction fs with
  | nil => simp [finish]
  | cons f rest ih =>
    intro h
    obtain ⟨slot, others⟩ := slots
    rw [finish_cons] at h
    split at h
    · rename_i e' he
      cases h
      cases slot with
      | some a => cases he
      | none => exact absent_ne_custom he
    · split at h
      · rename_i e' he
        cases h
        exact ih he
      · cases h

/-- In an array, likewise, a fault is that of the item a field reads. Induction on the fields. -/
theorem visitSeq_custom {n : Nat} {e : δ} {fs : Fields δ α} (hfs : fs.FailBy P)
    {items : List Json} (h : visitSeq n fs items = .error (.custom e)) : P e := by
  induction fs generalizing n items with
  | nil => cases items <;> cases h
  | cons f rest ih =>
    obtain ⟨hfield, hrest⟩ := hfs
    unfold visitSeq at h
    split at h
    · rename_i e' he
      cases h
      cases items with
      | nil =>
        unfold Field.item at he
        dsimp only at he
        split at he <;> cases he
      | cons j items => exact hfield j e he
    · split at h
      · rename_i e' he
        cases h
        exact ih hrest he
      · cases h

/-- **A struct fails by itself, or as one of its fields does.** -/
theorem decode_custom {name : String} {fs : Fields δ α} (hfs : fs.FailBy P) {j : Json} {e : δ}
    (h : fs.decode name j = .error (.custom e)) : P e := by
  cases j with
  | object entries =>
    unfold decode at h
    dsimp only at h
    split at h
    · rename_i e' he
      cases h
      exact visitAll_custom hfs he
    · exact absurd h finish_ne_custom
  | array items => exact visitSeq_custom hfs h
  | null | bool | number | string => cases h

end Fields

end Serde
