import Mathlib.Data.String.Basic
import Smdp.Hex
import Smdp.Serde.Write

/-!
# Smdp — encoding rules the ES9+ JSON binding does not share with ordinary JSON (`es9/wire.rs`)

`from_hex` counts the bytes of the string and then cuts its characters in twos, so the last piece
may be one character, and reading its second digit would panic. It never does (`fromHex_cases`): a
piece is short only where the number of characters is odd, the digits before it were read, and a
digit is one byte, so the number of bytes was odd as well. What it returns is what the string
spells.

base64 is another crate's; its `STANDARD.encode` and `STANDARD.decode` are parameters.
-/

namespace Smdp

/-- `WireError`, the ways hexadecimal is not read. -/
inductive WireError where
  | oddLength (n : Nat)
  | notHex (c : Char)
  deriving DecidableEq

/-! ## Hexadecimal -/

/-- `p[i]` of a piece. -/
def digitAt (p : List Char) (i : Nat) : Panicking Char :=
  match p[i]? with
  | some c => .ok c
  | none => .error (.indexOutOfRange i p.length)

/-- `d`, the reader of one digit. -/
def hexDigit (c : Char) : Except WireError UInt8 :=
  match toDigit16 c with
  | some v => .ok (UInt8.ofNat v)
  | none => .error (.notHex c)

/-- `(d(p[0])? << 4) | d(p[1])?`. -/
def hexByte (p : List Char) : Panicking (Except WireError UInt8) := do
  match hexDigit (← digitAt p 0) with
  | .error e => return .error e
  | .ok high =>
    -- the index that would be out of range in a piece of one
    match hexDigit (← digitAt p 1) with
    | .error e => return .error e
    | .ok low => return .ok ((high <<< 4) ||| low)

/-- `chunks(2)`. -/
def chunks2 : List Char → List (List Char)
  | [] => []
  | [c] => [[c]]
  | c :: c' :: cs => [c, c'] :: chunks2 cs

/-- `map(..).collect()`: the first piece that fails ends it. -/
def hexBytes : List (List Char) → Panicking (Except WireError Bytes)
  | [] => .ok (.ok [])
  | p :: ps => do
    match ← hexByte p with
    | .error e => return .error e
    | .ok b =>
      match ← hexBytes ps with
      | .error e => return .error e
      | .ok bs => return .ok (b :: bs)

/-- `from_hex`: an odd number of octets is refused at once, and the rest is read in pieces of two
characters. -/
def fromHex (s : String) : Panicking (Except WireError Bytes) :=
  -- `s.len()` counts octets, and `chars` below counts characters
  if s.utf8ByteSize % 2 ≠ 0 then .ok (.error (.oddLength s.utf8ByteSize))
  else hexBytes (chunks2 s.toList)

/-- `to_hex_upper`. -/
def toHexUpper (b : Bytes) : String := String.ofList (formatHex upperDigit b)

/-! ## What `from_hex` reads -/

/-- A hexadecimal digit, in either case. -/
def IsHexDigit (c : Char) : Prop := (toDigit16 c).isSome

instance (c : Char) : Decidable (IsHexDigit c) := inferInstanceAs (Decidable (_ = true))

/-- An even number of hexadecimal digits. -/
def IsHex (s : String) : Prop := s.toList.length % 2 = 0 ∧ ∀ c ∈ s.toList, IsHexDigit c

theorem hexDigit_of_toDigit16 {c : Char} {v : Nat} (hv : toDigit16 c = some v) :
    hexDigit c = .ok (UInt8.ofNat v) := by
  unfold hexDigit
  rw [hv]

theorem hexDigit_of_not {c : Char} (hc : ¬ IsHexDigit c) : hexDigit c = .error (.notHex c) := by
  unfold IsHexDigit at hc
  unfold hexDigit
  cases hv : toDigit16 c with
  | some v => simp [hv] at hc
  | none => rfl

/-- A digit is ASCII. -/
theorem utf8Size_of_isHexDigit {c : Char} (hc : IsHexDigit c) : c.utf8Size = 1 := by
  have hlt : c.toNat < 103 := (isSome_toDigit16.mp hc).toNat_lt
  have hascii : c.val.toNat ≤ 127 := by
    show c.toNat ≤ 127
    omega
  exact Char.utf8Size_eq_one_iff.mpr hascii

theorem utf8Len_of_isHexDigit {cs : List Char} (hcs : ∀ c ∈ cs, IsHexDigit c) :
    String.utf8Len cs = cs.length := by
  induction cs with
  | nil => rfl
  | cons c cs ih =>
    have hone := utf8Size_of_isHexDigit (hcs c List.mem_cons_self)
    have hrest := ih fun c' hc' => hcs c' (List.mem_cons_of_mem _ hc')
    rw [String.utf8Len_cons, hone, hrest, List.length_cons]

theorem byte_of_halves : ∀ v < 16, ∀ v' < 16,
    (UInt8.ofNat v <<< 4) ||| UInt8.ofNat v' = UInt8.ofNat (16 * v + v') := by decide

/-- A whole piece is read, or one of its characters is reported. -/
theorem hexByte_pair (c c' : Char) :
    (∃ v v', toDigit16 c = some v ∧ toDigit16 c' = some v'
        ∧ hexByte [c, c'] = .ok (.ok (UInt8.ofNat (16 * v + v'))))
      ∨ (¬ (IsHexDigit c ∧ IsHexDigit c') ∧ ∃ e, hexByte [c, c'] = .ok (.error e)) := by
  by_cases hc : IsHexDigit c
  · obtain ⟨v, hv⟩ := Option.isSome_iff_exists.mp hc
    have hhigh := hexDigit_of_toDigit16 hv
    by_cases hc' : IsHexDigit c'
    · obtain ⟨v', hv'⟩ := Option.isSome_iff_exists.mp hc'
      refine Or.inl ⟨v, v', hv, hv', ?_⟩
      rw [← byte_of_halves v (digit_of_toDigit16 hv).1 v' (digit_of_toDigit16 hv').1]
      have hlow := hexDigit_of_toDigit16 hv'
      simp [hexByte, digitAt, hhigh, hlow, bind, Except.bind, pure, Except.pure]
    · refine Or.inr ⟨fun h => hc' h.2, .notHex c', ?_⟩
      simp [hexByte, digitAt, hhigh, hexDigit_of_not hc', bind, Except.bind, pure, Except.pure]
  · refine Or.inr ⟨fun h => hc h.1, .notHex c, ?_⟩
    simp [hexByte, digitAt, hexDigit_of_not hc, bind, Except.bind, pure, Except.pure]

/-- What is left over is reported, or its second digit is missing. -/
theorem hexByte_single (c : Char) :
    (IsHexDigit c ∧ hexByte [c] = .error (.indexOutOfRange 1 1))
      ∨ (¬ IsHexDigit c ∧ hexByte [c] = .ok (.error (.notHex c))) := by
  by_cases hc : IsHexDigit c
  · obtain ⟨v, hv⟩ := Option.isSome_iff_exists.mp hc
    refine Or.inl ⟨hc, ?_⟩
    simp [hexByte, digitAt, hexDigit_of_toDigit16 hv, bind, Except.bind]
  · refine Or.inr ⟨hc, ?_⟩
    simp [hexByte, digitAt, hexDigit_of_not hc, bind, Except.bind, pure, Except.pure]

/-- **The three ends of `from_hex`.** The characters spell what was read, or they are digits but
oddly many, or one of them is reported. Induction on the pieces. -/
theorem hexBytes_cases (cs : List Char) :
    (∃ bs, Spells cs bs ∧ hexBytes (chunks2 cs) = .ok (.ok bs))
      ∨ ((∀ c ∈ cs, IsHexDigit c) ∧ cs.length % 2 = 1 ∧ ∃ p, hexBytes (chunks2 cs) = .error p)
      ∨ ((∃ c ∈ cs, ¬ IsHexDigit c) ∧ ∃ e, hexBytes (chunks2 cs) = .ok (.error e)) := by
  fun_induction chunks2 cs with
  | case1 => exact Or.inl ⟨[], .nil, rfl⟩
  | case2 c =>
    rcases hexByte_single c with ⟨hc, hbyte⟩ | ⟨hc, hbyte⟩
    · refine Or.inr (Or.inl ⟨by simpa using hc, rfl, .indexOutOfRange 1 1, ?_⟩)
      simp [hexBytes, hbyte, bind, Except.bind]
    · refine Or.inr (Or.inr ⟨⟨c, by simp, hc⟩, .notHex c, ?_⟩)
      simp [hexBytes, hbyte, bind, Except.bind, pure, Except.pure]
  | case3 c c' cs ih =>
    rcases hexByte_pair c c' with ⟨v, v', hv, hv', hbyte⟩ | ⟨hnot, e, hbyte⟩
    · -- the first piece is read, so the others decide
      rcases ih with ⟨bs, hspells, hread⟩ | ⟨hcs, hodd, p, hread⟩ | ⟨⟨d, hd, hbad⟩, e, hread⟩
      · refine Or.inl ⟨_, .cons hv hv' hspells, ?_⟩
        simp [hexBytes, hbyte, hread, bind, Except.bind, pure, Except.pure]
      · refine Or.inr (Or.inl ⟨?_, ?_, p, ?_⟩)
        · simp only [List.forall_mem_cons]
          exact ⟨by simp [IsHexDigit, hv], by simp [IsHexDigit, hv'], hcs⟩
        · simp only [List.length_cons]
          omega
        · simp [hexBytes, hbyte, hread, bind, Except.bind]
      · refine Or.inr (Or.inr ⟨⟨d, by simp [hd], hbad⟩, e, ?_⟩)
        simp [hexBytes, hbyte, hread, bind, Except.bind, pure, Except.pure]
    · have hbad : ∃ d ∈ c :: c' :: cs, ¬ IsHexDigit d := by
        by_cases hc : IsHexDigit c
        · exact ⟨c', by simp, fun hc' => hnot ⟨hc, hc'⟩⟩
        · exact ⟨c, by simp, hc⟩
      refine Or.inr (Or.inr ⟨hbad, e, ?_⟩)
      simp [hexBytes, hbyte, bind, Except.bind, pure, Except.pure]

/-- A string of digits has as many bytes as characters. -/
theorem utf8ByteSize_of_isHexDigit {s : String} (hs : ∀ c ∈ s.toList, IsHexDigit c) :
    s.utf8ByteSize = s.toList.length := by
  rw [← String.utf8Len_toList]
  exact utf8Len_of_isHexDigit hs

/-- **What `from_hex` does.** It returns what the string spells, or it reports a string that spells
nothing. -/
theorem fromHex_cases (s : String) :
    (∃ b, Spells s.toList b ∧ fromHex s = .ok (.ok b))
      ∨ (¬ IsHex s ∧ ∃ e, fromHex s = .ok (.error e)) := by
  unfold fromHex IsHex
  rcases hexBytes_cases s.toList with ⟨b, hspells, hread⟩ | ⟨hdigits, hodd, _⟩
      | ⟨⟨c, hc, hbad⟩, e, hread⟩
  · have hdigits : ∀ c ∈ s.toList, IsHexDigit c :=
      fun c hc => isSome_toDigit16.mpr (hspells.isHexChar c hc)
    have hbytes := utf8ByteSize_of_isHexDigit hdigits
    have hlen := hspells.length
    rw [if_neg (by omega)]
    exact Or.inl ⟨b, hspells, hread⟩
  · -- all of them digits and oddly many: that is ruled out when the bytes are counted
    have hbytes := utf8ByteSize_of_isHexDigit hdigits
    rw [if_pos (by omega)]
    exact Or.inr ⟨fun h => by omega, _, rfl⟩
  · refine Or.inr ⟨fun h => hbad (h.2 c hc), ?_⟩
    split
    · exact ⟨_, rfl⟩
    · exact ⟨e, hread⟩

/-- **The second digit is never missing.** -/
theorem fromHex_total (s : String) : ∃ r, fromHex s = .ok r := by
  rcases fromHex_cases s with ⟨b, _, hread⟩ | ⟨_, e, hread⟩
  · exact ⟨_, hread⟩
  · exact ⟨_, hread⟩

theorem isHex_of_spells {s : String} {b : Bytes} (h : Spells s.toList b) : IsHex s := by
  have hlen := h.length
  exact ⟨by omega, fun c hc => isSome_toDigit16.mpr (h.isHexChar c hc)⟩

/-- **What `from_hex` reads.** -/
theorem fromHex_ok_iff (s : String) : (∃ b, fromHex s = .ok (.ok b)) ↔ IsHex s := by
  rcases fromHex_cases s with ⟨b, hspells, hread⟩ | ⟨hnot, e, hread⟩
  · exact ⟨fun _ => isHex_of_spells hspells, fun _ => ⟨b, hread⟩⟩
  · rw [hread]
    constructor
    · intro ⟨b, hb⟩
      cases hb
    · intro hs
      exact absurd hs hnot

/-- It returns what the digits spell, and nothing else. -/
theorem fromHex_eq_ok_iff {s : String} {b : Bytes} :
    fromHex s = .ok (.ok b) ↔ Spells s.toList b := by
  rcases fromHex_cases s with ⟨b', hspells, hread⟩ | ⟨hnot, e, hread⟩
  · rw [hread]
    constructor
    · intro heq
      cases heq
      exact hspells
    · intro hb
      rw [hspells.unique hb]
  · rw [hread]
    constructor
    · intro heq
      cases heq
    · intro hb
      exact absurd (isHex_of_spells hb) hnot

theorem fromHex_toHexUpper (b : Bytes) : fromHex (toHexUpper b) = .ok (.ok b) := by
  rw [fromHex_eq_ok_iff]
  unfold toHexUpper
  rw [String.toList_ofList]
  exact spells_formatHex toDigit16_upperDigit b

/-! ## The serde adapters -/

/-- How an adapter fails, or ends the task that runs it. -/
inductive WireFault where
  | hex (e : WireError)
  | base64
  | panicked (p : Panic)
  deriving DecidableEq

/-- What an adapter reads. -/
abbrev Wire (α : Type) := Serde.Json → Except (Serde.Error WireFault) α

/-- `hex_field::deserialize`. -/
def hexField : Wire Bytes := fun j =>
  match Serde.string j with
  | .error e => .error e
  | .ok s =>
    match fromHex s with
    | .error p => .error (.custom (.panicked p))
    | .ok (.error e) => .error (.custom (.hex e))
    | .ok (.ok b) => .ok b

/-- `b64_field::deserialize`. -/
def b64Field (decode : String → Option Bytes) : Wire Bytes := fun j =>
  match Serde.string j with
  | .error e => .error e
  | .ok s =>
    match decode s with
    | none => .error (.custom .base64)
    | some b => .ok b

/-- `hex_field::serialize`. -/
def writeHexField (b : Bytes) : Serde.Json := .string (toHexUpper b)

/-- `b64_field::serialize`. -/
def writeB64Field (encode : Bytes → String) (b : Bytes) : Serde.Json := .string (encode b)

/-- It ends the task. -/
def WireFault.IsPanic : WireFault → Prop
  | .panicked _ => True
  | _ => False

/-- The adapter reads strings of that form and nothing else. -/
theorem hexField_ok_iff {j : Serde.Json} :
    (∃ b, hexField j = .ok b) ↔ ∃ s, j = .string s ∧ IsHex s := by
  unfold hexField
  cases j with
  | string s =>
    obtain ⟨r, hr⟩ := fromHex_total s
    have hread := fromHex_ok_iff s
    simp only [Serde.string, hr] at hread ⊢
    cases r with
    | error e => simpa using hread
    | ok b => simpa using hread
  | null | bool | number | array | object => simp [Serde.string]

/-- The base64 adapter reads what its decoder reads. -/
theorem b64Field_ok_iff {decode : String → Option Bytes} {j : Serde.Json} :
    (∃ b, b64Field decode j = .ok b) ↔ ∃ s, j = .string s ∧ (decode s).isSome := by
  unfold b64Field
  cases j with
  | string s =>
    simp only [Serde.string]
    cases hread : decode s with
    | none => simp [hread]
    | some b => simp [hread]
  | null | bool | number | array | object => simp [Serde.string]

/-- What the adapter wrote, it reads. -/
theorem hexField_of_same {b : Bytes} {j : Serde.Json} (h : (writeHexField b).Same j) :
    hexField j = .ok b := by
  rw [h.string]
  unfold hexField Serde.string
  dsimp only
  rw [fromHex_toHexUpper]

theorem b64Field_of_same {encode : Bytes → String} {decode : String → Option Bytes}
    (hbase64 : ∀ b, decode (encode b) = some b) {b : Bytes} {j : Serde.Json}
    (h : (writeB64Field encode b).Same j) : b64Field decode j = .ok b := by
  rw [h.string]
  unfold b64Field Serde.string
  dsimp only
  rw [hbase64]

theorem hexField_no_panic {j : Serde.Json} {e : WireFault} (h : hexField j = .error (.custom e)) :
    ¬ e.IsPanic := by
  unfold hexField at h
  cases j with
  | string s =>
    obtain ⟨r, hr⟩ := fromHex_total s
    simp only [Serde.string, hr] at h
    cases r with
    | error e' =>
      cases h
      exact id
    | ok b => cases h
  | null | bool | number | array | object => cases h

theorem b64Field_no_panic {decode : String → Option Bytes} {j : Serde.Json} {e : WireFault}
    (h : b64Field decode j = .error (.custom e)) : ¬ e.IsPanic := by
  unfold b64Field at h
  cases j with
  | string s =>
    simp only [Serde.string] at h
    split at h
    · cases h
      exact id
    · cases h
  | null | bool | number | array | object => cases h

end Smdp
