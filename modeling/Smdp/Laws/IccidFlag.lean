import Mathlib.Data.String.Basic
import Smdp.Cli
import Smdp.Es9.Wire

/-!
# Smdp — the ICCID given on the command line

`parse_iccid` counts twenty bytes, cuts them in twos and has `from_str_radix` read each piece. That
takes a sign for the first digit of a piece, so `+1+2+3+4+5+6+7+8+9+0` is an ICCID; and a cut inside
a character ends the program. Elsewhere it reads the twenty digits and refuses the rest, as
`from_hex` does (`parsesExactly_iff`).
-/

namespace Smdp

open String (utf8Len)

variable {c c' : Char} {cs pre rest : List Char} {b b' : Bytes} {x : UInt8} {n : Nat}

/-! ## Where it goes wrong -/

/-- A digit, or a plus in its place, and a digit. -/
def IsPair (c c' : Char) : Prop := (c = '+' ∨ IsHexChar c) ∧ IsHexChar c'

/-- Such pairs, and nothing else. -/
inductive Paired : List Char → Prop where
  | nil : Paired []
  | cons {c c' : Char} {cs : List Char} (pair : IsPair c c') (rest : Paired cs) :
      Paired (c :: c' :: cs)

/-- After such pairs, the next two bytes end inside a character. -/
inductive Straddled : List Char → Prop where
  | wide {c : Char} {cs : List Char} (wide : 2 < c.utf8Size) : Straddled (c :: cs)
  | split {c c' : Char} {cs : List Char} (narrow : c.utf8Size = 1) (wide : 1 < c'.utf8Size) :
      Straddled (c :: c' :: cs)
  | later {c c' : Char} {cs : List Char} (pair : IsPair c c') (rest : Straddled cs) :
      Straddled (c :: c' :: cs)

/-- Twenty bytes that are cut inside a character, or are pairs with a plus among them. -/
def Slips (s : String) : Prop :=
  s.utf8ByteSize = 20 ∧ (Straddled s.toList ∨ Paired s.toList ∧ '+' ∈ s.toList)

/-- It reads what twenty digits spell, and refuses the rest without ending the program. -/
structure ParsesExactly (s : String) : Prop where
  total : ∃ r, parseIccid s = .ok r
  accepted : ∀ b : Iccid, parseIccid s = .ok (.ok b) ↔ Spells s.toList b.val

/-! ## One piece -/

/-- Two digits do not overflow. -/
theorem digitsRadix16_cons {acc v : Nat} (hacc : acc < 16) (hv : toDigit16 c = some v) :
    digitsRadix16 acc (c :: cs) = digitsRadix16 (16 * acc + v) cs := by
  have hlt := (digit_of_toDigit16 hv).1
  have hfits : acc * 16 + v ≤ 255 := by omega
  rw [digitsRadix16, hv]
  dsimp only
  rw [if_pos hfits, Nat.mul_comm acc 16]

theorem digitsRadix16_cons_none {acc : Nat} (hv : toDigit16 c = none) :
    digitsRadix16 acc (c :: cs) = none := by
  rw [digitsRadix16, hv]

/-- A plus counts as a nought. -/
theorem fromStrRadix16_plus : fromStrRadix16 ['+', c'] = some x ↔
    ∃ v', toDigit16 c' = some v' ∧ x = UInt8.ofNat v' := by
  show (digitsRadix16 0 [c']).map UInt8.ofNat = some x ↔ _
  cases hv' : toDigit16 c' with
  | none =>
    rw [digitsRadix16_cons_none hv']
    simp
  | some v' =>
    rw [digitsRadix16_cons (by decide) hv']
    simp [digitsRadix16, eq_comm]

/-- Without a plus, both have to be digits, and the byte is what they denote. -/
theorem fromStrRadix16_digits (hc : c ≠ '+') : fromStrRadix16 [c, c'] = some x ↔
    ∃ v v', toDigit16 c = some v ∧ toDigit16 c' = some v' ∧ x = UInt8.ofNat (16 * v + v') := by
  have hdigits : fromStrRadix16 [c, c'] = (digitsRadix16 0 [c, c']).map UInt8.ofNat := by
    unfold fromStrRadix16
    split <;> simp_all
  rw [hdigits]
  cases hv : toDigit16 c with
  | none =>
    rw [digitsRadix16_cons_none hv]
    simp
  | some v =>
    have hlt : 16 * 0 + v < 16 := by
      have hdigit := (digit_of_toDigit16 hv).1
      omega
    rw [digitsRadix16_cons (by decide) hv]
    cases hv' : toDigit16 c' with
    | none =>
      rw [digitsRadix16_cons_none hv']
      simp
    | some v' =>
      rw [digitsRadix16_cons hlt hv']
      simp [digitsRadix16, eq_comm]

/-- So these are the pairs `from_str_radix` reads. -/
theorem isPair_iff : IsPair c c' ↔ ∃ x, fromStrRadix16 [c, c'] = some x := by
  unfold IsPair
  -- `from_str_radix` takes a leading plus, so `+7` reads as `07` does
  by_cases hc : c = '+'
  · subst hc
    simp only [fromStrRadix16_plus, ← isSome_toDigit16, Option.isSome_iff_exists]
    constructor
    · intro ⟨_, v', hv'⟩
      exact ⟨_, v', hv', rfl⟩
    · intro ⟨_, v', hv', _⟩
      exact ⟨.inl trivial, v', hv'⟩
  · simp only [fromStrRadix16_digits hc, ← isSome_toDigit16, Option.isSome_iff_exists]
    constructor
    · intro ⟨hdigit, v', hv'⟩
      obtain ⟨v, hv⟩ := hdigit.resolve_left hc
      exact ⟨_, v, v', hv, hv', rfl⟩
    · intro ⟨_, v, v', hv, hv', _⟩
      exact ⟨.inr ⟨v, hv⟩, v', hv'⟩

/-- Both characters of a pair are one octet, the plus included. -/
theorem IsPair.utf8Size (h : IsPair c c') : c.utf8Size = 1 ∧ c'.utf8Size = 1 := by
  have hdigit : ∀ d, IsHexChar d → d.utf8Size = 1 :=
    fun d hd => utf8Size_of_isHexDigit (isSome_toDigit16.mpr hd)
  refine ⟨?_, hdigit c' h.2⟩
  rcases h.1 with rfl | hc
  · decide
  · exact hdigit c hc

theorem paired_cons (h : IsPair c c') : Paired (c :: c' :: cs) ↔ Paired cs := by
  constructor
  · intro hpaired
    cases hpaired with
    | cons _ hrest => exact hrest
  · exact .cons h

theorem straddled_cons (h : IsPair c c') : Straddled (c :: c' :: cs) ↔ Straddled cs := by
  have hsize := h.utf8Size
  constructor
  · intro hstraddled
    cases hstraddled with
    | wide hwide => omega
    | split _ hwide => omega
    | later _ hrest => exact hrest
  · exact .later h

/-- **The first two bytes.** They are two characters, or one, or end inside one. -/
theorem takeBytes_two (hlen : 2 ≤ utf8Len cs) :
    (∃ c c' rest, cs = c :: c' :: rest ∧ c.utf8Size = 1 ∧ c'.utf8Size = 1
        ∧ takeBytes cs 2 = .ok [c, c'])
      ∨ (∃ c rest, cs = c :: rest ∧ c.utf8Size = 2 ∧ takeBytes cs 2 = .ok [c])
      ∨ (Straddled cs ∧ takeBytes cs 2 = .error .notCharBoundary) := by
  cases cs with
  | nil => simp at hlen
  | cons c rest =>
    have hpos := c.utf8Size_pos
    have hread : takeBytes (c :: rest) 2
        = if c.utf8Size ≤ 2 then (takeBytes rest (2 - c.utf8Size)).map (c :: ·)
          else .error .notCharBoundary := by
      simp [takeBytes]
    rw [hread]
    by_cases hone : c.utf8Size = 1
    · -- one byte of the two is left
      rw [if_pos (by omega), hone]
      cases rest with
      | nil => simp [hone] at hlen
      | cons c' rest =>
        have hpos' := c'.utf8Size_pos
        have hread' : takeBytes (c' :: rest) (2 - 1)
            = if c'.utf8Size ≤ 1 then (takeBytes rest (1 - c'.utf8Size)).map (c' :: ·)
              else .error .notCharBoundary := by
          simp [takeBytes]
        rw [hread']
        by_cases hone' : c'.utf8Size = 1
        · -- two characters of one octet each: the only way a piece can be read
          refine .inl ⟨c, c', rest, rfl, hone, hone', ?_⟩
          rw [if_pos (by omega), hone']
          simp [takeBytes, Except.map]
        · -- the first is one octet, and the cut is inside the second
          refine .inr (.inr ⟨.split hone (by omega), ?_⟩)
          rw [if_neg (by omega)]
          rfl
    · by_cases htwo : c.utf8Size = 2
      · -- one character fills the piece, and no single character is a byte
        refine .inr (.inl ⟨c, rest, rfl, htwo, ?_⟩)
        rw [if_pos (by omega), htwo]
        simp [takeBytes, Except.map]
      · -- the first is wider than the piece: `&s[i..i + 2]` panics
        refine .inr (.inr ⟨.wide (by omega), ?_⟩)
        rw [if_neg (by omega)]

/-- **One piece.** It is read, or the cut is inside a character, or `from_str_radix` refuses it. -/
theorem piece_cases (hlen : 2 ≤ utf8Len cs) :
    (∃ c c' rest x, cs = c :: c' :: rest ∧ takeBytes cs 2 = .ok [c, c']
        ∧ fromStrRadix16 [c, c'] = some x)
      ∨ (Straddled cs ∧ takeBytes cs 2 = .error .notCharBoundary)
      ∨ (¬ Straddled cs ∧ ¬ Paired cs
        ∧ ∃ pair, takeBytes cs 2 = .ok pair ∧ fromStrRadix16 pair = none) := by
  rcases takeBytes_two hlen with ⟨c, c', rest, hcs, hc, hc', htake⟩ | ⟨c, rest, hcs, hc, htake⟩
      | hstraddled
  · subst hcs
    cases hread : fromStrRadix16 [c, c'] with
    | some x => exact .inl ⟨c, c', rest, x, rfl, htake, hread⟩
    | none =>
      have hno : ¬ IsPair c c' := by
        rw [isPair_iff, hread]
        simp
      refine .inr (.inr ⟨?_, ?_, _, htake, hread⟩)
      · intro hstraddled
        cases hstraddled with
        | wide hwide => omega
        | split _ hwide => omega
        | later hpair _ => exact hno hpair
      · intro hpaired
        cases hpaired with
        | cons hpair _ => exact hno hpair
  · -- a character of two bytes is no digit
    subst hcs
    have hdigit : toDigit16 c = none := by
      cases hv : toDigit16 c with
      | none => rfl
      | some v =>
        have hone : c.utf8Size = 1 := utf8Size_of_isHexDigit (by simp [IsHexDigit, hv])
        omega
    have hread : fromStrRadix16 [c] = none := by
      unfold fromStrRadix16
      split
      · rfl
      · rfl
      · simp_all
      · rw [digitsRadix16_cons_none hdigit]
        rfl
    refine .inr (.inr ⟨?_, ?_, _, htake, hread⟩)
    · intro hstraddled
      cases hstraddled with
      | wide hwide => omega
      | split hnarrow _ => omega
      | later hpair _ =>
        have hone := hpair.utf8Size
        omega
    · intro hpaired
      cases hpaired with
      | cons hpair _ =>
        have hone := hpair.utf8Size
        omega
  · exact .inr (.inl hstraddled)

/-! ## The pieces read -/

/-- The characters are pieces that `from_str_radix` reads as the bytes. -/
inductive Pieces : List Char → Bytes → Prop where
  | nil : Pieces [] []
  | cons {c c' : Char} {x : UInt8} {cs : List Char} {b : Bytes}
      (piece : fromStrRadix16 [c, c'] = some x) (rest : Pieces cs b) :
      Pieces (c :: c' :: cs) (x :: b)

/-- One more piece, at the end: the order in which the loop goes. -/
theorem Pieces.snoc (h : Pieces cs b) (piece : fromStrRadix16 [c, c'] = some x) :
    Pieces (cs ++ [c, c']) (b ++ [x]) := by
  induction h with
  | nil => exact .cons piece .nil
  | cons first _ ih => exact .cons first ih

theorem Pieces.utf8Len (h : Pieces cs b) : utf8Len cs = 2 * b.length := by
  induction h with
  | nil => rfl
  | cons piece _ ih =>
    have hsize := (isPair_iff.mpr ⟨_, piece⟩).utf8Size
    simp only [String.utf8Len_cons, List.length_cons]
    omega

theorem Pieces.paired_append (h : Pieces pre b) : Paired (pre ++ rest) ↔ Paired rest := by
  induction h with
  | nil => rfl
  | cons piece _ ih =>
    rw [← ih]
    exact paired_cons (isPair_iff.mpr ⟨_, piece⟩)

theorem Pieces.straddled_append (h : Pieces pre b) : Straddled (pre ++ rest) ↔ Straddled rest := by
  induction h with
  | nil => rfl
  | cons piece _ ih =>
    rw [← ih]
    exact straddled_cons (isPair_iff.mpr ⟨_, piece⟩)

/-- What was read is sliced off. -/
theorem Pieces.dropBytes (h : Pieces pre b) :
    dropBytes (pre ++ rest) (b.length * 2) = .ok rest := by
  induction h with
  | nil => simp [Smdp.dropBytes]
  | @cons c c' x cs b piece _ ih =>
    obtain ⟨hc, hc'⟩ := (isPair_iff.mpr ⟨_, piece⟩).utf8Size
    have hlen : (x :: b).length * 2 = b.length * 2 + 1 + 1 := by
      rw [List.length_cons]
      omega
    rw [hlen]
    simpa [Smdp.dropBytes, hc, hc'] using ih

/-- Without a plus, the pieces are digits. -/
theorem Pieces.spells (h : Pieces cs b) (hplus : '+' ∉ cs) : Spells cs b := by
  induction h with
  | nil => exact .nil
  | @cons c c' x cs b piece _ ih =>
    simp only [List.mem_cons, not_or] at hplus
    obtain ⟨v, v', hv, hv', hx⟩ := (fromStrRadix16_digits (Ne.symm hplus.1)).mp piece
    rw [hx]
    exact .cons hv hv' (ih hplus.2.2)

theorem Spells.pieces (h : Spells cs b) : Pieces cs b := by
  induction h with
  | nil => exact .nil
  | @cons c c' v v' cs b high low _ ih =>
    have hplus : c ≠ '+' := by
      intro hc
      subst hc
      cases high
    exact .cons ((fromStrRadix16_digits hplus).mpr ⟨v, v', high, low, rfl⟩) ih

theorem Spells.no_plus (h : Spells cs b) : '+' ∉ cs := by
  intro hmem
  have hdigit := h.isHexChar '+' hmem
  unfold IsHexChar at hdigit
  revert hdigit
  decide

theorem Pieces.paired (h : Pieces cs b) : Paired cs := by
  have hnil : Paired (cs ++ []) ↔ Paired [] := h.paired_append
  rw [List.append_nil] at hnil
  exact hnil.mpr .nil

theorem Pieces.not_straddled (h : Pieces cs b) : ¬ Straddled cs := by
  have hnil : Straddled (cs ++ []) ↔ Straddled [] := h.straddled_append
  rw [List.append_nil] at hnil
  intro hstraddled
  cases hnil.mp hstraddled

/-! ## The run -/

/-- **The run.** So far every piece was read, or it ended inside a character, or it refused what is
not pairs. Induction on the octets. -/
theorem parsePairs_cases (hlen : 2 * n ≤ utf8Len cs) :
    (∃ pre rest, ∃ b : Octets n, cs = pre ++ rest ∧ Pieces pre b.val
        ∧ parsePairs cs n = .ok (.ok b))
      ∨ (Straddled cs ∧ parsePairs cs n = .error .notCharBoundary)
      ∨ (¬ Straddled cs ∧ ¬ Paired cs ∧ ∃ e, parsePairs cs n = .ok (.error e)) := by
  induction n with
  | zero => exact .inl ⟨[], cs, ⟨[], rfl⟩, rfl, .nil, rfl⟩
  | succ i ih =>
    rcases ih (by omega) with ⟨pre, rest, b, hcs, hpieces, hrun⟩ | ⟨hstraddled, hrun⟩
        | ⟨hstraddled, hpaired, e, hrun⟩
    · -- the next piece stands at the head of what is left
      have hprefix : utf8Len pre = 2 * i := by rw [hpieces.utf8Len, b.property]
      have hrest : 2 ≤ utf8Len rest := by
        rw [hcs, String.utf8Len_append] at hlen
        omega
      have hdrop : dropBytes cs (i * 2) = .ok rest := by
        rw [hcs, ← b.property]
        exact hpieces.dropBytes
      rcases piece_cases hrest with ⟨c, c', rest', x, hpiece, htake, hread⟩ | ⟨hstraddled, htake⟩
          | ⟨hstraddled, hpaired, pair, htake, hread⟩
      · refine .inl ⟨pre ++ [c, c'], rest', b.push x, ?_, hpieces.snoc hread, ?_⟩
        · rw [hcs, hpiece]
          simp
        · simp [parsePairs, hrun, strSlice, hdrop, htake, hread, bind, Except.bind, pure,
            Except.pure]
      · refine .inr (.inl ⟨?_, ?_⟩)
        · rw [hcs]
          exact hpieces.straddled_append.mpr hstraddled
        · simp [parsePairs, hrun, strSlice, hdrop, htake, bind, Except.bind]
      · refine .inr (.inr ⟨?_, ?_, .notHex (i * 2 + 1) pair, ?_⟩)
        · rw [hcs]
          exact fun h => hstraddled (hpieces.straddled_append.mp h)
        · rw [hcs]
          exact fun h => hpaired (hpieces.paired_append.mp h)
        · simp [parsePairs, hrun, strSlice, hdrop, htake, hread, bind, Except.bind, pure,
            Except.pure]
    · refine .inr (.inl ⟨hstraddled, ?_⟩)
      simp [parsePairs, hrun, bind, Except.bind]
    · refine .inr (.inr ⟨hstraddled, hpaired, e, ?_⟩)
      simp [parsePairs, hrun, bind, Except.bind, pure, Except.pure]

variable {s : String}

/-- Twenty bytes are ten pieces, or are cut inside a character, or are not pairs. -/
theorem parseIccid_cases (hlen : s.utf8ByteSize = 20) :
    (∃ b : Iccid, Pieces s.toList b.val ∧ parseIccid s = .ok (.ok b))
      ∨ (Straddled s.toList ∧ parseIccid s = .error .notCharBoundary)
      ∨ (¬ Straddled s.toList ∧ ¬ Paired s.toList ∧ ∃ e, parseIccid s = .ok (.error e)) := by
  have hbytes : utf8Len s.toList = 20 := by rw [String.utf8Len_toList, hlen]
  have hparse : parseIccid s = parsePairs s.toList 10 := by
    unfold parseIccid
    rw [if_neg (by omega)]
  rw [hparse]
  rcases parsePairs_cases (n := 10) (le_of_eq hbytes.symm) with ⟨pre, rest, b, hcs, hpieces, hrun⟩
      | hstraddled | hrefused
  · -- ten pieces are all of it
    have hprefix : utf8Len pre = 20 := by rw [hpieces.utf8Len, b.property]
    have hrest : utf8Len rest = 0 := by
      rw [hcs, String.utf8Len_append] at hbytes
      omega
    have hall : s.toList = pre := by
      rw [hcs, String.utf8Len_eq_zero.mp hrest, List.append_nil]
    rw [hall] at hrun ⊢
    exact .inl ⟨b, hpieces, hrun⟩
  · exact .inr (.inl hstraddled)
  · exact .inr (.inr hrefused)

/-! ## When it is exact -/

/-- Twenty digits are twenty bytes. -/
theorem utf8ByteSize_of_spells {b : Iccid} (h : Spells s.toList b.val) : s.utf8ByteSize = 20 := by
  have hbytes := h.pieces.utf8Len
  rw [String.utf8Len_toList, b.property] at hbytes
  exact hbytes

/-- What is refused is to spell no ICCID. -/
theorem parsesExactly_of_error {e : ParseIccidError} (hrun : parseIccid s = .ok (.error e))
    (hno : ∀ b : Iccid, ¬ Spells s.toList b.val) : ParsesExactly s where
  total := ⟨_, hrun⟩
  accepted := by
    intro b
    rw [hrun]
    constructor
    · intro heq
      cases heq
    · intro hspells
      exact absurd hspells (hno b)

/-- What is read is to be digits. -/
theorem parsesExactly_of_ok {b : Iccid} (hpieces : Pieces s.toList b.val)
    (hrun : parseIccid s = .ok (.ok b)) : ParsesExactly s ↔ '+' ∉ s.toList := by
  constructor
  · intro h
    exact ((h.accepted b).mp hrun).no_plus
  · intro hplus
    have hspells := hpieces.spells hplus
    refine ⟨⟨_, hrun⟩, fun b' => ?_⟩
    rw [hrun]
    constructor
    · intro heq
      cases heq
      exact hspells
    · intro hspells'
      have heq : b = b' := Subtype.ext (hspells.unique hspells')
      rw [heq]

/-- **It is exact where it does not slip.** -/
theorem parsesExactly_iff : ParsesExactly s ↔ ¬ Slips s := by
  by_cases hlen : s.utf8ByteSize = 20
  · rcases parseIccid_cases hlen with ⟨b, hpieces, hrun⟩ | ⟨hstraddled, hrun⟩
        | ⟨hstraddled, hpaired, e, hrun⟩
    · -- ten pieces were read: it slips where one of them has a plus
      have hslips : Slips s ↔ '+' ∈ s.toList := by
        unfold Slips
        simp [hlen, hpieces.paired, hpieces.not_straddled]
      rw [parsesExactly_of_ok hpieces hrun, hslips]
    · constructor
      · intro h
        obtain ⟨r, hr⟩ := h.total
        cases hrun.symm.trans hr
      · intro h
        exact absurd ⟨hlen, .inl hstraddled⟩ h
    · have hslips : ¬ Slips s := by
        unfold Slips
        simp [hpaired, hstraddled]
      have hexact := parsesExactly_of_error hrun fun _ hb => hpaired hb.pieces.paired
      exact iff_of_true hexact hslips
  · have hrun : parseIccid s = .ok (.error (.length s.utf8ByteSize)) := by
      unfold parseIccid
      rw [if_pos hlen]
    have hexact := parsesExactly_of_error hrun fun _ hb => hlen (utf8ByteSize_of_spells hb)
    exact iff_of_true hexact fun hslips => hlen hslips.1

/-- What `hex` writes of an ICCID is read back as that ICCID. -/
theorem parseIccid_hex (b : Iccid) : parseIccid (hex b.val) = .ok (.ok b) := by
  have hspells : Spells (hex b.val).toList b.val := by
    unfold hex
    rw [String.toList_ofList]
    exact spells_formatHex toDigit16_lowerDigit b.val
  have hslips : ¬ Slips (hex b.val) := by
    intro ⟨_, hslip⟩
    rcases hslip with hstraddled | ⟨_, hplus⟩
    · exact hspells.pieces.not_straddled hstraddled
    · exact hspells.no_plus hplus
  exact ((parsesExactly_iff.mpr hslips).accepted b).mpr hspells

/-- **The flag is read exactly, but where it slips**, and then agrees with `from_hex`; and what is
printed of an ICCID is read back. -/
theorem iccidFlag_exact_iff (s : String) :
    (ParsesExactly s ↔ ¬ Slips s)
      ∧ (∀ b : Iccid, Spells s.toList b.val ↔ fromHex s = .ok (.ok b.val))
      ∧ ∀ b : Iccid, parseIccid (hex b.val) = .ok (.ok b) :=
  ⟨parsesExactly_iff, fun _ => fromHex_eq_ok_iff.symm, parseIccid_hex⟩

/-- Plus signs are read as noughts, and a cut inside a character ends the program; `from_hex`
refuses both. -/
theorem iccidFlag_slips :
    (¬ ParsesExactly "+1+2+3+4+5+6+7+8+9+0"
        ∧ (∃ b : Iccid, b.val = [1, 2, 3, 4, 5, 6, 7, 8, 9, 0]
          ∧ parseIccid "+1+2+3+4+5+6+7+8+9+0" = .ok (.ok b))
        ∧ fromHex "+1+2+3+4+5+6+7+8+9+0" = .ok (.error (.notHex '+')))
      ∧ ¬ ParsesExactly "0é01234567890123456"
        ∧ parseIccid "0é01234567890123456" = .error .notCharBoundary
        ∧ fromHex "0é01234567890123456" = .ok (.error (.notHex 'é')) := by
  have hplus : ∃ b : Iccid, b.val = [1, 2, 3, 4, 5, 6, 7, 8, 9, 0]
      ∧ parseIccid "+1+2+3+4+5+6+7+8+9+0" = .ok (.ok b) :=
    ⟨⟨[1, 2, 3, 4, 5, 6, 7, 8, 9, 0], rfl⟩, rfl, by decide⟩
  have hcut : parseIccid "0é01234567890123456" = .error .notCharBoundary := by decide
  refine ⟨⟨?_, hplus, by decide⟩, ?_, hcut, by decide⟩
  · intro h
    obtain ⟨b, _, hrun⟩ := hplus
    exact ((h.accepted b).mp hrun).no_plus (by decide)
  · intro h
    obtain ⟨r, hr⟩ := h.total
    cases hcut.symm.trans hr

end Smdp
