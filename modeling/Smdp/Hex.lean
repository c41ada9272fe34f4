import Smdp.Rust

/-!
# Smdp — bytes as hexadecimal digits

The source writes bytes as digits in two places (`to_hex_upper`, `hex`) and reads them in two
(`from_hex`, `parse_iccid`). `Spells cs b` says, of neither reader nor writer, that the characters
`cs` denote the bytes `b`, two digits a byte; what is written spells what it was written from
(`spells_formatHex`), and each reader is compared with it where it is defined.
-/

namespace Smdp

variable {c : Char} {cs : List Char} {b b' : Bytes} {n : Nat}

/-! ## Digits -/

/-- The characters `0`-`9`, `a`-`f`, `A`-`F`. -/
def IsHexChar (c : Char) : Prop :=
  ('0' ≤ c ∧ c ≤ '9') ∨ ('a' ≤ c ∧ c ≤ 'f') ∨ ('A' ≤ c ∧ c ≤ 'F')

/-- The characters `0`-`9`, `A`-`F`. -/
def IsUpperHexChar (c : Char) : Prop := ('0' ≤ c ∧ c ≤ '9') ∨ ('A' ≤ c ∧ c ≤ 'F')

/-- A digit of `format!("{x:02x}")`. -/
def lowerDigit (n : Nat) : Char := Nat.digitChar n

/-- A digit of `format!("{x:02X}")`. -/
def upperDigit (n : Nat) : Char := (Nat.digitChar n).toUpper

/-- The hexadecimal digits are the characters `to_digit(16)` reads. -/
theorem isSome_toDigit16 : (toDigit16 c).isSome ↔ IsHexChar c := by
  unfold toDigit16 IsHexChar
  split
  · rename_i hdigit
    simp [hdigit]
  · rename_i hdigit
    split
    · rename_i hlower
      simp [hlower]
    · rename_i hlower
      split
      · rename_i hupper
        simp [hupper]
      · rename_i hupper
        simp [hdigit, hlower, hupper]

/-- All hexadecimal digits come before `g`, so there are few enough to go through. -/
theorem IsHexChar.toNat_lt (hc : IsHexChar c) : c.toNat < 103 := by
  have hle : c ≤ 'f' := by
    rcases hc with ⟨_, hdigit⟩ | ⟨_, hlower⟩ | ⟨_, hupper⟩
    · exact Char.le_trans hdigit (by decide)
    · exact hlower
    · exact Char.le_trans hupper (by decide)
  have hval : c.toNat ≤ 'f'.toNat := hle
  have hf : 'f'.toNat = 102 := by decide
  omega

/-- What there is to say about a digit, for the characters up to `f`. -/
theorem digits_below : ∀ n < 103, ∀ v, toDigit16 (Char.ofNat n) = some v →
    v < 16 ∧ upperDigit v = (Char.ofNat n).toUpper := by
  -- decided on the characters themselves: a digit's value and its case at once
  have hall : ∀ n < 103, (toDigit16 (Char.ofNat n)).all
      (fun v => v < 16 ∧ upperDigit v = (Char.ofNat n).toUpper) = true := by decide
  intro n hn v hv
  have hdigit := hall n hn
  rw [hv] at hdigit
  simpa using hdigit

theorem digit_of_toDigit16 {v : Nat} (hv : toDigit16 c = some v) :
    v < 16 ∧ upperDigit v = c.toUpper := by
  have hc : IsHexChar c := isSome_toDigit16.mp (by rw [hv]; rfl)
  have hofNat : Char.ofNat c.toNat = c := Char.ofNat_toNat c
  have hbelow := digits_below c.toNat hc.toNat_lt v
  rw [hofNat] at hbelow
  exact hbelow hv

theorem toDigit16_lowerDigit : ∀ n < 16, toDigit16 (lowerDigit n) = some n := by decide

theorem toDigit16_upperDigit : ∀ n < 16, toDigit16 (upperDigit n) = some n := by decide

theorem isUpperHexChar_upperDigit : ∀ n < 16, IsUpperHexChar (upperDigit n) := by
  unfold IsUpperHexChar
  decide

/-! ## Bytes -/

/-- The characters are digits, and denote the bytes, two and two. -/
inductive Spells : List Char → Bytes → Prop where
  | nil : Spells [] []
  | cons {c c' : Char} {v v' : Nat} {cs : List Char} {b : Bytes} (high : toDigit16 c = some v)
      (low : toDigit16 c' = some v') (rest : Spells cs b) :
      Spells (c :: c' :: cs) (UInt8.ofNat (16 * v + v') :: b)

theorem Spells.length (h : Spells cs b) : cs.length = 2 * b.length := by
  induction h with
  | nil => rfl
  | cons _ _ _ ih =>
    simp only [List.length_cons]
    omega

theorem Spells.isHexChar (h : Spells cs b) : ∀ c ∈ cs, IsHexChar c := by
  induction h with
  | nil => simp
  | cons high low _ ih =>
    simp only [List.forall_mem_cons, ← isSome_toDigit16, high, low]
    exact ⟨rfl, rfl, fun c hc => isSome_toDigit16.mpr (ih c hc)⟩

/-- Characters spell one byte string at most. -/
theorem Spells.unique (h : Spells cs b) (h' : Spells cs b') : b = b' := by
  induction h generalizing b' with
  | nil =>
    cases h'
    rfl
  | cons high low _ ih =>
    cases h' with
    | cons high' low' rest' =>
      cases high.symm.trans high'
      cases low.symm.trans low'
      rw [ih rest']

/-! ## Writing -/

/-- `format!` of each byte, two digits wide. -/
def formatHex (digit : Nat → Char) (b : Bytes) : List Char :=
  b.flatMap fun x => [digit (x.toNat / 16), digit (x.toNat % 16)]

/-- **What is written spells what it was written from.** -/
theorem spells_formatHex {digit : Nat → Char} (hdigit : ∀ n < 16, toDigit16 (digit n) = some n)
    (b : Bytes) : Spells (formatHex digit b) b := by
  induction b with
  | nil => exact .nil
  | cons x b ih =>
    have hx : x.toNat < 256 := x.toNat_lt
    -- the two digits are the quotient and the remainder by sixteen
    have hhalves : UInt8.ofNat (16 * (x.toNat / 16) + x.toNat % 16) = x := by
      rw [Nat.div_add_mod]
      exact UInt8.ofNat_toNat
    have hspells := Spells.cons (hdigit (x.toNat / 16) (by omega))
      (hdigit (x.toNat % 16) (by omega)) ih
    rw [hhalves] at hspells
    exact hspells

/-- What spells `b` is what is written for `b`, but for the case of its letters. -/
theorem Spells.formatHex_upper (h : Spells cs b) :
    formatHex upperDigit b = cs.map Char.toUpper := by
  induction h with
  | nil => rfl
  | @cons c c' v v' cs b high low _ ih =>
    obtain ⟨hv, hc⟩ := digit_of_toDigit16 high
    obtain ⟨hv', hc'⟩ := digit_of_toDigit16 low
    have hbyte : (UInt8.ofNat (16 * v + v')).toNat = 16 * v + v' := by
      rw [UInt8.toNat_ofNat']
      exact Nat.mod_eq_of_lt (by omega)
    have hhigh : (16 * v + v') / 16 = v := by omega
    have hlow : (16 * v + v') % 16 = v' := by omega
    show upperDigit _ :: upperDigit _ :: formatHex upperDigit b = _
    rw [hbyte, hhigh, hlow, hc, hc', ih]
    rfl

end Smdp
