import Mathlib.Data.String.Basic

/-!
# Base64 — RFC 4648 with its standard alphabet

Three bytes are four characters. The bytes at the end that are no three are padded, and they are
read only as they are written: with the padding there, and zero in the bits that say nothing.
Decoding undoes encoding (`decode_encode`).
-/

namespace Base64

/-! ## The alphabet -/

def digit (n : Nat) : Char :=
  if n < 26 then Char.ofNat (n + 'A'.toNat)
  else if n < 52 then Char.ofNat (n - 26 + 'a'.toNat)
  else if n < 62 then Char.ofNat (n - 52 + '0'.toNat)
  else if n = 62 then '+'
  else '/'

/-- The number a digit stands for. The padding character stands for none. -/
def value (c : Char) : Option Nat :=
  if 'A' ≤ c ∧ c ≤ 'Z' then some (c.toNat - 'A'.toNat)
  else if 'a' ≤ c ∧ c ≤ 'z' then some (c.toNat - 'a'.toNat + 26)
  else if '0' ≤ c ∧ c ≤ '9' then some (c.toNat - '0'.toNat + 52)
  else if c = '+' then some 62
  else if c = '/' then some 63
  else none

theorem value_digit : ∀ n < 64, value (digit n) = some n := by decide

theorem digit_ne_pad : ∀ n < 64, digit n ≠ '=' := by decide

/-! ## Three bytes -/

/-- Three bytes as one number. -/
def word (x y z : UInt8) : Nat := (x.toNat * 256 + y.toNat) * 256 + z.toNat

/-- The three bytes of a number below 2^24, the most significant first. -/
def bytes (n : Nat) : List UInt8 :=
  [UInt8.ofNat (n / 65536), UInt8.ofNat (n / 256), UInt8.ofNat n]

/-- The same number as four digits of six bits each. -/
def digits (n : Nat) : List Char :=
  [digit (n / 262144), digit (n / 4096 % 64), digit (n / 64 % 64), digit (n % 64)]

/-- The number of four digits. -/
def number (c₀ c₁ c₂ c₃ : Char) : Option Nat := do
  let v₀ ← value c₀
  let v₁ ← value c₁
  let v₂ ← value c₂
  let v₃ ← value c₃
  return ((v₀ * 64 + v₁) * 64 + v₂) * 64 + v₃

/-- Three bytes become four digits. One or two that are left over are filled up with zero bits,
and the digits that carry none of theirs are replaced by padding. -/
def encodeBytes : List UInt8 → List Char
  | [] => []
  | [x] => (digits (word x 0 0)).take 2 ++ ['=', '=']
  | [x, y] => (digits (word x y 0)).take 3 ++ ['=']
  | x :: y :: z :: rest => digits (word x y z) ++ encodeBytes rest

/-- Padding is required, and allowed at the end only; the bits it stands for have to be zero. This
is what the strict decoder of the library does. -/
def decodeChars : List Char → Option (List UInt8)
  | [] => some []
  | c₀ :: c₁ :: c₂ :: c₃ :: rest =>
    if c₃ ≠ '=' then do
      let n ← number c₀ c₁ c₂ c₃
      let others ← decodeChars rest
      return bytes n ++ others
    else if ¬ rest.isEmpty then none
    else if c₂ ≠ '=' then do
      let n ← number c₀ c₁ c₂ 'A'
      if n % 256 = 0 then return (bytes n).take 2 else none
    else do
      let n ← number c₀ c₁ 'A' 'A'
      if n % 65536 = 0 then return (bytes n).take 1 else none
  | _ => none

def encode (b : List UInt8) : String := String.ofList (encodeBytes b)

def decode (s : String) : Option (List UInt8) := decodeChars s.toList

/-! ## Decoding undoes encoding -/

variable {n : Nat} {x y z : UInt8}

theorem word_lt : word x y z < 16777216 := by
  have hx : x.toNat < 256 := x.toNat_lt
  have hy : y.toNat < 256 := y.toNat_lt
  have hz : z.toNat < 256 := z.toNat_lt
  unfold word
  omega

theorem ofNat_of_mod {k : Nat} (h : k % 256 = x.toNat) : UInt8.ofNat k = x := by
  apply UInt8.toNat_inj.mp
  rw [UInt8.toNat_ofNat', ← h]

/-- Three bytes are found again in their number. -/
theorem bytes_word : bytes (word x y z) = [x, y, z] := by
  have hx : x.toNat < 256 := x.toNat_lt
  have hy : y.toNat < 256 := y.toNat_lt
  have hz : z.toNat < 256 := z.toNat_lt
  have hfirst : UInt8.ofNat (word x y z / 65536) = x := ofNat_of_mod (by unfold word; omega)
  have hsecond : UInt8.ofNat (word x y z / 256) = y := ofNat_of_mod (by unfold word; omega)
  have hthird : UInt8.ofNat (word x y z) = z := ofNat_of_mod (by unfold word; omega)
  unfold bytes
  rw [hfirst, hsecond, hthird]

/-- A number is found again in its digits. -/
theorem number_digits (hn : n < 16777216) :
    number (digit (n / 262144)) (digit (n / 4096 % 64)) (digit (n / 64 % 64)) (digit (n % 64))
      = some n := by
  unfold number
  rw [value_digit (n / 262144) (by omega), value_digit (n / 4096 % 64) (by omega),
    value_digit (n / 64 % 64) (by omega), value_digit (n % 64) (by omega)]
  show some (((n / 262144 * 64 + n / 4096 % 64) * 64 + n / 64 % 64) * 64 + n % 64) = some n
  congr 1
  omega

/-- The digit of zero bits, which is left out where it is padding. -/
theorem digit_zero (h : n = 0) : digit n = 'A' := by
  rw [h]
  rfl

/-- **Decoding undoes encoding.** Induction along the encoder, three bytes at a time: at the end
one byte, two, or none are left over. -/
theorem decodeChars_encodeBytes (b : List UInt8) : decodeChars (encodeBytes b) = some b := by
  induction b using encodeBytes.induct with
  | case1 => rfl
  | case2 x =>
    -- the sixteen bits that were filled up are zero, so two digits are padding
    have hword : word x 0 0 = x.toNat * 65536 := by
      show (x.toNat * 256 + 0) * 256 + 0 = _
      omega
    have hthird : digit (word x 0 0 / 64 % 64) = 'A' := digit_zero (by omega)
    have hfourth : digit (word x 0 0 % 64) = 'A' := digit_zero (by omega)
    have hnumber := number_digits (word_lt (x := x) (y := 0) (z := 0))
    rw [hthird, hfourth] at hnumber
    have hzero : word x 0 0 % 65536 = 0 := by omega
    simp [encodeBytes, digits, decodeChars, hnumber, hzero, bytes_word]
  | case3 x y =>
    -- eight bits were filled up, and one digit is padding
    have hword : word x y 0 = (x.toNat * 256 + y.toNat) * 256 := by
      show (x.toNat * 256 + y.toNat) * 256 + 0 = _
      omega
    have hfourth : digit (word x y 0 % 64) = 'A' := digit_zero (by omega)
    have hpad := digit_ne_pad (word x y 0 / 64 % 64) (by omega)
    have hnumber := number_digits (word_lt (x := x) (y := y) (z := 0))
    rw [hfourth] at hnumber
    have hzero : word x y 0 % 256 = 0 := by omega
    simp [encodeBytes, digits, decodeChars, hpad, hnumber, hzero, bytes_word]
  | case4 x y z rest ih =>
    -- a full group ends in a digit, so it is not taken for the last one
    have hpad := digit_ne_pad (word x y z % 64) (by omega)
    have hnumber := number_digits (word_lt (x := x) (y := y) (z := z))
    simp [encodeBytes, digits, decodeChars, hpad, hnumber, bytes_word, ih]

theorem decode_encode (b : List UInt8) : decode (encode b) = some b := by
  unfold decode encode
  rw [String.toList_ofList]
  exact decodeChars_encodeBytes b

end Base64
