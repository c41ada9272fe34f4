import Smdp.Store.Order

/-!
# Smdp — what the source takes from Rust's standard library

Only what the modelled functions use: indexing and slicing, which panic, and the two
readers of hexadecimal digits. A computation that can panic is a `Panicking`; an ordinary
`Err` is a value inside it.
-/

namespace Smdp

inductive Panic where
  /-- `slice[i]` past the end. -/
  | indexOutOfRange (i len : Nat)
  /-- `slice[..n]` past the end. -/
  | endOutOfRange (n len : Nat)
  /-- `&s[a..b]` off a character boundary, or past the end. -/
  | notCharBoundary
  deriving DecidableEq, Repr

abbrev Panicking (α : Type) := Except Panic α

/-- `slice[i]`. -/
def index (b : Bytes) (i : Nat) : Panicking UInt8 :=
  match b[i]? with
  | some x => .ok x
  | none => .error (.indexOutOfRange i b.length)

/-- `slice[..n]`. -/
def sliceTo (b : Bytes) (n : Nat) : Panicking Bytes :=
  if n ≤ b.length then .ok (b.take n) else .error (.endOutOfRange n b.length)

/-- `slice.get(a..a + n)`. Unlike `slice[a..a + n]` it answers `None` past the end. -/
def getRange (b : Bytes) (a n : Nat) : Option Bytes :=
  if a + n ≤ b.length then some ((b.drop a).take n) else none

/-! ## Slicing a string by byte offsets -/

/-- What is left of `cs` after its first `n` bytes of UTF-8. -/
def dropBytes (cs : List Char) (n : Nat) : Panicking (List Char) :=
  match n, cs with
  | 0, cs => .ok cs
  | _, [] => .error .notCharBoundary
  | n, c :: cs =>
    if c.utf8Size ≤ n then dropBytes cs (n - c.utf8Size) else .error .notCharBoundary

/-- The first `n` bytes of UTF-8 of `cs`. -/
def takeBytes (cs : List Char) (n : Nat) : Panicking (List Char) :=
  match n, cs with
  | 0, _ => .ok []
  | _, [] => .error .notCharBoundary
  | n, c :: cs =>
    if c.utf8Size ≤ n then (takeBytes cs (n - c.utf8Size)).map (c :: ·)
    else .error .notCharBoundary

/-- `&s[a..a + n]`. -/
def strSlice (cs : List Char) (a n : Nat) : Panicking (List Char) :=
  match dropBytes cs a with
  | .error p => .error p
  | .ok rest => takeBytes rest n

/-! ## Hexadecimal digits -/

/-- `char::to_digit(16)`. -/
def toDigit16 (c : Char) : Option Nat :=
  if '0' ≤ c ∧ c ≤ '9' then some (c.toNat - '0'.toNat)
  else if 'a' ≤ c ∧ c ≤ 'f' then some (c.toNat - 'a'.toNat + 10)
  else if 'A' ≤ c ∧ c ≤ 'F' then some (c.toNat - 'A'.toNat + 10)
  else none

/-- The digits of `u8::from_str_radix(_, 16)`, with its overflow check. -/
def digitsRadix16 (acc : Nat) : List Char → Option Nat
  | [] => some acc
  | c :: cs =>
    match toDigit16 c with
    | none => none
    | some d => if acc * 16 + d ≤ 255 then digitsRadix16 (acc * 16 + d) cs else none

/-- `u8::from_str_radix(_, 16).ok()`: an optional `+`, then digits and nothing else. -/
def fromStrRadix16 : List Char → Option UInt8
  | [] => none
  | ['+'] => none
  | '+' :: digits => (digitsRadix16 0 digits).map UInt8.ofNat
  | digits => (digitsRadix16 0 digits).map UInt8.ofNat

end Smdp
