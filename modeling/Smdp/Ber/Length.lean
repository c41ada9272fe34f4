import Mathlib.Logic.Basic
import Mathlib.Tactic.Common

/-!
# BER — definite lengths

A definite length says how many octets a value takes: one octet below `80` says it itself,
and `80 + n` says that the next `n` octets say it, the most significant first. The octets of a
length end where they say they do, so no length is the beginning of another
(`Definite.append_inj`).
-/

namespace Ber

/-- A number from its octets, the most significant first. -/
def bigEndian (octets : List UInt8) : Nat := octets.foldl (fun n b => n * 256 + b.toNat) 0

/-- `octets` is a definite length, of value `n`. -/
inductive Definite : List UInt8 → Nat → Prop where
  | short {b : UInt8} (small : b < 0x80) : Definite [b] b.toNat
  | long {b : UInt8} {octets : List UInt8} (some : 0 < octets.length)
      (announced : b.toNat = 0x80 + octets.length) : Definite (b :: octets) (bigEndian octets)

variable {l l' tail tail' : List UInt8} {n n' : Nat}

theorem lt_0x80_iff {b : UInt8} : b < 0x80 ↔ b.toNat < 0x80 := Iff.rfl

/-- No length is the beginning of another: what follows a length starts in one place. -/
theorem Definite.append_inj (hl : Definite l n) (hl' : Definite l' n')
    (h : l ++ tail = l' ++ tail') : l = l' ∧ n = n' ∧ tail = tail' := by
  cases hl with
  | short small =>
    cases hl' with
    | short small' =>
      obtain ⟨rfl, htail⟩ := List.cons.inj h
      exact ⟨rfl, rfl, htail⟩
    | long some' announced' =>
      obtain ⟨rfl, _⟩ := List.cons.inj h
      rw [lt_0x80_iff] at small
      omega
  | long some announced =>
    cases hl' with
    | short small' =>
      obtain ⟨rfl, _⟩ := List.cons.inj h
      rw [lt_0x80_iff] at small'
      omega
    | long some' announced' =>
      obtain ⟨rfl, hrest⟩ := List.cons.inj h
      obtain ⟨rfl, htail⟩ := List.append_inj hrest (by omega)
      exact ⟨rfl, rfl, htail⟩

end Ber
