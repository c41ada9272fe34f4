import Smdp.Es9.Wire

/-!
# Smdp — a transactionId as hexadecimal digits

`from_hex` and `to_hex_upper` meet at what the digits spell: the one reads what a string spells and
refuses the strings that spell nothing, the other writes what spells its bytes. Reading undoes
writing, and writing undoes reading but for the case of the letters.
-/

namespace Smdp

variable {s : String} {b : Bytes}

/-- What was read is written again, in upper case. -/
theorem toHexUpper_of_spells (h : Spells s.toList b) : toHexUpper b = s.toUpper := by
  apply String.toList_injective
  unfold toHexUpper String.toUpper
  rw [String.toList_ofList, String.toList_map]
  exact h.formatHex_upper

theorem isUpperHexChar_of_mem_formatHex :
    ∀ c ∈ formatHex upperDigit b, IsUpperHexChar c := by
  intro c hc
  unfold formatHex at hc
  rw [List.mem_flatMap] at hc
  obtain ⟨x, _, hc⟩ := hc
  have hx : x.toNat < 256 := x.toNat_lt
  simp only [List.mem_cons, List.not_mem_nil, or_false] at hc
  rcases hc with rfl | rfl
  · exact isUpperHexChar_upperDigit _ (by omega)
  · exact isUpperHexChar_upperDigit _ (by omega)

/-- **The codec is exact.** Reading never indexes past a piece, it reads the strings of whole bytes
of digits and no others, and what it read is the string in upper case; writing gives upper-case
digits, two a byte, that read back. -/
theorem hex_lossless :
    (∀ s, (∃ r, fromHex s = .ok r)
      ∧ ((∃ b, fromHex s = .ok (.ok b))
          ↔ s.toList.length % 2 = 0 ∧ ∀ c ∈ s.toList, IsHexChar c)
      ∧ ∀ b, fromHex s = .ok (.ok b) → toHexUpper b = s.toUpper)
    ∧ ∀ b, fromHex (toHexUpper b) = .ok (.ok b)
      ∧ (toHexUpper b).toList.length = 2 * b.length
      ∧ ∀ c ∈ (toHexUpper b).toList, IsUpperHexChar c := by
  constructor
  · intro s
    refine ⟨fromHex_total s, ?_, ?_⟩
    · rw [fromHex_ok_iff]
      unfold IsHex IsHexDigit
      simp only [isSome_toDigit16]
    · intro b hb
      exact toHexUpper_of_spells (fromHex_eq_ok_iff.mp hb)
  · intro b
    have hread := fromHex_toHexUpper b
    refine ⟨hread, (fromHex_eq_ok_iff.mp hread).length, ?_⟩
    unfold toHexUpper
    rw [String.toList_ofList]
    exact isUpperHexChar_of_mem_formatHex

/-- Either case is read, what is not a digit is refused, and so is half a byte. -/
example : fromHex "0af0" = .ok (.ok [0x0a, 0xf0]) ∧ toHexUpper [0x0a, 0xf0] = "0AF0"
    ∧ fromHex "zz" = .ok (.error (.notHex 'z')) ∧ fromHex "abc" = .ok (.error (.oddLength 3)) := by
  decide

end Smdp
