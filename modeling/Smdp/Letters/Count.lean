import Mathlib.Data.Finset.NAry
import Mathlib.Data.Fintype.Basic

/-!
# Letters — words drawn letter by letter

A word is written by drawing its letters one by one, each of them a function of what was drawn for
it. The draws that write a given word are then chosen letter by letter (`mem_draws`), so there are
as many as the product says (`card_draws`): where every letter has the same number of draws behind
it, every word of one length has.
-/

namespace Letters

variable {α β : Type} [DecidableEq α]

/-- The draws that write a word, where `draws b` are those that write the letter `b`. -/
def draws (letter : β → Finset α) : List β → Finset (List α)
  | [] => {[]}
  | b :: bs => Finset.image₂ List.cons (letter b) (draws letter bs)

variable {letter : β → Finset α} {f : α → β}

/-- **The draws of a word are those that write it.** Induction on the word. -/
theorem mem_draws (hletter : ∀ a b, a ∈ letter b ↔ f a = b) {as : List α} {bs : List β} :
    as ∈ draws letter bs ↔ as.map f = bs := by
  induction bs generalizing as with
  | nil => simp [draws]
  | cons b bs ih =>
    unfold draws
    rw [Finset.mem_image₂]
    constructor
    · rintro ⟨a, ha, as, has, rfl⟩
      rw [List.map_cons, (hletter a b).mp ha, ih.mp has]
    · intro h
      obtain ⟨a, as, rfl, ha, has⟩ := List.map_eq_cons_iff.mp h
      exact ⟨a, (hletter a b).mpr ha, as, ih.mpr has, rfl⟩

/-- **Every word of letters with `n` draws each has `n ^ length` draws.** Induction on the word. -/
theorem card_draws {n : Nat} {bs : List β} (hcard : ∀ b ∈ bs, (letter b).card = n) :
    (draws letter bs).card = n ^ bs.length := by
  induction bs with
  | nil => rfl
  | cons b bs ih =>
    have hcons : Function.Injective2 (List.cons : α → List α → List α) := by
      intro a a' as as' h
      exact List.cons.inj h
    unfold draws
    rw [Finset.card_image₂ hcons, hcard b List.mem_cons_self,
      ih fun b' hb' => hcard b' (List.mem_cons_of_mem b hb'), List.length_cons, Nat.pow_succ,
      Nat.mul_comm]

end Letters
