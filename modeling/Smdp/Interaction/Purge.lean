import Smdp.Interaction.Serve

/-!
# Interaction — the same run with some steps deleted

Two runs of one server, the second of the requests of the first without those of its `idle`
steps. If an idle step stays within the states that look alike, and states that look alike
answer a request alike and go on looking alike, then the two runs end in states that look alike
and what remains is answered alike (`Run.purged`).
-/

namespace Interaction

variable {F : Sig} {C ι α S : Type}
variable {program : C → Prog F α} {perform : ι → (op : F.Op) → S → F.Ret op × S}

/-- What was asked, and under which input. -/
def Served.request (x : Served F C ι α) : C × ι := (x.command, x.input)

/-- The steps of `h` that are not idle. -/
def purged (idle : Step S (Served F C ι α) → Bool) (h : List (Step S (Served F C ι α))) :
    List (Step S (Served F C ι α)) :=
  h.filter fun x => !idle x

/-- **Deleting idle steps goes unnoticed.** Induction on the first run: its last step is idle,
and then only the first run goes on, or both runs end with the same request. -/
theorem Run.purged {R : S → S → Prop} {idle : Step S (Served F C ι α) → Bool}
    (hidle : ∀ s t x s', R s t → Serves program perform s x s' → idle ⟨s, x, s'⟩ = true → R s' t)
    (hserve : ∀ s t x y s' t', R s t → Serves program perform s x s' →
      Serves program perform t y t' → y.request = x.request → y.answer = x.answer ∧ R s' t')
    {s₀ t₀ s t : S} (hstart : R s₀ t₀) {h h' : List (Step S (Served F C ι α))}
    (run : Run (Serves program perform) s₀ h s) (run' : Run (Serves program perform) t₀ h' t)
    (hrequests : h'.map (fun x => x.label.request)
      = (Interaction.purged idle h).map (fun x => x.label.request)) :
    R s t ∧ h'.map (fun x => x.label.answer)
      = (Interaction.purged idle h).map (fun x => x.label.answer) := by
  induction run generalizing h' t with
  | nil =>
    obtain rfl := List.map_eq_nil_iff.mp hrequests
    obtain rfl := run'.of_nil
    exact ⟨hstart, rfl⟩
  | @snoc h s s' x run step ih =>
    have hcut : ∀ b, idle ⟨s, x, s'⟩ = b → Interaction.purged idle (h ++ [⟨s, x, s'⟩])
        = Interaction.purged idle h ++ if b then [] else [⟨s, x, s'⟩] := by
      rintro b rfl
      unfold Interaction.purged
      rw [List.filter_append, List.filter_singleton]
      cases idle ⟨s, x, s'⟩ <;> rfl
    cases hx : idle ⟨s, x, s'⟩ with
    | true =>
      -- the last step is idle: only the first run takes it, and the states stay related
      rw [hcut _ hx, if_pos rfl, List.append_nil] at hrequests ⊢
      obtain ⟨hst, hanswers⟩ := ih run' hrequests
      exact ⟨hidle _ _ _ _ hst step hx, hanswers⟩
    | false =>
      rw [hcut _ hx, if_neg (by simp), List.map_append] at hrequests ⊢
      -- the second run ends with the same request
      obtain ⟨h'', last, rfl, hbefore, hlast⟩ := List.map_eq_append_iff.mp hrequests
      obtain ⟨y, rfl, hy⟩ := List.map_eq_singleton_iff.mp hlast
      obtain ⟨before, stepy, rfl⟩ := run'.of_snoc
      obtain ⟨hst, hanswers⟩ := ih before hbefore
      obtain ⟨hanswer, hst'⟩ := hserve _ _ _ _ _ _ hst step stepy hy
      refine ⟨hst', ?_⟩
      rw [List.map_append, hanswers]
      exact congrArg (fun a => _ ++ [a]) hanswer

end Interaction
