import Mathlib.Data.List.Basic
import Mathlib.Tactic.Common

/-!
# Interaction — runs and their histories

A system is a relation `R s l s'`: from `s` it may do `l` and be in `s'`. A `Run` is a
finite sequence of such steps, kept with its history: a `Step` for each, holding the
state left, the label and the state reached. Everything a whole-run property speaks of
("before", "since", "between") is then a statement about a list.

* `Run.split` / `Run.append`: a run is cut at any step of its history, and glued again.
* `Run.invariant`: the invariant rule.
* `Run.unless`: what every step keeps unless `Q` happens is kept over a run without `Q`.
* `Run.kept_iff`: what every step keeps exactly unless `Q` happens holds after a run exactly if
  it held before and `Q` never happened.
* `Run.between`: if `x` establishes `P`, steps keep `P` unless `Q` happens, and `y` cannot
  happen under `P`, then `Q` happens between `x` and `y`.
* `Run.enters`: what did not hold and holds was entered at a last step, and held since.
* `latest`: the last step of a history that a partial function answers on.
-/

namespace Interaction

/-- One step of a run: the state it left, what happened, the state it reached. -/
structure Step (S L : Type) where
  pre : S
  label : L
  post : S

/-- Runs of the step relation `R` from `s₀`, newest step last. -/
inductive Run {S L : Type} (R : S → L → S → Prop) (s₀ : S) : List (Step S L) → S → Prop where
  | nil : Run R s₀ [] s₀
  | snoc {h : List (Step S L)} {s s' : S} {l : L} (run : Run R s₀ h s) (step : R s l s') :
      Run R s₀ (h ++ [⟨s, l, s'⟩]) s'

variable {S L β : Type} {R : S → L → S → Prop} {s₀ s s₁ s₂ : S} {h h₁ h₂ : List (Step S L)}

/-! ## Cutting and gluing -/

/-- Runs that meet are one run. Induction on the second. -/
theorem Run.append (run₁ : Run R s₀ h₁ s₁) (run₂ : Run R s₁ h₂ s₂) :
    Run R s₀ (h₁ ++ h₂) s₂ := by
  induction run₂ with
  | nil => simpa using run₁
  | snoc _ step ih =>
    rw [← List.append_assoc]
    exact ih.snoc step

/-- **A run is cut at any step of its history.** Induction on the run: the step is the
last one, or it lies in the run before. -/
theorem Run.split {x : Step S L} (run : Run R s₀ (h₁ ++ x :: h₂) s) :
    Run R s₀ h₁ x.pre ∧ R x.pre x.label x.post ∧ Run R x.post h₂ s := by
  generalize hh : h₁ ++ x :: h₂ = h at run
  induction run generalizing h₂ with
  | nil => simp at hh
  | @snoc h s s' l run step ih =>
    -- the step that is cut at is the newest one, or the newest one comes after it
    rcases List.eq_nil_or_concat h₂ with rfl | ⟨h₂', y, rfl⟩
    · obtain ⟨rfl, hx⟩ := List.append_inj' hh rfl
      obtain rfl : x = ⟨s, l, s'⟩ := by simpa using hx
      exact ⟨run, step, .nil⟩
    · have hcut : (h₁ ++ x :: h₂') ++ [y] = h ++ [⟨s, l, s'⟩] := by simpa using hh
      obtain ⟨hpre, hy⟩ := List.append_inj' hcut rfl
      obtain rfl : y = ⟨s, l, s'⟩ := by simpa using hy
      obtain ⟨hrun₁, hstep, hrun₂⟩ := ih hpre
      exact ⟨hrun₁, hstep, by simpa using hrun₂.snoc step⟩

theorem Run.of_nil (run : Run R s₀ [] s) : s = s₀ := by
  generalize hh : ([] : List (Step S L)) = h at run
  cases run with
  | nil => rfl
  | snoc => simp at hh

/-- The last step of a run, and the run before it. -/
theorem Run.of_snoc {x : Step S L} (run : Run R s₀ (h ++ [x]) s) :
    Run R s₀ h x.pre ∧ R x.pre x.label x.post ∧ s = x.post := by
  obtain ⟨hrun, hstep, hrest⟩ := run.split
  exact ⟨hrun, hstep, hrest.of_nil⟩

/-- What a history holds is a step of the system, from a state
the run before it reached. -/
theorem Run.of_mem (run : Run R s₀ h s) {x : Step S L} (hx : x ∈ h) :
    (∃ h₁, Run R s₀ h₁ x.pre) ∧ R x.pre x.label x.post := by
  obtain ⟨h₁, h₂, rfl⟩ := List.append_of_mem hx
  obtain ⟨hrun, hstep, _⟩ := run.split
  exact ⟨⟨h₁, hrun⟩, hstep⟩

/-- A run with one step in front. -/
theorem Run.cons {l : L} (step : R s₀ l s₁) (run : Run R s₁ h s) :
    Run R s₀ (⟨s₀, l, s₁⟩ :: h) s :=
  (Run.snoc .nil step).append run

/-! ## The rules -/

/-- **The invariant rule.** -/
theorem Run.invariant (I : S → Prop) (hinit : I s₀)
    (hstep : ∀ s l s', I s → R s l s' → I s') (run : Run R s₀ h s) : I s := by
  induction run with
  | nil => exact hinit
  | snoc _ step ih => exact hstep _ _ _ ih step

/-- **Kept unless.** If every step of the run keeps `P` or has `Q` happen, and `Q` never
happens, then `P` is kept over the run. -/
theorem Run.unless {P : S → Prop} {Q : Step S L → Prop} (run : Run R s₀ h s)
    (hkeep : ∀ x ∈ h, R x.pre x.label x.post → P x.pre → ¬ Q x → P x.post)
    (hP : P s₀) (hQ : ∀ x ∈ h, ¬ Q x) : P s := by
  induction run with
  | nil => exact hP
  | @snoc h s s' l run step ih =>
    have hprev := ih (fun x hx => hkeep x (by simp [hx])) (fun x hx => hQ x (by simp [hx]))
    exact hkeep ⟨s, l, s'⟩ (by simp) step hprev (hQ _ (by simp))

/-- **Kept exactly unless.** If `P` holds after a step of the run exactly if it held before and
`Q` did not happen, then it holds after the run exactly if it held before and `Q` never
happened. -/
theorem Run.kept_iff {P : S → Prop} {Q : Step S L → Prop} (run : Run R s₀ h s)
    (hstep : ∀ x ∈ h, R x.pre x.label x.post → (P x.post ↔ P x.pre ∧ ¬ Q x)) :
    P s ↔ P s₀ ∧ ∀ x ∈ h, ¬ Q x := by
  induction run with
  | nil => simp
  | @snoc h s s' l run step ih =>
    have hlast := hstep ⟨s, l, s'⟩ (by simp) step
    have hprev := ih fun x hx => hstep x (by simp [hx])
    show P s' ↔ _
    rw [hlast, hprev, List.forall_mem_append, List.forall_mem_singleton, and_assoc]

/-- **Something happens in between.** `x` establishes `P`, every step keeps `P` unless `Q`
happens, and `y` is never done under `P`: between `x` and `y`, `Q` happens. -/
theorem Run.between {P : S → Prop} {Q : Step S L → Prop} {x y : Step S L}
    {pre mid post : List (Step S L)} (run : Run R s₀ (pre ++ x :: (mid ++ y :: post)) s)
    (hkeep : ∀ z ∈ mid, R z.pre z.label z.post → P z.pre → ¬ Q z → P z.post)
    (hx : P x.post) (hy : ¬ P y.pre) : ∃ z ∈ mid, Q z := by
  obtain ⟨_, _, hrest⟩ := run.split
  obtain ⟨hmid, _, _⟩ := hrest.split
  -- if `Q` had not happened, `P` would have lasted until `y`
  by_contra hnone
  push Not at hnone
  exact hy (hmid.unless hkeep hx hnone)

/-- **The last entry.** What did not hold at the start and holds at the end became true at
some step and held ever since. Induction on the run: the newest step made it true, or it held
before that step already. -/
theorem Run.enters {P : S → Prop} (run : Run R s₀ h s) (hstart : ¬ P s₀) (hend : P s) :
    ∃ before x after, h = before ++ x :: after ∧ ¬ P x.pre ∧ P x.post
      ∧ ∀ y ∈ after, P y.pre ∧ P y.post := by
  induction run with
  | nil => exact absurd hend hstart
  | @snoc h s s' l run step ih =>
    by_cases hs : P s
    · -- it held already, so it was entered earlier and has held through this step too
      obtain ⟨before, x, after, rfl, hpre, hpost, hsince⟩ := ih hs
      refine ⟨before, x, after ++ [⟨s, l, s'⟩], by simp, hpre, hpost, ?_⟩
      intro y hy
      rcases List.mem_append.mp hy with hy | hy
      · exact hsince y hy
      · obtain rfl := List.mem_singleton.mp hy
        exact ⟨hs, hend⟩
    · -- this step made it true
      exact ⟨h, ⟨s, l, s'⟩, [], rfl, hs, hend, by simp⟩

/-! ## The latest step of a kind -/

/-- What `f` says of the last step of `h` on which it says anything. -/
def latest (f : Step S L → Option β) (h : List (Step S L)) : Option β :=
  (h.filterMap f).getLast?

/-- The newest step decides, and where it says nothing the rest of the history does. -/
theorem latest_snoc (f : Step S L → Option β) (h : List (Step S L)) (x : Step S L) :
    latest f (h ++ [x]) = (f x).or (latest f h) := by
  unfold latest
  cases hx : f x with
  | none => simp [List.filterMap_append, hx]
  | some b => simp [List.filterMap_append, hx]

end Interaction
