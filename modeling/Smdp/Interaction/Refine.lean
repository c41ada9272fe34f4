import Mathlib.Data.List.Induction
import Smdp.Interaction.History
import Smdp.Interaction.Pool

/-!
# Interaction — runs seen from above

What a run does, without saying how: if every step that shows is a step of an abstract system,
then what a run shows, in order, is a run of the abstract system (`Run.simulates`). The relation
between the two may look at the history, so what a thread has done so far can be part of it. What
that is follows from the protocol its program keeps (`Run.allowed`, `Run.returned`).
-/

namespace Interaction

/-! ## Simulation -/

section

variable {S L T E : Type} {R R' : S → L → S → Prop} {A : T → E → T → Prop}
variable {s₀ s : S} {t₀ : T} {h : List (Step S L)}

/-- What the steps of a history show. -/
def shown (event : L → Option E) (h : List (Step S L)) : List E :=
  h.filterMap fun x => event x.label

theorem shown_append (event : L → Option E) (h₁ h₂ : List (Step S L)) :
    shown event (h₁ ++ h₂) = shown event h₁ ++ shown event h₂ := List.filterMap_append

/-- Where something shows, the history can be cut. -/
theorem cut_of_shown {event : L → Option E} {es es' : List E} {e : E}
    (hh : shown event h = es ++ e :: es') :
    ∃ h₁ x h₂, h = h₁ ++ x :: h₂ ∧ shown event h₁ = es ∧ event x.label = some e
      ∧ shown event h₂ = es' := by
  obtain ⟨h₁, rest, rfl, rfl, hrest⟩ := List.filterMap_eq_append_iff.mp hh
  obtain ⟨hidden, x, h₂, rfl, hhidden, hx, rfl⟩ := List.filterMap_eq_cons_iff.mp hrest
  refine ⟨h₁ ++ hidden, x, h₂, by simp, ?_, hx, rfl⟩
  rw [shown_append]
  have hnone : shown event hidden = [] := List.filterMap_eq_nil_iff.mpr hhidden
  rw [hnone, List.append_nil]
  rfl

/-- What was said last was said at some step, and nothing was said since. -/
theorem cut_of_latest {f : Step S L → Option E} {e : E} (hh : latest f h = some e) :
    ∃ h₁ x h₂, h = h₁ ++ x :: h₂ ∧ f x = some e ∧ ∀ y ∈ h₂, f y = none := by
  induction h using List.reverseRecOn with
  | nil => cases hh
  | append_singleton h x ih =>
    rw [latest_snoc] at hh
    cases hx : f x with
    -- the newest step said it
    | some e' =>
      rw [hx] at hh
      exact ⟨h, x, [], rfl, by rw [hx]; exact hh, by simp⟩
    -- the newest step said nothing, so it was said before
    | none =>
      rw [hx, Option.none_or] at hh
      obtain ⟨h₁, y, h₂, rfl, hy, hsince⟩ := ih hh
      refine ⟨h₁, y, h₂ ++ [x], by simp, hy, ?_⟩
      intro z hz
      rcases List.mem_append.mp hz with hz | hz
      · exact hsince z hz
      · rw [List.mem_singleton.mp hz, hx]

/-- Where nothing was said last, nothing was said. Induction on the history, newest step first. -/
theorem none_of_latest {f : Step S L → Option E} (hh : latest f h = none) : ∀ y ∈ h, f y = none := by
  induction h using List.reverseRecOn with
  | nil => simp
  | append_singleton h x ih =>
    rw [latest_snoc, Option.or_eq_none_iff] at hh
    intro y hy
    rcases List.mem_append.mp hy with hy | hy
    · exact ih hh.2 y hy
    · rw [List.mem_singleton.mp hy, hh.1]

/-- What was last said from above was last said by the step that showed it. -/
theorem latest_shown {S' β : Type} {event : L → Option E} {g : List (Step S' E)}
    (hg : g.map Step.label = shown event h) (f : E → Option β) :
    latest (fun x => f x.label) g = latest (fun x => (event x.label).bind f) h := by
  unfold latest
  have hsame : g.filterMap (fun x => f x.label) = (g.map Step.label).filterMap f :=
    List.filterMap_map.symm
  rw [hsame, hg]
  unfold shown
  rw [List.filterMap_filterMap]

/-- `t` goes on to `t'` by what `l` shows, if it shows anything. -/
inductive Follows (A : T → E → T → Prop) (event : L → Option E) (t : T) (l : L) : T → Prop where
  | shows {e t'} (visible : event l = some e) (step : A t e t') : Follows A event t l t'
  | hides (silent : event l = none) : Follows A event t l t

/-- **Simulation.** Every step of the run is followed by the abstract system, in a relation that
may look at the history so far; then what the run shows is a run of the abstract system.
Induction on the run. -/
theorem Run.simulates {event : L → Option E} {Rel : List (Step S L) → S → T → Prop}
    (run : Run R s₀ h s) (hinit : Rel [] s₀ t₀)
    (hstep : ∀ h₁ x h₂ t, h = h₁ ++ x :: h₂ → Run R s₀ h₁ x.pre → R x.pre x.label x.post →
      Rel h₁ x.pre t → ∃ t', Follows A event t x.label t' ∧ Rel (h₁ ++ [x]) x.post t') :
    ∃ g t, Run A t₀ g t ∧ g.map Step.label = shown event h ∧ Rel h s t := by
  induction run with
  | nil => exact ⟨[], t₀, .nil, rfl, hinit⟩
  | @snoc h s s' l run step ih =>
    have hprefix : ∀ h₁ x h₂ t, h = h₁ ++ x :: h₂ → Run R s₀ h₁ x.pre → R x.pre x.label x.post →
        Rel h₁ x.pre t → ∃ t', Follows A event t x.label t' ∧ Rel (h₁ ++ [x]) x.post t' := by
      intro h₁ x h₂ t hh
      exact hstep h₁ x (h₂ ++ [⟨s, l, s'⟩]) t (by simp [hh])
    -- the abstract run so far, and one more step of it if this one shows
    obtain ⟨g, t, hrun, hlabels, hrel⟩ := ih hprefix
    obtain ⟨t', hfollows, hrel'⟩ := hstep h ⟨s, l, s'⟩ [] t rfl run step hrel
    cases hfollows with
    | @shows e _ visible astep =>
      refine ⟨g ++ [⟨t, e, t'⟩], t', hrun.snoc astep, ?_, hrel'⟩
      rw [List.map_append, hlabels, shown_append]
      simp [shown, visible]
    | hides silent =>
      refine ⟨g, t, hrun, ?_, hrel'⟩
      rw [hlabels, shown_append]
      simp [shown, silent]

end

/-! ## What threads have done -/

namespace Machine

variable {F : Sig} {C ι α S Φ : Type} {M : Machine F C ι α S} {p p' : Pool F C α S} {s₀ : S}
  {h : List (Step (Pool F C α S) (PoolEvent F C ι))}

/-- What a call of thread `t` needs, and what it does to the mutex. -/
theorem PoolStep.holder {t : Nat} {command : C} {input : ι} {call : Call F}
    (step : M.PoolStep p (.called t command input call) p') :
    t < p.threads.length ∧ (M.lockUse call.op = .acquires → p.holder = none)
      ∧ p'.holder = M.holderAfter p.holder t call.op := by
  cases step with
  | called input running free =>
    obtain ⟨hlt, _⟩ := List.getElem?_eq_some_iff.mp running
    exact ⟨hlt, free, rfl⟩

/-- A thread that has returned has done so in a phase its protocol ends in. -/
theorem Run.returned {P : C → Protocol F Φ} {post : C → α → Φ → Prop}
    (hprogram : ∀ c, (M.program c).Keeps (P c) (post c) (P c).start)
    (run : Run M.PoolStep (.idle s₀) h p) {t : Nat} {c : C} {a : α}
    (ht : p.threads[t]? = some ⟨c, .ret a⟩) :
    post c a ((P c).after (P c).start (callsOf t h)) :=
  Run.keeps hprogram run ht

/-- A thread serves one command. Induction on the run. -/
theorem Run.command_eq (run : Run M.PoolStep (.idle s₀) h p)
    {x : Step (Pool F C α S) (PoolEvent F C ι)} (hx : x ∈ h) {t : Nat} {c : C} {input : ι}
    {call : Call F} (hlabel : x.label = .called t c input call)
    {y : Thread F C α} (hy : p.threads[t]? = some y) : c = y.command := by
  induction run generalizing y with
  | nil => cases hx
  | @snoc h p p' l run step ih =>
    -- the thread that has made a call is there before the last step as well
    have hthere : ∀ y', p.threads[t]? = some y' → y'.command = y.command := by
      intro y' hy'
      cases step with
      | started command =>
        obtain ⟨hlt, _⟩ := List.getElem?_eq_some_iff.mp hy'
        rw [getElem?_started, if_neg (by omega), hy'] at hy
        rw [Option.some.inj hy]
      | @called u command op k input' running free =>
        rw [getElem?_advance running] at hy
        split at hy
        · rename_i hut
          rw [hut, running] at hy'
          rw [← Option.some.inj hy', ← Option.some.inj hy]
        · rw [hy'] at hy
          rw [Option.some.inj hy]
    rcases List.mem_append.mp hx with hx | hx
    · cases hbefore : p.threads[t]? with
      | some y' => exact (ih hx hbefore).trans (hthere y' hbefore)
      | none =>
        -- a thread that is not there has made no call
        have hnil := callsOf_eq_nil run (List.getElem?_eq_none_iff.mp hbefore)
        have hmem : call ∈ callsOf t h := by
          refine List.mem_filterMap.mpr ⟨x, hx, ?_⟩
          rw [hlabel]
          exact if_pos rfl
        rw [hnil] at hmem
        cases hmem
    · obtain rfl := List.mem_singleton.mp hx
      obtain rfl : l = .called t c input call := hlabel
      cases step with
      | called input running free => exact hthere _ running

/-- **Who holds the mutex has acquired it and not released it**, and nobody else has. Induction
on the run. -/
theorem Run.held {guarded : F.Op → Prop} (hprogram : ∀ c, M.LockSafe guarded false (M.program c))
    (run : Run M.PoolStep (.idle s₀) h p) {t : Nat} (ht : t < p.threads.length) :
    (M.lockProtocol guarded).after false (callsOf t h) = decide (p.holder = some t) := by
  induction run generalizing t with
  | nil => simp [Pool.idle] at ht
  | @snoc h p p' l run step ih =>
    have hinv := run.invariant (M.LockInv guarded) (lockInv_idle s₀)
      fun _ _ _ hp step => lockInv_step hprogram step hp
    cases step with
    | started command =>
      rw [callsOf_snoc_started]
      by_cases hnew : t = p.threads.length
      · rw [callsOf_eq_nil run (Nat.le_of_eq hnew.symm)]
        have hfree : p.holder ≠ some t := by
          intro hheld
          have hlt := hinv.holder_lt t hheld
          omega
        exact (decide_eq_false hfree).symm
      · apply ih
        simp at ht
        omega
    | @called u command op k input running free =>
      have hlen : t < p.threads.length := by simpa [advance] using ht
      obtain ⟨⟨_, hreleases, _⟩, _⟩ := hinv.safe u _ running
      rw [callsOf_snoc_called]
      show _ = decide (M.holderAfter p.holder u op = some t)
      unfold holderAfter
      by_cases hut : u = t
      · -- the thread that moved
        rw [if_pos hut, Protocol.after_snoc, ih hlen]
        cases huse : M.lockUse op <;> simp [huse, hut]
      · -- another thread: the mutex was not its own, and is not now
        rw [if_neg hut, ih hlen]
        cases huse : M.lockUse op with
        | acquires => simp [free huse, hut]
        | releases =>
          have hheld : p.holder = some u := of_decide_eq_true (hreleases huse)
          simp [hheld, hut]
        | neither => rfl

end Machine

end Interaction
