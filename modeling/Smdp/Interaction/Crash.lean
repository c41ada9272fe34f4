import Smdp.Interaction.Refine

/-!
# Interaction — a machine that crashes

A machine may stop at any point: its threads are gone, its mutex with them, and of the state
what `restart` keeps is what it goes on with. Its history is then a sequence of lives, and in each
of them it is an ordinary pool that starts idle (`Run.lastLife`).

* `Run.inLife`: a run without a crash is a run.
* `Run.allowed_lives`, `Run.returned_lives`: a thread keeps its protocol within its life.
* `Run.simulates_lives`: the simulation rule, where the relation looks at the life only.
-/

namespace Interaction

/-- A step of a life, or its end. The end of a life is nobody's step: it can come between any two
calls. -/
inductive LifeEvent (F : Sig) (C ι : Type) where
  | alive (l : PoolEvent F C ι)
  | crashed

variable {F : Sig} {C ι α S T E : Type}

/-- A step as it stands in the history of a machine that crashes. -/
def Step.inLife (x : Step (Pool F C α S) (PoolEvent F C ι)) :
    Step (Pool F C α S) (LifeEvent F C ι) :=
  ⟨x.pre, .alive x.label, x.post⟩

@[simp] theorem Step.inLife_label (x : Step (Pool F C α S) (PoolEvent F C ι)) :
    x.inLife.label = .alive x.label := rfl

namespace Machine

variable (M : Machine F C ι α S) (restart : S → S)

/-- A crash is possible anywhere. What is left is an idle pool on what `restart` makes of the
state; the mutex is nobody's, also where it was held. -/
inductive LifeStep : Pool F C α S → LifeEvent F C ι → Pool F C α S → Prop where
  | alive {p p' : Pool F C α S} {l : PoolEvent F C ι} (step : M.PoolStep p l p') :
      LifeStep p (.alive l) p'
  | crashed {p : Pool F C α S} : LifeStep p .crashed (.idle (restart p.shared))

variable {M restart} {p p' : Pool F C α S} {s₀ : S}
  {h : List (Step (Pool F C α S) (LifeEvent F C ι))}

/-- A step of a life, or its end. -/
theorem LifeStep.cases {l : LifeEvent F C ι} (step : M.LifeStep restart p l p') :
    (∃ l', l = .alive l' ∧ M.PoolStep p l' p')
      ∨ (l = .crashed ∧ p' = .idle (restart p.shared)) := by
  cases step with
  | alive step => exact .inl ⟨_, rfl, step⟩
  | crashed => exact .inr ⟨rfl, rfl⟩

/-- A run without a crash. -/
theorem Run.inLife {life : List (Step (Pool F C α S) (PoolEvent F C ι))}
    (run : Run M.PoolStep p life p') : Run (M.LifeStep restart) p (life.map Step.inLife) p' := by
  induction run with
  | nil => exact .nil
  | @snoc life p' p'' l run step ih =>
    rw [List.map_append, List.map_singleton]
    exact ih.snoc (.alive step)

/-- The calls thread `t` has made in the life that a history ends in. -/
def callsInLife (t : Nat) (h : List (Step (Pool F C α S) (LifeEvent F C ι))) : List (Call F) :=
  h.foldl
    (fun made x =>
      match x.label with
      | .alive (.started _ _) => made
      | .alive (.called u _ _ call) => if u = t then made ++ [call] else made
      | .crashed => [])
    []

theorem callsInLife_snoc (t : Nat) (x : Step (Pool F C α S) (LifeEvent F C ι)) :
    callsInLife t (h ++ [x])
      = match x.label with
        | .alive (.started _ _) => callsInLife t h
        | .alive (.called u _ _ call) =>
          if u = t then callsInLife t h ++ [call] else callsInLife t h
        | .crashed => [] := by
  unfold callsInLife
  rw [List.foldl_append]
  rfl

/-- A call that is followed by no crash is one of this life. -/
theorem mem_callsInLife_of_alive {t : Nat}
    {before after : List (Step (Pool F C α S) (LifeEvent F C ι))}
    {x : Step (Pool F C α S) (LifeEvent F C ι)} {c : C} {input : ι} {call : Call F}
    (hafter : ∀ y ∈ after, y.label ≠ .crashed) (hx : x.label = .alive (.called t c input call)) :
    call ∈ callsInLife t (before ++ x :: after) := by
  induction after using List.reverseRecOn with
  | nil =>
    rw [callsInLife_snoc, hx]
    simp
  | append_singleton after y ih =>
    have hmade := ih fun z hz => hafter z (List.mem_append_left _ hz)
    have hy : y.label ≠ .crashed := hafter y (by simp)
    rw [← List.cons_append, ← List.append_assoc, callsInLife_snoc]
    split
    · exact hmade
    · split
      · exact List.mem_append_left _ hmade
      · exact hmade
    · rename_i hcrashed
      exact absurd hcrashed hy

/-- **Induction over lives.** What is said of a history and of the life it ends in holds at first,
is kept by every step of a life, and holds of the life that a crash begins. -/
theorem Run.inductLives
    {I : List (Step (Pool F C α S) (LifeEvent F C ι)) →
      List (Step (Pool F C α S) (PoolEvent F C ι)) → Pool F C α S → Prop}
    (run : Run (M.LifeStep restart) (.idle s₀) h p) (hinit : I [] [] (.idle s₀))
    (hstep : ∀ s₁ h life p l p', Run M.PoolStep (.idle s₁) life p → M.PoolStep p l p' →
      I h life p → I (h ++ [⟨p, .alive l, p'⟩]) (life ++ [⟨p, l, p'⟩]) p')
    (hcrash : ∀ h life p, I h life p →
      I (h ++ [⟨p, .crashed, .idle (restart p.shared)⟩]) [] (.idle (restart p.shared))) :
    ∃ life s₁, Run M.PoolStep (.idle s₁) life p ∧ I h life p := by
  induction run with
  | nil => exact ⟨[], s₀, .nil, hinit⟩
  | @snoc h p p' l run step ih =>
    obtain ⟨life, s₁, hlife, hI⟩ := ih
    rcases step.cases with ⟨l, rfl, halive⟩ | ⟨rfl, rfl⟩
    · -- the life goes on by one step
      exact ⟨life ++ [⟨p, l, p'⟩], s₁, hlife.snoc halive, hstep s₁ h life p l p' hlife halive hI⟩
    · -- a new life begins, with nothing in it
      exact ⟨[], restart p.shared, .nil, hcrash h life p hI⟩

/-- **A history ends in a life**, which started idle and in which each thread made its calls. -/
theorem Run.lastLife (run : Run (M.LifeStep restart) (.idle s₀) h p) :
    ∃ before life s₁, h = before ++ life.map Step.inLife ∧ Run M.PoolStep (.idle s₁) life p
      ∧ ∀ t, callsInLife t h = callsOf t life := by
  have hends : ∃ life s₁, Run M.PoolStep (.idle s₁) life p
      ∧ (∃ before, h = before ++ life.map Step.inLife)
      ∧ ∀ t, callsInLife t h = callsOf t life := by
    apply Run.inductLives run
    · exact ⟨⟨[], rfl⟩, fun _ => rfl⟩
    · rintro s₁ h life p l p' _ _ ⟨⟨before, rfl⟩, hcalls⟩
      refine ⟨⟨before, by simp [Step.inLife]⟩, ?_⟩
      intro t
      rw [callsInLife_snoc]
      cases l with
      | started u c => rw [callsOf_snoc_started, hcalls t]
      | called u c input call => rw [callsOf_snoc_called, hcalls t]
    · rintro h life p _
      refine ⟨⟨_, (List.append_nil _).symm⟩, ?_⟩
      intro t
      rw [callsInLife_snoc]
      rfl
  obtain ⟨life, s₁, hlife, ⟨before, hh⟩, hcalls⟩ := hends
  exact ⟨before, life, s₁, hh, hlife, hcalls⟩

/-- What a thread has done in its life is there in the history, after its last crash. -/
theorem Run.mem_callsInLife (run : Run (M.LifeStep restart) (.idle s₀) h p) {t : Nat}
    {x : Thread F C α} (hx : p.threads[t]? = some x) {call : Call F} (hcall : call ∈ callsInLife t h) :
    ∃ before y after input, h = before ++ y :: after
      ∧ y.label = .alive (.called t x.command input call)
      ∧ ∀ z ∈ after, z.label ≠ .crashed := by
  obtain ⟨before, life, s₁, rfl, hlife, hcalls⟩ := Run.lastLife run
  rw [hcalls t] at hcall
  obtain ⟨y, hy, c, input, hlabel⟩ := mem_callsOf hcall
  -- a thread serves one command, so the call was made for the one it still has
  obtain rfl := Run.command_eq hlife hy hlabel hx
  obtain ⟨mid, after, rfl⟩ := List.append_of_mem hy
  refine ⟨before ++ mid.map Step.inLife, y.inLife, after.map Step.inLife, input, by simp, ?_, ?_⟩
  · rw [Step.inLife_label, hlabel]
  · -- what follows in the life is of the life
    intro z hz
    obtain ⟨z', _, rfl⟩ := List.mem_map.mp hz
    rw [Step.inLife_label]
    simp

section

variable {Φ : Type} {P : C → Protocol F Φ} {post : C → α → Φ → Prop} {t : Nat} {c : C}

/-- **What a thread asks for is allowed** by what it has done in its life. -/
theorem Run.allowed_lives (hprogram : ∀ c, (M.program c).Keeps (P c) (post c) (P c).start)
    (run : Run (M.LifeStep restart) (.idle s₀) h p) {input : ι} {call : Call F}
    (step : M.LifeStep restart p (.alive (.called t c input call)) p') :
    (P c).allowed ((P c).after (P c).start (callsInLife t h)) call.op := by
  obtain ⟨before, life, s₁, _, hlife, hcalls⟩ := Run.lastLife run
  rw [hcalls t]
  cases step with
  | alive step => exact Run.allowed hprogram hlife step

/-- **What a thread returns is backed** by what it has done in its life. -/
theorem Run.returned_lives (hprogram : ∀ c, (M.program c).Keeps (P c) (post c) (P c).start)
    (run : Run (M.LifeStep restart) (.idle s₀) h p) {a : α}
    (ht : p.threads[t]? = some ⟨c, .ret a⟩) :
    post c a ((P c).after (P c).start (callsInLife t h)) := by
  obtain ⟨before, life, s₁, _, hlife, hcalls⟩ := Run.lastLife run
  rw [hcalls t]
  exact Run.returned hprogram hlife ht

end

/-- **Simulation over lives.** The relation looks at what happened in the life so far, and starts
anew after a crash. -/
theorem Run.simulates_lives {A : T → E → T → Prop} {event : LifeEvent F C ι → Option E} {t₀ : T}
    {Rel : List (Step (Pool F C α S) (PoolEvent F C ι)) → Pool F C α S → T → Prop}
    (run : Run (M.LifeStep restart) (.idle s₀) h p) (hinit : Rel [] (.idle s₀) t₀)
    (hstep : ∀ s₁ life x after t, Run M.PoolStep (.idle s₁) life x.pre →
      M.PoolStep x.pre x.label x.post → Run (M.LifeStep restart) x.post after p →
      Rel life x.pre t →
      ∃ t', Follows A event t (.alive x.label) t' ∧ Rel (life ++ [x]) x.post t')
    (hcrash : ∀ life q t, Rel life q t →
      ∃ t', Follows A event t .crashed t' ∧ Rel [] (.idle (restart q.shared)) t') :
    ∃ g t, Run A t₀ g t ∧ g.map Step.label = shown event h
      ∧ ∃ life s₁, Run M.PoolStep (.idle s₁) life p ∧ Rel life p t := by
  have hsim : ∃ g t, Run A t₀ g t ∧ g.map Step.label = shown event h
      ∧ ∃ before life s₁, h = before ++ life.map Step.inLife
        ∧ Run M.PoolStep (.idle s₁) life p ∧ Rel life p t := by
    have hrun := run
    apply run.simulates
    · exact ⟨[], [], s₀, rfl, .nil, hinit⟩
    rintro h₁ ⟨q, l, q'⟩ h₂ t hh _ step ⟨before, life, s₁, rfl, hlife, hrel⟩
    -- the steps after this one are a run to `p`, which `hstep` may use
    rw [hh] at hrun
    obtain ⟨_, _, hafter⟩ := hrun.split
    have hcases := step.cases
    dsimp only at hcases
    rcases hcases with ⟨l, rfl, halive⟩ | ⟨rfl, rfl⟩
    · obtain ⟨t', hfollows, hrel'⟩ := hstep s₁ life ⟨q, l, q'⟩ h₂ t hlife halive hafter hrel
      refine ⟨t', hfollows, before, life ++ [⟨q, l, q'⟩], s₁, ?_, hlife.snoc halive, hrel'⟩
      rw [List.map_append, List.append_assoc]
      rfl
    · obtain ⟨t', hfollows, hrel'⟩ := hcrash life q t hrel
      exact ⟨t', hfollows, _, [], restart q.shared, (List.append_nil _).symm, .nil, hrel'⟩
  obtain ⟨g, t, hg, hlabels, _, life, s₁, _, hlife, hrel⟩ := hsim
  exact ⟨g, t, hg, hlabels, life, s₁, hlife, hrel⟩

end Machine

end Interaction
