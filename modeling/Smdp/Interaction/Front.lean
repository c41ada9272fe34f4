import Smdp.Interaction.Crash

/-!
# Interaction — a front before a machine

What reaches a machine from outside is not a command yet. A front makes of it what it can: a
command, which is then served as a thread, or an answer of its own, and then no call is made at all.
`Machine.behind` is a machine with a front before it.

* `Run.admitted`: what happens behind a front is a history of the machine itself, with the same
  calls under the same inputs in the same order, and the same state after them. What is begun in it
  is what the front let pass; what it answers by itself leaves no trace there.
-/

namespace Interaction

variable {F : Sig} {C D ι α β S : Type}

/-- Sequencing is associative. Induction on the first part. -/
theorem Prog.bind_bind {γ : Type} (p : Prog F α) (f : α → Prog F β)
    (g : β → Prog F γ) : (p >>= f >>= g) = p >>= fun a => f a >>= g := by
  induction p with
  | ret a => rfl
  | call op k ih =>
    simp only [Prog.call_bind]
    congr 1
    funext r
    exact ih r

structure Front (D C α β : Type) where
  /-- The command that something from outside is, or what the front answers to it. -/
  pass : D → Except β C
  /-- The answer to the command, as it leaves. -/
  wrap : D → α → β

namespace Front

variable (front : Front D C α β)

/-- What is left of a program, seen from outside. -/
def seen (d : D) (left : Prog F α) : Prog F β := left >>= fun a => .ret (front.wrap d a)

@[simp] theorem seen_ret (d : D) (a : α) :
    front.seen d (.ret a : Prog F α) = .ret (front.wrap d a) := rfl

@[simp] theorem seen_call (d : D) (op : F.Op) (k : F.Ret op → Prog F α) :
    front.seen d (.call op k) = .call op fun r => front.seen d (k r) := rfl

/-- Where a program goes on, it does so behind the front. -/
theorem seen_eq_call {d : D} {left : Prog F α} {op : F.Op} {k : F.Ret op → Prog F β}
    (h : front.seen d left = .call op k) :
    ∃ k', left = .call op k' ∧ k = fun r => front.seen d (k' r) := by
  cases left with
  | ret a => cases h
  | call op' k' =>
    rw [seen_call] at h
    cases h
    exact ⟨k', rfl, rfl⟩

end Front

/-- The machine, and only what the front admits gets to it. -/
def Machine.behind (M : Machine F C ι α S) (front : Front D C α β) : Machine F D ι β S where
  program d :=
    match front.pass d with
    | .error b => .ret b
    | .ok c => front.seen d (M.program c)
  perform := M.perform
  lockUse := M.lockUse

/-! ## The threads that were admitted -/

namespace Front

variable (front : Front D C α β)

/-- `ys` are the threads among `xs` that were admitted, in their order. -/
inductive Admitted : List (Thread F D β) → List (Thread F C α) → Prop where
  | nil : Admitted [] []
  | answered {xs ys d b} (turned : front.pass d = .error b) (others : Admitted xs ys) :
      Admitted (⟨d, .ret b⟩ :: xs) ys
  | served {xs ys d c left} (admitted : front.pass d = .ok c) (others : Admitted xs ys) :
      Admitted (⟨d, front.seen d left⟩ :: xs) (⟨c, left⟩ :: ys)

/-- The number of thread `t` among those admitted. -/
def place (ds : List D) (t : Nat) : Nat := (ds.take t).countP fun d => (front.pass d).isOk

variable {front} {xs xs' : List (Thread F D β)} {ys ys' : List (Thread F C α)}

theorem place_append {ds ds' : List D} {t : Nat} (ht : t ≤ ds.length) :
    front.place (ds ++ ds') t = front.place ds t := by
  unfold place
  rw [List.take_append_of_le_length ht]

theorem place_cons_error {d : D} {ds : List D} {t : Nat} {b : β} (h : front.pass d = .error b) :
    front.place (d :: ds) (t + 1) = front.place ds t := by
  simp [place, h, Except.isOk, Except.toBool]

theorem place_cons_ok {d : D} {ds : List D} {t : Nat} {c : C} (h : front.pass d = .ok c) :
    front.place (d :: ds) (t + 1) = front.place ds t + 1 := by
  simp [place, h, Except.isOk, Except.toBool]

theorem Admitted.append (h : front.Admitted xs ys) (h' : front.Admitted xs' ys') :
    front.Admitted (xs ++ xs') (ys ++ ys') := by
  induction h with
  | nil => exact h'
  | answered turned _ ih => exact .answered turned ih
  | served admitted _ ih => exact .served admitted ih

/-- A thread that goes on serves what it served. -/
theorem commands_set {t : Nat} {d : D} {rest rest' : Prog F β} (ht : xs[t]? = some ⟨d, rest⟩) :
    (xs.set t ⟨d, rest'⟩).map Thread.command = xs.map Thread.command := by
  obtain ⟨hlt, _⟩ := List.getElem?_eq_some_iff.mp ht
  rw [List.map_set]
  apply List.ext_getElem?
  intro u
  rw [List.getElem?_set]
  split
  · rename_i htu
    rw [← htu, if_pos (by rwa [List.length_map]), List.getElem?_map, ht]
    rfl
  · rfl

/-- A thread was answered by the front, or is served under its place. -/
theorem Admitted.get (h : front.Admitted xs ys) {t : Nat} {d : D} {rest : Prog F β}
    (ht : xs[t]? = some ⟨d, rest⟩) :
    (∃ b, front.pass d = .error b ∧ rest = .ret b)
      ∨ ∃ c left, front.pass d = .ok c ∧ rest = front.seen d left
        ∧ ys[front.place (xs.map Thread.command) t]? = some ⟨c, left⟩ := by
  induction h generalizing t with
  | nil => cases ht
  | @answered xs ys d' b turned _ ih =>
    cases t with
    | zero =>
      cases ht
      exact .inl ⟨b, turned, rfl⟩
    | succ t =>
      rw [List.map_cons, place_cons_error turned]
      exact ih ht
  | @served xs ys d' c left admitted _ ih =>
    cases t with
    | zero =>
      cases ht
      exact .inr ⟨c, left, admitted, rfl, rfl⟩
    | succ t =>
      rw [List.map_cons, place_cons_ok admitted]
      exact ih ht

/-- A served thread goes on. -/
theorem Admitted.set (h : front.Admitted xs ys) {t : Nat} {d : D} {c : C} {rest : Prog F β}
    (ht : xs[t]? = some ⟨d, rest⟩) (hc : front.pass d = .ok c) (left : Prog F α) :
    front.Admitted (xs.set t ⟨d, front.seen d left⟩)
      (ys.set (front.place (xs.map Thread.command) t) ⟨c, left⟩) := by
  induction h generalizing t with
  | nil => cases ht
  | @answered xs ys d' b turned others ih =>
    cases t with
    | zero =>
      cases ht
      rw [turned] at hc
      cases hc
    | succ t =>
      rw [List.map_cons, place_cons_error turned]
      exact .answered turned (ih ht)
  | @served xs ys d' c' left' admitted others ih =>
    cases t with
    | zero =>
      cases ht
      obtain rfl : c' = c := Except.ok.inj (admitted.symm.trans hc)
      exact .served admitted others
    | succ t =>
      rw [List.map_cons, place_cons_ok admitted]
      exact .served admitted (ih ht)

end Front

/-! ## What happens behind a front -/

/-- The call that a step makes and the input it makes it under, or the end of a life. -/
def LifeEvent.made : LifeEvent F C ι → Option (Option (ι × Call F))
  | .alive (.started _ _) => none
  | .alive (.called _ _ input call) => some (some (input, call))
  | .crashed => some none

/-- The command that a step begins. -/
def LifeEvent.began : LifeEvent F C ι → Option C
  | .alive (.started _ c) => some c
  | _ => none

/-- What a step begins behind the front, if the front lets it pass. -/
def Front.passed (front : Front D C α β) (l : LifeEvent F D ι) : Option C :=
  l.began.bind fun d => (front.pass d).toOption

/-- `q` is what there is of `p` behind the front: a thread for each one that was let pass, as far
as that one is, and the mutex held by the same. -/
structure Front.Behind (front : Front D C α β) (p : Pool F D β S) (q : Pool F C α S) : Prop where
  threads : front.Admitted p.threads q.threads
  shared : q.shared = p.shared
  holder : q.holder = p.holder.map (front.place (p.threads.map Thread.command))
  holder_lt : ∀ t, p.holder = some t → t < p.threads.length

namespace Machine

variable {M : Machine F C ι α S} {front : Front D C α β} {restart : S → S} {s₀ : S}
  {p p' : Pool F D β S} {q : Pool F C α S} {h : List (Step (Pool F D β S) (LifeEvent F D ι))}

theorem behind_idle (s : S) : front.Behind (.idle s : Pool F D β S) (.idle s : Pool F C α S) where
  threads := .nil
  shared := rfl
  holder := rfl
  holder_lt t ht := by cases ht

/-- A thread that comes in is admitted, or is answered and there is nothing of it behind the
front. -/
theorem behind_started (hpq : front.Behind p q) (d : D) :
    ∃ q', ((∃ b, front.pass d = .error b ∧ q' = q)
        ∨ ∃ t c, front.pass d = .ok c ∧ M.PoolStep q (.started t c) q')
      ∧ front.Behind
        { p with threads := p.threads ++ [⟨d, (M.behind front).program d⟩] } q' := by
  have hholder : q.holder = p.holder.map
      (front.place ((p.threads ++ [Thread.mk d ((M.behind front).program d)]).map Thread.command)) := by
    rw [hpq.holder]
    cases hheld : p.holder with
    | none => rfl
    | some t =>
      have hlt := hpq.holder_lt t hheld
      -- the holder came before the new thread, so its place is what it was
      show some _ = some _
      rw [List.map_append, Front.place_append (by rw [List.length_map]; omega)]
  have hlt : ∀ t, p.holder = some t →
      t < (p.threads ++ [Thread.mk d ((M.behind front).program d)]).length := by
    intro t ht
    have hlt := hpq.holder_lt t ht
    rw [List.length_append]
    omega
  cases hpass : front.pass d with
  | error b =>
    -- answered where it stands: there is no thread for it behind the front
    refine ⟨q, .inl ⟨b, rfl, rfl⟩, ?_, hpq.shared, hholder, hlt⟩
    have hprogram : (M.behind front).program d = .ret b := by
      simp only [behind, hpass]
    rw [hprogram, ← List.append_nil q.threads]
    exact hpq.threads.append (.answered hpass .nil)
  | ok c =>
    refine ⟨_, .inr ⟨_, c, rfl, .started c⟩, ?_, hpq.shared, hholder, hlt⟩
    have hprogram : (M.behind front).program d = front.seen d (M.program c) := by
      simp only [behind, hpass]
    rw [hprogram]
    exact hpq.threads.append (.served hpass .nil)

/-- A thread that calls was admitted, and makes its call behind the front. -/
theorem behind_called (hpq : front.Behind p q) {t : Nat} {d : D} {input : ι} {call : Call F}
    (step : (M.behind front).PoolStep p (.called t d input call) p') :
    ∃ q' c, M.PoolStep q (.called (front.place (p.threads.map Thread.command) t) c input call) q'
      ∧ front.Behind p' q' := by
  cases step with
  | @called _ _ op k _ running free =>
    rcases hpq.threads.get running with ⟨b, _, hret⟩ | ⟨c, left, hpass, hseen, hplace⟩
    · cases hret
    -- the call is the program's own: the front asks for none
    obtain ⟨k', rfl, rfl⟩ := front.seen_eq_call hseen.symm
    -- the mutex is free behind the front if it is free before it
    have hfree : M.lockUse op = .acquires → q.holder = none := by
      intro huse
      rw [hpq.holder, free huse]
      rfl
    have hstep := PoolStep.called (M := M) input hplace hfree
    rw [hpq.shared] at hstep
    refine ⟨_, c, hstep, ?_⟩
    obtain ⟨hlt, _⟩ := List.getElem?_eq_some_iff.mp running
    constructor
    · -- the thread goes on in both pools, under its number here and its place there
      show front.Admitted (p.threads.set t _) (q.threads.set _ _)
      rw [hpq.shared]
      exact hpq.threads.set running hpass _
    · -- the states are the same, so the operation does the same to them
      show (M.perform input op q.shared).2 = (M.perform input op p.shared).2
      rw [hpq.shared]
    · -- the mutex goes to the same thread, by its place; a thread that goes on changes no places
      show M.holderAfter q.holder _ op
        = (M.holderAfter p.holder t op).map (front.place ((p.threads.set t _).map Thread.command))
      rw [Front.commands_set running, hpq.holder]
      unfold holderAfter
      cases M.lockUse op <;> rfl
    · -- whoever holds the mutex afterwards is one of the threads
      intro u hu
      have hheld : M.holderAfter p.holder t op = some u := hu
      show u < (p.threads.set t _).length
      rw [List.length_set]
      unfold holderAfter at hheld
      split at hheld
      · obtain rfl := Option.some.inj hheld
        exact hlt
      · cases hheld
      · exact hpq.holder_lt u hheld

/-- A step goes on in both histories: what shows of it before the front shows of `x` behind it. -/
theorem shown_snoc_eq {G H L L' E : Type} {f : L → Option E} {f' : L' → Option E}
    {g : List (Step G L)} {h : List (Step H L')} (hsame : shown f g = shown f' h) {x : Step G L}
    {y : Step H L'} (hxy : f x.label = f' y.label) :
    shown f (g ++ [x]) = shown f' (h ++ [y]) := by
  rw [shown_append, shown_append, hsame]
  simp only [shown, List.filterMap_cons, List.filterMap_nil, hxy]

/-- **What happens behind a front is a history of the machine itself.** What is begun in it is what
was let pass, the same calls are made, under the same inputs and in the same order, and it crashes
where it did. Induction on the run. -/
theorem Run.admitted (run : Run ((M.behind front).LifeStep restart) (.idle s₀) h p) :
    ∃ g q, Run (M.LifeStep restart) (.idle s₀) g q ∧ shown LifeEvent.made g = shown LifeEvent.made h
      ∧ shown LifeEvent.began g = shown front.passed h ∧ front.Behind p q := by
  induction run with
  | nil => exact ⟨[], .idle s₀, .nil, rfl, rfl, behind_idle s₀⟩
  | @snoc h p p' l run step ih =>
    obtain ⟨g, q, hg, hmade, hbegan, hpq⟩ := ih
    rcases step.cases with ⟨l, rfl, halive⟩ | ⟨rfl, rfl⟩
    · cases l with
      | started t d =>
        cases halive with
        | started =>
          obtain ⟨q', ⟨b, hpass, rfl⟩ | ⟨t', c, hpass, hstep⟩, hpq'⟩ := behind_started hpq d
          · -- turned away by the front: the history behind it does not go on
            have hnone : front.passed (.alive (.started p.threads.length d)
                : LifeEvent F D ι) = none := by
              simp [Front.passed, LifeEvent.began, hpass, Except.toOption]
            refine ⟨g, q', hg, ?_, ?_, hpq'⟩
            · rw [shown_append, hmade]
              exact (List.append_nil _).symm
            · rw [shown_append, hbegan]
              simp [shown, hnone]
          · have hsome : front.passed (.alive (.started p.threads.length d)
                : LifeEvent F D ι) = some c := by
              simp [Front.passed, LifeEvent.began, hpass, Except.toOption]
            exact ⟨_, q', hg.snoc (.alive hstep), shown_snoc_eq hmade rfl,
              shown_snoc_eq hbegan hsome.symm, hpq'⟩
      | called t d input call =>
        obtain ⟨q', c, hstep, hpq'⟩ := behind_called hpq halive
        exact ⟨_, q', hg.snoc (.alive hstep), shown_snoc_eq hmade rfl, shown_snoc_eq hbegan rfl,
          hpq'⟩
    · refine ⟨_, .idle (restart q.shared), hg.snoc .crashed, shown_snoc_eq hmade rfl,
        shown_snoc_eq hbegan rfl, ?_⟩
      rw [hpq.shared]
      exact behind_idle _

end Machine

end Interaction
