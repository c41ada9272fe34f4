import Mathlib.Algebra.BigOperators.Group.Finset.Piecewise
import Mathlib.Algebra.Order.BigOperators.Group.Finset
import Smdp.Interaction.Pool

/-!
# Interaction — every thread gets done

What keeps a pool of threads going. Programs that make a bounded number of calls bound the run
(`Run.length_le`), and programs that keep the lock protocol never wait for each other in a circle:
the thread that holds the mutex never waits for it (`Run.goes_on`). So whatever the scheduler
does, it runs out of calls only when every thread has returned and the mutex is free
(`Run.finished`), and from every state there is a way there (`Run.finishes`).
-/

namespace Interaction

/-! ## A bound on the calls -/

section

variable {F : Sig} {α β : Type}

/-- At most `n` calls. The phase is how many are left. -/
def Protocol.budget (F : Sig) (n : Nat) : Protocol F Nat where
  start := n
  allowed left _ := 0 < left
  next left _ := left - 1

@[simp] theorem Protocol.budget_allowed (n left : Nat) (op : F.Op) :
    (Protocol.budget F n).allowed left op ↔ 0 < left := Iff.rfl

@[simp] theorem Protocol.budget_next (n left : Nat) (call : Call F) :
    (Protocol.budget F n).next left call = left - 1 := rfl

theorem Protocol.budget_after (n left : Nat) (calls : List (Call F)) :
    (Protocol.budget F n).after left calls = left - calls.length := by
  induction calls generalizing left with
  | nil => rfl
  | cons call calls ih =>
    show (Protocol.budget F n).after (left - 1) calls = _
    rw [ih, List.length_cons]
    omega

namespace Prog

/-- `p` makes at most `n` calls, however it is answered. -/
def CallsAtMost (n : Nat) (p : Prog F α) : Prop :=
  p.Keeps (Protocol.budget F n) (fun _ _ => True) n

/-- A program may be given more calls, which it leaves. Induction on the program. -/
theorem keeps_budget {n n' left left' spare : Nat} {p : Prog F α} {post : α → Nat → Prop}
    (h : p.Keeps (Protocol.budget F n) (fun _ _ => True) left) (hleft : left + spare ≤ left')
    (hpost : ∀ a l, spare ≤ l → post a l) : p.Keeps (Protocol.budget F n') post left' := by
  induction p generalizing left left' with
  | ret a =>
    apply hpost
    omega
  | call op k ih =>
    have hallowed : 0 < left := h.1
    refine ⟨?_, fun r => ih r (h.2 r) ?_⟩
    · show 0 < left'
      omega
    · show left - 1 + spare ≤ left' - 1
      omega

theorem CallsAtMost.le {n m left : Nat} {p : Prog F α} (hp : p.CallsAtMost n) (hleft : n ≤ left) :
    p.Keeps (Protocol.budget F m) (fun _ _ => True) left := by
  refine keeps_budget hp (show n + 0 ≤ left from hleft) ?_
  intro a l hl
  trivial

theorem CallsAtMost.bind {n m : Nat} {p : Prog F α} {k : α → Prog F β} (hp : p.CallsAtMost n)
    (hk : ∀ a, (k a).CallsAtMost m) : (p >>= k).CallsAtMost (n + m) := by
  unfold CallsAtMost
  rw [keeps_bind]
  refine keeps_budget hp (Nat.le_refl _) ?_
  intro a left hleft
  exact (hk a).le hleft

end Prog

end

/-! ## The length of a run -/

namespace Machine

variable {F : Sig} {C ι α S : Type} {M : Machine F C ι α S} {p p' : Pool F C α S} {s₀ : S}
  {h : List (Step (Pool F C α S) (PoolEvent F C ι))} {n : Nat}

/-- No thread calls more often than its program does. Induction on the run. -/
theorem Run.callsOf_length_le (hprogram : ∀ c, (M.program c).CallsAtMost n)
    (run : Run M.PoolStep (.idle s₀) h p) (t : Nat) : (callsOf t h).length ≤ n := by
  induction run with
  | nil => exact Nat.zero_le n
  | @snoc h p p' l run step ih =>
    cases l with
    | started u command =>
      rw [callsOf_snoc_started]
      exact ih
    | called u command input call =>
      rw [callsOf_snoc_called]
      split
      · -- the call was allowed, so fewer than `n` had been made
        rename_i hut
        have hallowed := Run.allowed (P := fun _ => Protocol.budget F n) hprogram run step
        rw [Protocol.budget_allowed, Protocol.budget_after, hut] at hallowed
        have hmade : 0 < n - (callsOf t h).length := hallowed
        rw [List.length_append, List.length_singleton]
        omega
      · exact ih

/-- Every step is the start of a thread or a call of one. -/
theorem Run.length_eq (run : Run M.PoolStep (.idle s₀) h p) :
    h.length = p.threads.length + ∑ t ∈ Finset.range p.threads.length, (callsOf t h).length := by
  induction run with
  | nil => simp [Pool.idle]
  | @snoc h p p' l run step ih =>
    rw [List.length_append, List.length_singleton, ih]
    cases step with
    | started command =>
      -- the sum has one more term, and it is zero
      have hnew : (callsOf p.threads.length h).length = 0 := by
        rw [callsOf_eq_nil run (Nat.le_refl _)]
        rfl
      simp only [callsOf_snoc_started, List.length_append, List.length_singleton]
      rw [Finset.sum_range_succ, hnew]
      omega
    | @called u command op k input running free =>
      obtain ⟨hlt, _⟩ := List.getElem?_eq_some_iff.mp running
      have hmore : ∀ t, (callsOf t (h ++ [⟨p, .called u command input ⟨op,
          (M.perform input op p.shared).1⟩, M.advance p u command input op k⟩])).length
          = (callsOf t h).length + if u = t then 1 else 0 := by
        intro t
        rw [callsOf_snoc_called]
        split
        · rw [List.length_append, List.length_singleton]
        · rfl
      -- the sum has the same terms, and the one of thread `u` grew by one
      have hlen : (M.advance p u command input op k).threads.length = p.threads.length := by
        simp [advance]
      rw [hlen]
      simp only [hmore]
      rw [Finset.sum_add_distrib, Finset.sum_ite_eq, if_pos (Finset.mem_range.mpr hlt)]
      omega

/-- **A run is as long as its threads let it be.** -/
theorem Run.length_le (hprogram : ∀ c, (M.program c).CallsAtMost n)
    (run : Run M.PoolStep (.idle s₀) h p) : h.length ≤ (n + 1) * p.threads.length := by
  have hsum : ∑ t ∈ Finset.range p.threads.length, (callsOf t h).length ≤ p.threads.length * n := by
    have hcard := Finset.sum_le_card_nsmul (Finset.range p.threads.length)
      (fun t => (callsOf t h).length) n fun t _ => Run.callsOf_length_le hprogram run t
    simpa using hcard
  have hlength := Run.length_eq run
  rw [Nat.add_mul, Nat.one_mul, Nat.mul_comm n]
  omega

end Machine

/-! ## Progress -/

section

variable {F : Sig} {C ι α S : Type}

/-- Every thread has returned. -/
def Pool.Finished (p : Pool F C α S) : Prop := ∀ x ∈ p.threads, ∃ a, x.rest = .ret a

end

namespace Machine

variable {F : Sig} {C ι α S : Type} {M : Machine F C ι α S} {p p' : Pool F C α S} {s₀ : S}
  {h : List (Step (Pool F C α S) (PoolEvent F C ι))} {n : Nat} {guarded : F.Op → Prop}

/-- Thread `t` can make its next call, whatever it is answered. -/
def GoesOn (M : Machine F C ι α S) (p : Pool F C α S) (t : Nat) : Prop :=
  ∃ command op k, p.threads[t]? = some ⟨command, .call op k⟩
    ∧ (M.lockUse op = .acquires → p.holder = none)

theorem GoesOn.step {t : Nat} (ht : M.GoesOn p t) :
    ∃ command op, ∀ input, ∃ p', p'.threads.length = p.threads.length
      ∧ M.PoolStep p (.called t command input ⟨op, (M.perform input op p.shared).1⟩) p' := by
  obtain ⟨command, op, k, running, free⟩ := ht
  exact ⟨command, op, fun input => ⟨M.advance p t command input op k, by simp [advance],
    .called input running free⟩⟩

/-- The thread that holds the mutex never waits for it. -/
theorem Run.holder_goes_on (hprogram : ∀ c, M.LockSafe guarded false (M.program c))
    (run : Run M.PoolStep (.idle s₀) h p) {t : Nat} (ht : p.holder = some t) : M.GoesOn p t := by
  have hinv := run.invariant (M.LockInv guarded) (lockInv_idle s₀)
    fun _ _ _ hp step => lockInv_step hprogram step hp
  have hlt := hinv.holder_lt t ht
  have hthread : p.threads[t]? = some p.threads[t] := List.getElem?_eq_getElem hlt
  have hsafe := hinv.safe t _ hthread
  rw [decide_eq_true ht] at hsafe
  generalize p.threads[t] = x at hthread hsafe
  obtain ⟨command, rest⟩ := x
  cases rest with
  | ret a =>
    -- it would have returned with the mutex held
    have hreleased : true = false := hsafe
    cases hreleased
  | call op k =>
    refine ⟨command, op, k, hthread, ?_⟩
    intro huse
    have hheld : true = false := hsafe.1.1 huse
    cases hheld

/-- **As long as a thread has not returned, some thread goes on**: itself, or the one it waits
for. -/
theorem Run.goes_on (hprogram : ∀ c, M.LockSafe guarded false (M.program c))
    (run : Run M.PoolStep (.idle s₀) h p) (hp : ¬ p.Finished) : ∃ t, M.GoesOn p t := by
  cases hholder : p.holder with
  -- whoever waits, waits for this one
  | some t => exact ⟨t, Run.holder_goes_on hprogram run hholder⟩
  | none =>
    unfold Pool.Finished at hp
    push Not at hp
    -- nobody holds the mutex, so a thread that has not returned waits for nothing
    obtain ⟨⟨command, rest⟩, hx, hrest⟩ := hp
    obtain ⟨t, ht⟩ := List.getElem?_of_mem hx
    cases rest with
    | ret a => exact absurd rfl (hrest a)
    | call op k => exact ⟨t, command, op, k, ht, fun _ => hholder⟩

/-- When every thread has returned the mutex is free. -/
theorem Run.finished (hprogram : ∀ c, M.LockSafe guarded false (M.program c))
    (run : Run M.PoolStep (.idle s₀) h p) (hp : p.Finished) : p.holder = none := by
  cases hholder : p.holder with
  | none => rfl
  | some t =>
    obtain ⟨command, op, k, hthread, _⟩ := Run.holder_goes_on hprogram run hholder
    obtain ⟨a, ha⟩ := hp _ (List.mem_of_getElem? hthread)
    cases ha

/-- **Every pool can be brought to its end**, with no thread started and under any one input.
Induction on what the bound on the length of a run leaves. -/
theorem Run.finishes (hprogram : ∀ c, M.LockSafe guarded false (M.program c))
    (hbound : ∀ c, (M.program c).CallsAtMost n) (input : ι)
    (run : Run M.PoolStep (.idle s₀) h p) :
    ∃ h' p', Run M.PoolStep p h' p' ∧ (∀ x ∈ h', ∃ t c call, x.label = .called t c input call)
      ∧ p'.threads.length = p.threads.length ∧ p'.Finished ∧ p'.holder = none := by
  generalize hleft : (n + 1) * p.threads.length - h.length = left
  induction left using Nat.strong_induction_on generalizing h p with
  | _ left ih =>
    by_cases hp : p.Finished
    · exact ⟨[], p, .nil, by simp, rfl, hp, Run.finished hprogram run hp⟩
    · -- some thread goes on, and then less is left of the bound
      obtain ⟨t, ht⟩ := Run.goes_on hprogram run hp
      obtain ⟨command, op, hstep⟩ := ht.step
      obtain ⟨q, hsame, step⟩ := hstep input
      have hnext := run.snoc step
      have hlonger := Run.length_le hbound hnext
      rw [hsame, List.length_append, List.length_singleton] at hlonger
      obtain ⟨h', p', hrest, hinput, hlen, hdone, hfree⟩ := ih _ (by
        rw [hsame, List.length_append, List.length_singleton]
        omega) hnext rfl
      refine ⟨_, p', Run.cons step hrest, ?_, hlen.trans hsame, hdone, hfree⟩
      intro x hx
      rcases List.mem_cons.mp hx with rfl | hx
      · exact ⟨t, command, _, rfl⟩
      · exact hinput x hx

end Machine

end Interaction
