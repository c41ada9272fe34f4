import Smdp.Interaction.Protocol
import Smdp.Interaction.Serve

/-!
# Interaction — many programs over one state

A `Machine` serves commands concurrently: a command is started as a thread of its own, and
each step is one operation of one thread on the shared state. One mutex is part of the
machine: an operation that acquires it waits while somebody holds it.

* `Run.keeps`: in every run, what is left of a thread's program keeps the protocol its
  command started with.
* `Run.holds_of_guarded`: if every program keeps the lock protocol, an operation that needs
  the mutex is done by the thread that holds it.
* `Run.of_serves`: serving the commands one after the other is one of the schedules.
-/

namespace Interaction

/-- What an operation does to the mutex. -/
inductive LockUse where
  | acquires
  | releases
  | neither
  deriving DecidableEq

/-- What each command runs, what an operation does to the shared state under an input, and what it
does to the mutex. -/
structure Machine (F : Sig) (C ι α S : Type) where
  program : C → Prog F α
  perform : ι → (op : F.Op) → S → F.Ret op × S
  lockUse : F.Op → LockUse

/-- A command and what is left of its program. -/
structure Thread (F : Sig) (C α : Type) where
  command : C
  rest : Prog F α

/-- The threads by number, the oldest first, the one that holds the mutex, and the state
they share. -/
structure Pool (F : Sig) (C α S : Type) where
  threads : List (Thread F C α)
  holder : Option Nat
  shared : S

/-- What a step is remembered by: the thread's number and its command, and for a call the input it
was made under and the answer it got. -/
inductive PoolEvent (F : Sig) (C ι : Type) where
  | started (t : Nat) (command : C)
  | called (t : Nat) (command : C) (input : ι) (call : Call F)

variable {F : Sig} {C ι α S Φ : Type}

/-- The command of the thread that a step is of. -/
def PoolEvent.command : PoolEvent F C ι → C
  | .started _ c => c
  | .called _ c _ _ => c

/-- Nobody is served yet. -/
def Pool.idle (s : S) : Pool F C α S := ⟨[], none, s⟩

namespace Machine

variable (M : Machine F C ι α S)

/-- Who holds the mutex after thread `t` did `op`. -/
def holderAfter (holder : Option Nat) (t : Nat) (op : F.Op) : Option Nat :=
  match M.lockUse op with
  | .acquires => some t
  | .releases => none
  | .neither => holder

/-- Thread `t` goes on after `op`, with `k` if it is answered. -/
def advance (p : Pool F C α S) (t : Nat) (command : C) (input : ι) (op : F.Op)
    (k : F.Ret op → Prog F α) : Pool F C α S where
  threads := p.threads.set t ⟨command, k (M.perform input op p.shared).1⟩
  holder := M.holderAfter p.holder t op
  shared := (M.perform input op p.shared).2

/-- A step starts a thread, or makes the next call of one. Nothing else happens, so what falls
between two calls of a thread is calls of others. -/
inductive PoolStep : Pool F C α S → PoolEvent F C ι → Pool F C α S → Prop where
  | started {p : Pool F C α S} (command : C) :
      PoolStep p (.started p.threads.length command)
        { p with threads := p.threads ++ [⟨command, M.program command⟩] }
  | called {p : Pool F C α S} {t : Nat} {command : C} {op : F.Op} {k : F.Ret op → Prog F α}
      (input : ι) (running : p.threads[t]? = some ⟨command, .call op k⟩)
      (free : M.lockUse op = .acquires → p.holder = none) :
      PoolStep p (.called t command input ⟨op, (M.perform input op p.shared).1⟩)
        (M.advance p t command input op k)

/-! ## Schedules -/

/-- What a scheduler decides. -/
inductive Action (C ι : Type) where
  | start (command : C)
  | go (t : Nat) (input : ι)

/-- The step an action makes. A thread that has returned, or waits for the mutex, makes
none. -/
def act (p : Pool F C α S) : Action C ι → Option (Step (Pool F C α S) (PoolEvent F C ι))
  | .start command =>
    some ⟨p, .started p.threads.length command,
      { p with threads := p.threads ++ [⟨command, M.program command⟩] }⟩
  | .go t input =>
    match p.threads[t]? with
    | some ⟨command, .call op k⟩ =>
      if M.lockUse op = .acquires ∧ p.holder ≠ none then none
      else
        some ⟨p, .called t command input ⟨op, (M.perform input op p.shared).1⟩,
          M.advance p t command input op k⟩
    | _ => none

/-- The history of a schedule. -/
def play (p : Pool F C α S) : List (Action C ι) → List (Step (Pool F C α S) (PoolEvent F C ι))
  | [] => []
  | a :: rest =>
    match M.act p a with
    | some x => x :: play x.post rest
    | none => play p rest

/-- The pool a schedule leaves. -/
def played (p : Pool F C α S) : List (Action C ι) → Pool F C α S
  | [] => p
  | a :: rest =>
    match M.act p a with
    | some x => played x.post rest
    | none => played p rest

variable {M} {p p' : Pool F C α S} {h : List (Step (Pool F C α S) (PoolEvent F C ι))}

/-- A scheduler can decide nothing that is not a step. -/
theorem poolStep_of_act {a : Action C ι} {x : Step (Pool F C α S) (PoolEvent F C ι)}
    (hact : M.act p a = some x) : x.pre = p ∧ M.PoolStep p x.label x.post := by
  cases a with
  | start command =>
    obtain rfl := Option.some.inj hact
    exact ⟨rfl, .started command⟩
  | go t input =>
    simp only [act] at hact
    split at hact
    · rename_i command op k running
      split at hact
      · cases hact
      · rename_i hfree
        obtain rfl := Option.some.inj hact
        refine ⟨rfl, .called input running ?_⟩
        intro hacquires
        by_contra hheld
        exact hfree ⟨hacquires, hheld⟩
    · cases hact

/-- **Every schedule has its run.** Induction on the schedule. -/
theorem run_play (p : Pool F C α S) (actions : List (Action C ι)) :
    Run M.PoolStep p (M.play p actions) (M.played p actions) := by
  induction actions generalizing p with
  | nil => exact .nil
  | cons a rest ih =>
    unfold play played
    cases hact : M.act p a with
    | none => exact ih p
    | some x =>
      obtain ⟨rfl, step⟩ := poolStep_of_act hact
      exact Run.cons step (ih x.post)

/-! ## What a step does -/

/-- A step performs one operation on the shared state, or leaves it as it is. -/
theorem PoolStep.shared {l : PoolEvent F C ι} (step : M.PoolStep p l p') :
    p'.shared = p.shared ∨ ∃ t command input op,
      l = .called t command input ⟨op, (M.perform input op p.shared).1⟩
        ∧ p'.shared = (M.perform input op p.shared).2 := by
  cases step with
  | started command => exact .inl rfl
  | @called t command op k input => exact .inr ⟨t, command, input, op, rfl, rfl⟩

/-- A call is answered from the state it is made in. -/
theorem PoolStep.answered {t : Nat} {command : C} {input : ι} {call : Call F}
    (step : M.PoolStep p (.called t command input call) p') :
    call.answer = (M.perform input call.op p.shared).1
      ∧ p'.shared = (M.perform input call.op p.shared).2 := by
  cases step with
  | called input running free => exact ⟨rfl, rfl⟩

/-- The threads after one of them went on. -/
theorem getElem?_advance {t u : Nat} {command : C} {input : ι} {op : F.Op}
    {k : F.Ret op → Prog F α} (running : p.threads[t]? = some ⟨command, .call op k⟩) :
    (M.advance p t command input op k).threads[u]?
      = if u = t then some ⟨command, k (M.perform input op p.shared).1⟩ else p.threads[u]? := by
  obtain ⟨hlt, _⟩ := List.getElem?_eq_some_iff.mp running
  show (p.threads.set t _)[u]? = _
  rw [List.getElem?_set]
  by_cases hut : u = t
  · rw [if_pos hut.symm, if_pos hut, if_pos hlt]
  · rw [if_neg (Ne.symm hut), if_neg hut]

/-- The threads after one was started. -/
theorem getElem?_started {u : Nat} (x : Thread F C α) (threads : List (Thread F C α)) :
    (threads ++ [x])[u]? = if u = threads.length then some x else threads[u]? := by
  by_cases hu : u = threads.length
  · rw [if_pos hu, hu, List.getElem?_concat_length]
  · rw [if_neg hu]
    by_cases hlt : u < threads.length
    · exact List.getElem?_append_left hlt
    · rw [List.getElem?_eq_none (by simp; omega), List.getElem?_eq_none (by omega)]

/-! ## Protocols -/

/-- The calls thread `t` made. -/
def callsOf (t : Nat) (h : List (Step (Pool F C α S) (PoolEvent F C ι))) : List (Call F) :=
  h.filterMap fun x =>
    match x.label with
    | .started _ _ => none
    | .called u _ _ call => if u = t then some call else none

theorem callsOf_snoc_started (t : Nat) (u : Nat) (command : C) :
    callsOf t (h ++ [⟨p, .started u command, p'⟩]) = callsOf t h := by
  simp [callsOf, List.filterMap_append]

theorem callsOf_snoc_called (t u : Nat) (command : C) (input : ι) (call : Call F) :
    callsOf t (h ++ [⟨p, .called u command input call, p'⟩])
      = if u = t then callsOf t h ++ [call] else callsOf t h := by
  unfold callsOf
  rw [List.filterMap_append]
  by_cases hut : u = t <;> simp [hut]

/-- What a thread has called, it called at some step. -/
theorem mem_callsOf {t : Nat} {call : Call F} (hcall : call ∈ callsOf t h) :
    ∃ x ∈ h, ∃ command input, x.label = .called t command input call := by
  obtain ⟨x, hx, hlabel⟩ := List.mem_filterMap.mp hcall
  refine ⟨x, hx, ?_⟩
  split at hlabel
  · cases hlabel
  · rename_i u command input call' hcalled
    split at hlabel
    · rename_i hut
      subst hut
      obtain rfl := Option.some.inj hlabel
      exact ⟨command, input, hcalled⟩
    · cases hlabel

/-- A thread that is not there has made no call. -/
theorem callsOf_eq_nil {s₀ : S} (run : Run M.PoolStep (.idle s₀) h p) {t : Nat}
    (ht : p.threads.length ≤ t) : callsOf t h = [] := by
  induction run with
  | nil => rfl
  | @snoc h p p' l run step ih =>
    cases step with
    | started command =>
      rw [callsOf_snoc_started]
      refine ih ?_
      simp at ht
      omega
    | @called u command op k input running free =>
      obtain ⟨hlt, _⟩ := List.getElem?_eq_some_iff.mp running
      have hlen : p.threads.length ≤ t := by simpa [advance] using ht
      rw [callsOf_snoc_called, if_neg (by omega)]
      exact ih hlen

/-- **What is left of a program keeps its protocol**, from the phase its thread's calls led
to. Induction on the run. -/
theorem Run.keeps {P : C → Protocol F Φ} {post : C → α → Φ → Prop}
    (hprogram : ∀ c, (M.program c).Keeps (P c) (post c) (P c).start) {s₀ : S}
    (run : Run M.PoolStep (.idle s₀) h p) {t : Nat} {x : Thread F C α}
    (hx : p.threads[t]? = some x) :
    x.rest.Keeps (P x.command) (post x.command)
      ((P x.command).after (P x.command).start (callsOf t h)) := by
  induction run generalizing t x with
  | nil => cases hx
  | @snoc h p p' l run step ih =>
    cases step with
    | started command =>
      rw [getElem?_started] at hx
      rw [callsOf_snoc_started]
      split at hx
      · -- the new thread has its whole program before it
        rename_i hnew
        obtain rfl := Option.some.inj hx
        rw [callsOf_eq_nil run (Nat.le_of_eq hnew.symm)]
        exact hprogram command
      · exact ih hx
    | @called u command op k input running free =>
      rw [getElem?_advance running] at hx
      rw [callsOf_snoc_called]
      by_cases htu : t = u
      · -- the thread that moved is one call further
        rw [if_pos htu] at hx
        obtain rfl := Option.some.inj hx
        obtain ⟨_, hrest⟩ := ih running
        rw [if_pos htu.symm, Protocol.after_snoc, htu]
        exact hrest _
      · rw [if_neg htu] at hx
        rw [if_neg (Ne.symm htu)]
        exact ih hx

/-- **What a thread asks for is allowed** in the phase its calls so far led to. -/
theorem Run.allowed {P : C → Protocol F Φ} {post : C → α → Φ → Prop}
    (hprogram : ∀ c, (M.program c).Keeps (P c) (post c) (P c).start) {s₀ : S}
    (run : Run M.PoolStep (.idle s₀) h p) {t : Nat} {command : C} {input : ι} {call : Call F}
    (step : M.PoolStep p (.called t command input call) p') :
    (P command).allowed ((P command).after (P command).start (callsOf t h)) call.op := by
  cases step with
  | called input running free => exact (Run.keeps hprogram run running).1

/-! ## The mutex -/

/-- Acquire when free, release when held, and do what needs the mutex while holding it. The
phase is whether it is held. -/
def lockProtocol (M : Machine F C ι α S) (guarded : F.Op → Prop) : Protocol F Bool where
  start := false
  allowed held op :=
    (M.lockUse op = .acquires → held = false) ∧ (M.lockUse op = .releases → held = true)
      ∧ (guarded op → held = true)
  next held call :=
    match M.lockUse call.op with
    | .acquires => true
    | .releases => false
    | .neither => held

section

variable {guarded : F.Op → Prop} {held : Bool}

@[simp] theorem lockProtocol_allowed (op : F.Op) :
    (M.lockProtocol guarded).allowed held op
      ↔ (M.lockUse op = .acquires → held = false) ∧ (M.lockUse op = .releases → held = true)
        ∧ (guarded op → held = true) := Iff.rfl

@[simp] theorem lockProtocol_next (call : Call F) :
    (M.lockProtocol guarded).next held call
      = match M.lockUse call.op with
        | .acquires => true
        | .releases => false
        | .neither => held := rfl

end

/-- `rest` keeps the lock protocol, from holding the mutex or not, and returns with the mutex
released. -/
def LockSafe (M : Machine F C ι α S) (guarded : F.Op → Prop) (held : Bool) (rest : Prog F α) :
    Prop :=
  rest.Keeps (M.lockProtocol guarded) (fun _ held => held = false) held

/-- Each thread keeps the lock protocol from where the mutex says it is. -/
structure LockInv (M : Machine F C ι α S) (guarded : F.Op → Prop) (p : Pool F C α S) : Prop where
  holder_lt : ∀ t, p.holder = some t → t < p.threads.length
  safe : ∀ t (x : Thread F C α), p.threads[t]? = some x →
    M.LockSafe guarded (decide (p.holder = some t)) x.rest

variable {guarded : F.Op → Prop}

/-- One step keeps each thread where the mutex says it is: the one that moves and the mutex change
together, and to the others neither the old holder nor the new one is theirs. -/
theorem lockInv_step (hprogram : ∀ c, M.LockSafe guarded false (M.program c)) {l : PoolEvent F C ι}
    (step : M.PoolStep p l p') (hp : M.LockInv guarded p) : M.LockInv guarded p' := by
  cases step with
  | started command =>
    constructor
    · intro t ht
      have hlt := hp.holder_lt t ht
      simp
      omega
    · intro t x hx
      rw [getElem?_started] at hx
      split at hx
      · -- the new thread has a number nobody had, so it is not the holder
        rename_i hnew
        obtain rfl := Option.some.inj hx
        have hfree : p.holder ≠ some t := by
          intro hheld
          have hlt := hp.holder_lt t hheld
          omega
        rw [decide_eq_false hfree]
        exact hprogram command
      · exact hp.safe t x hx
  | @called t command op k input running free =>
    obtain ⟨hlt, _⟩ := List.getElem?_eq_some_iff.mp running
    obtain ⟨⟨hacquires, hreleases, _⟩, hrest⟩ := hp.safe t _ running
    constructor
    · intro u hu
      show u < (p.threads.set t _).length
      rw [List.length_set]
      unfold advance holderAfter at hu
      dsimp only at hu
      split at hu
      · obtain rfl := Option.some.inj hu
        exact hlt
      · cases hu
      · exact hp.holder_lt u hu
    · intro u x hx
      rw [getElem?_advance running] at hx
      show M.LockSafe guarded (decide (M.holderAfter p.holder t op = some u)) x.rest
      unfold holderAfter
      by_cases hut : u = t
      · -- the thread that moved: its phase and the holder change together
        rw [if_pos hut] at hx
        obtain rfl := Option.some.inj hx
        subst hut
        have hnext := hrest (M.perform input op p.shared).1
        unfold LockSafe lockProtocol at hnext ⊢
        cases huse : M.lockUse op <;> simpa [huse] using hnext
      · -- another thread sees the mutex as it was: not its own before, not its own after
        rw [if_neg hut] at hx
        have hother := hp.safe u x hx
        cases huse : M.lockUse op with
        | acquires =>
          rw [free huse] at hother
          simpa [Ne.symm hut] using hother
        | releases =>
          have hheld : p.holder = some t := of_decide_eq_true (hreleases huse)
          rw [hheld] at hother
          simpa [Ne.symm hut] using hother
        | neither => exact hother

theorem lockInv_idle (s : S) : M.LockInv guarded (.idle s) where
  holder_lt t ht := by cases ht
  safe t x hx := by cases hx

/-- **Mutual exclusion.** What needs the mutex is done by the thread that holds it. -/
theorem Run.holds_of_guarded (hprogram : ∀ c, M.LockSafe guarded false (M.program c)) {s₀ : S}
    (run : Run M.PoolStep (.idle s₀) h p) {t : Nat} {command : C} {input : ι} {call : Call F}
    (step : M.PoolStep p (.called t command input call) p') (hguarded : guarded call.op) :
    p.holder = some t := by
  have hinv := run.invariant (M.LockInv guarded) (lockInv_idle s₀)
    fun _ _ _ hp step => lockInv_step hprogram step hp
  cases step with
  | called input running free =>
    obtain ⟨⟨_, _, hheld⟩, _⟩ := hinv.safe t _ running
    exact of_decide_eq_true (hheld hguarded)

/-! ## One at a time -/

/-- Thread `t` holds the mutex, or nobody does. -/
def heldBy (t : Nat) (held : Bool) : Option Nat := if held then some t else none

/-- A thread nobody interrupts executes what is left of its program. Induction on it. -/
theorem run_alone (input : ι) {rest : Prog F α} {held : Bool} {p : Pool F C α S} {t : Nat}
    {command : C} (running : p.threads[t]? = some ⟨command, rest⟩)
    (hholder : p.holder = heldBy t held) (safe : M.LockSafe guarded held rest) :
    ∃ h p', Run M.PoolStep p h p' ∧ p'.holder = none
      ∧ p'.shared = (rest.exec (M.perform input) p.shared).state
      ∧ p'.threads[t]? = some ⟨command, .ret (rest.exec (M.perform input) p.shared).value⟩ := by
  induction rest generalizing p held with
  | ret a =>
    -- nothing is left to do, and the protocol ends with the mutex released
    have hreleased : held = false := safe
    rw [hreleased] at hholder
    exact ⟨[], p, .nil, hholder, rfl, running⟩
  | call op k ih =>
    obtain ⟨⟨hacquires, hreleases, _⟩, hrest⟩ := safe
    have hfree : M.lockUse op = .acquires → p.holder = none := by
      intro huse
      rw [hholder, hacquires huse]
      rfl
    have step := PoolStep.called input running hfree
    -- after the call the mutex is where the protocol says: nobody else has touched it
    have hnext : (M.advance p t command input op k).holder
        = heldBy t ((M.lockProtocol guarded).next held ⟨op, (M.perform input op p.shared).1⟩) := by
      show M.holderAfter p.holder t op = _
      unfold holderAfter lockProtocol
      cases huse : M.lockUse op with
      | acquires => simp [huse, heldBy]
      | releases => simp [huse, heldBy]
      | neither => simpa [huse] using hholder
    obtain ⟨h, p', run, hdone, hshared, hreturned⟩ :=
      ih _ ((getElem?_advance running).trans (if_pos rfl)) hnext (hrest _)
    exact ⟨_, p', Run.cons step run, hdone, hshared, hreturned⟩

/-- A command that comes while the mutex is free can be served at once. -/
theorem serve_alone (hprogram : ∀ c, M.LockSafe guarded false (M.program c)) (input : ι)
    (command : C) {p : Pool F C α S} (hfree : p.holder = none) :
    ∃ h p', Run M.PoolStep p h p' ∧ p'.holder = none
      ∧ p'.shared = ((M.program command).exec (M.perform input) p.shared).state
      ∧ p'.threads[p.threads.length]?
        = some ⟨command, .ret ((M.program command).exec (M.perform input) p.shared).value⟩ := by
  have running : ({ p with threads := p.threads ++ [⟨command, M.program command⟩] } :
      Pool F C α S).threads[p.threads.length]? = some ⟨command, M.program command⟩ :=
    List.getElem?_concat_length
  have hnobody : p.holder = heldBy p.threads.length false := hfree
  obtain ⟨h, p', halone, hdone, hshared, hreturned⟩ :=
    run_alone (M := M) input running hnobody (hprogram command)
  exact ⟨_, p', Run.cons (.started command) halone, hdone, hshared, hreturned⟩

/-- **Serving the commands one after the other is one of the schedules.** Induction on the
run. -/
theorem Run.of_serves (hprogram : ∀ c, M.LockSafe guarded false (M.program c)) {s₀ s : S}
    {h : List (Step S (Served F C ι α))} (run : Run (Serves M.program M.perform) s₀ h s) :
    ∃ h' p, Run M.PoolStep (.idle s₀) h' p ∧ p.holder = none ∧ p.shared = s := by
  induction run with
  | nil => exact ⟨[], .idle s₀, .nil, rfl, rfl⟩
  | @snoc h s s' x run step ih =>
    obtain ⟨h', p, hrun, hfree, hshared⟩ := ih
    obtain ⟨h'', p', halone, hdone, hshared', _⟩ :=
      serve_alone (M := M) hprogram x.input x.command hfree
    refine ⟨_, p', hrun.append halone, hdone, ?_⟩
    rw [hshared']
    show ((M.program x.command).exec (M.perform x.input) p.shared).state = s'
    rw [hshared, show _ = _ from step]

end Machine

end Interaction
