import Mathlib.Logic.Basic
import Mathlib.Tactic.Common

/-!
# Interaction — programs that ask for operations

A program written against an interface is a tree: it either returns a value or asks for
one operation of the interface and goes on with the answer. The tree says nothing about
what an operation does, so one program has several meanings:

* `Prog.exec` runs it to its end with nothing in between, each operation answered by a
  `perform` function on a state, and keeps the list of the calls it made;
* `Prog.execFor` runs its first so many calls, and leaves the state where it is cut short;
* `Machine` (in its own module) runs several programs at once, one operation a step.

The rules are the usual ones. `Prog.exec_bind` runs a sequence part by part, and
`Prog.exec_preserves` lifts an invariant of `perform` to a whole execution.
-/

namespace Interaction

/-- An interface: the operations one can ask for, and the type of the answer to each. -/
structure Sig where
  Op : Type
  Ret : Op → Type

/-- A program over the interface `F` that returns an `α`. -/
inductive Prog (F : Sig) (α : Type) where
  | ret (a : α) : Prog F α
  | call (op : F.Op) (k : F.Ret op → Prog F α) : Prog F α

/-- One operation together with the answer it got. -/
structure Call (F : Sig) where
  op : F.Op
  answer : F.Ret op

/-- What an execution leaves: the value returned, the state reached, the calls made. -/
structure Outcome (F : Sig) (α S : Type) where
  value : α
  state : S
  calls : List (Call F)

namespace Prog

variable {F : Sig} {α β S T : Type}

/-- Go on with `f` where `p` returns. -/
def bind (p : Prog F α) (f : α → Prog F β) : Prog F β :=
  match p with
  | .ret a => f a
  | .call op k => .call op (fun r => (k r).bind f)

/-- So that a program can be written in `do` notation, in the order of the source. -/
instance : Monad (Prog F) where
  pure := .ret
  bind := Prog.bind

/-- Ask for one operation and return its answer. -/
def ask (op : F.Op) : Prog F (F.Ret op) := .call op .ret

@[simp] theorem pure_eq (a : α) : (pure a : Prog F α) = .ret a := rfl

@[simp] theorem call_bind (op : F.Op) (k : F.Ret op → Prog F α) (f : α → Prog F β) :
    (Prog.call op k >>= f) = .call op (fun r => k r >>= f) := rfl

end Prog

/-- The same, after the calls of `first`. -/
def Outcome.after {F : Sig} {α S : Type} (first : List (Call F)) (out : Outcome F α S) :
    Outcome F α S :=
  { out with calls := first ++ out.calls }

section

variable {F : Sig} {α S : Type} (first : List (Call F)) (a : α) (s : S) (calls : List (Call F))
variable (out : Outcome F α S)

@[simp] theorem Outcome.after_mk :
    Outcome.after first ⟨a, s, calls⟩ = ⟨a, s, first ++ calls⟩ := rfl

@[simp] theorem Outcome.after_calls : (out.after first).calls = first ++ out.calls := rfl

end

namespace Prog

variable {F : Sig} {α β S T : Type}

/-! ## Running a program to its end -/

/-- Run `p` from `s`, each operation answered by `perform`. -/
def exec (perform : (op : F.Op) → S → F.Ret op × S) : Prog F α → S → Outcome F α S
  | .ret a, s => ⟨a, s, []⟩
  | .call op k, s =>
    let (r, s') := perform op s
    (exec perform (k r) s').after [⟨op, r⟩]

variable {perform : (op : F.Op) → S → F.Ret op × S}

@[simp] theorem exec_ret (a : α) (s : S) : exec perform (.ret a) s = ⟨a, s, []⟩ := rfl

@[simp] theorem exec_pure (a : α) (s : S) : exec perform (pure a) s = ⟨a, s, []⟩ := rfl

@[simp] theorem exec_call (op : F.Op) (k : F.Ret op → Prog F α) (s : S) :
    exec perform (.call op k) s
      = (exec perform (k (perform op s).1) (perform op s).2).after [⟨op, (perform op s).1⟩] := rfl

/-- **Sequencing.** A program goes on from the state and with the value the first part
leaves. Induction on the first part. -/
@[simp] theorem exec_bind (p : Prog F α) (k : α → Prog F β) (s : S) :
    exec perform (p >>= k) s
      = (exec perform (k (exec perform p s).value) (exec perform p s).state).after
          (exec perform p s).calls := by
  induction p generalizing s with
  | ret a => rfl
  | call op f ih =>
    rw [call_bind, exec_call, exec_call, ih]
    simp [Outcome.after]

/-- The state that the first `n` calls of `p` leave. -/
def execFor (perform : (op : F.Op) → S → F.Ret op × S) : Nat → Prog F α → S → S
  | 0, _, s => s
  | _, .ret _, s => s
  | n + 1, .call op k, s => execFor perform n (k (perform op s).1) (perform op s).2

@[simp] theorem execFor_ret (n : Nat) (a : α) (s : S) :
    execFor perform n (.ret a : Prog F α) s = s := by
  cases n <;> rfl

@[simp] theorem execFor_call (n : Nat) (op : F.Op) (k : F.Ret op → Prog F α) (s : S) :
    execFor perform (n + 1) (.call op k) s
      = execFor perform n (k (perform op s).1) (perform op s).2 := rfl

/-- Only the value is mapped. -/
theorem exec_map (p : Prog F α) (f : α → β) (s : S) :
    exec perform (p >>= fun a => pure (f a)) s
      = ⟨f (exec perform p s).value, (exec perform p s).state, (exec perform p s).calls⟩ := by
  simp

/-! ## The rules -/

/-- **The invariant rule.** What every operation keeps, an execution keeps. Induction on the
program. -/
theorem exec_preserves (I : S → Prop) (hstep : ∀ op s, I s → I (perform op s).2)
    (p : Prog F α) (s : S) (hs : I s) : I (exec perform p s).state := by
  induction p generalizing s with
  | ret a => exact hs
  | call op k ih => exact ih _ _ (hstep op s hs)

end Prog

end Interaction
