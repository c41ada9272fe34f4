import Smdp.Interaction.History
import Smdp.Interaction.Program

/-!
# Interaction — serving one command at a time

A server that answers commands one after the other: each command is a program, executed to
its end on the state the one before it left. `Serves` is that as a step relation, so the
rules for runs apply; the label of a step keeps the command, the input it was served under
(whatever the environment decides), the answer and the calls made.

The step relation is a function of command and input (`serve`), so every list of commands
has its run (`run_served`).
-/

namespace Interaction

/-- What one step of a server is remembered by. -/
structure Served (F : Sig) (C ι α : Type) where
  command : C
  input : ι
  answer : α
  calls : List (Call F)

section

variable {F : Sig} {C ι α S : Type}
variable (program : C → Prog F α) (perform : ι → (op : F.Op) → S → F.Ret op × S)

/-- From `s`, serving `x.command` under `x.input` answers `x.answer` and leaves `s'`. -/
def Serves (s : S) (x : Served F C ι α) (s' : S) : Prop :=
  (program x.command).exec (perform x.input) s = ⟨x.answer, s', x.calls⟩

/-- The step a command makes. -/
def serve (s : S) (c : C) (i : ι) : Step S (Served F C ι α) :=
  let out := (program c).exec (perform i) s
  ⟨s, ⟨c, i, out.value, out.calls⟩, out.state⟩

theorem serves_serve (s : S) (c : C) (i : ι) :
    Serves program perform s (serve program perform s c i).label
      (serve program perform s c i).post := rfl

/-- The history of serving a list of commands from `s`. -/
def served (s : S) : List (C × ι) → List (Step S (Served F C ι α))
  | [] => []
  | (c, i) :: rest =>
    let x := serve program perform s c i
    x :: served x.post rest

/-- The state that serving them leaves. -/
def servedState (s : S) : List (C × ι) → S
  | [] => s
  | (c, i) :: rest => servedState (serve program perform s c i).post rest

/-- The history is of those commands, under those inputs. -/
theorem mem_of_mem_served {cs : List (C × ι)} :
    ∀ {s : S} {x : Step S (Served F C ι α)}, x ∈ served program perform s cs →
      (x.label.command, x.label.input) ∈ cs := by
  induction cs with
  | nil =>
    intro s x hx
    cases hx
  | cons c rest ih =>
    intro s x hx
    rcases List.mem_cons.mp hx with rfl | hx
    · exact List.mem_cons_self
    · exact List.mem_cons_of_mem _ (ih hx)

/-- **Every list of commands has its run.** Induction on the list. -/
theorem run_served (cs : List (C × ι)) :
    ∀ s, Run (Serves program perform) s (served program perform s cs)
      (servedState program perform s cs) := by
  induction cs with
  | nil =>
    intro s
    exact .nil
  | cons c rest ih =>
    intro s
    exact Run.cons (serves_serve program perform s c.1 c.2) (ih _)

end

end Interaction
