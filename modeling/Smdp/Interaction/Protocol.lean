import Smdp.Interaction.Program

/-!
# Interaction — protocols a program keeps to

A `Protocol` says which operations are allowed in which phase, and to which phase an
answered operation leads. `Prog.Keeps P post p φ` is a precondition for `p`: started in
phase `φ`, whatever it is answered, `p` asks only for what is allowed, and where it returns
`post` holds of the value and the phase. `Protocol.both` asks for two protocols at once. The phase
of `Protocol.recording` is the list of the calls made: a rule on what a program may ask for, or on
what it returns, is then a rule about its own past.

The rules are equations, so `simp` computes the precondition of a program from its text:
`keeps_bind` for a sequence, `keeps_call` for one operation. `exec_keeps` is the rule for an
execution, and `exec_relates` the rule for two executions of one program: what every allowed
operation keeps related stays related.
-/

namespace Interaction

/-- The rules of a protocol. A phase may hold whatever the rules look at. -/
structure Protocol (F : Sig) (Φ : Type) where
  start : Φ
  allowed : Φ → F.Op → Prop
  next : Φ → Call F → Φ

variable {F : Sig} {Φ α β : Type} {P : Protocol F Φ}

/-- The phase a list of calls leads to. -/
def Protocol.after (P : Protocol F Φ) (φ : Φ) (calls : List (Call F)) : Φ :=
  calls.foldl P.next φ

theorem Protocol.after_snoc (φ : Φ) (calls : List (Call F)) (call : Call F) :
    P.after φ (calls ++ [call]) = P.next (P.after φ calls) call := by
  unfold Protocol.after
  rw [List.foldl_append]
  rfl

/-- Two protocols side by side. -/
def Protocol.both {Ψ : Type} (P : Protocol F Φ) (Q : Protocol F Ψ) : Protocol F (Φ × Ψ) where
  start := (P.start, Q.start)
  allowed φ op := P.allowed φ.1 op ∧ Q.allowed φ.2 op
  next φ call := (P.next φ.1 call, Q.next φ.2 call)

section

variable {Ψ : Type} {Q : Protocol F Ψ} (φ : Φ × Ψ)

@[simp] theorem Protocol.both_allowed (op : F.Op) :
    (P.both Q).allowed φ op ↔ P.allowed φ.1 op ∧ Q.allowed φ.2 op := Iff.rfl

@[simp] theorem Protocol.both_next (call : Call F) :
    (P.both Q).next φ call = (P.next φ.1 call, Q.next φ.2 call) := rfl

end

/-- Everything is allowed. -/
def Protocol.any : Protocol F Unit where
  start := ()
  allowed _ _ := True
  next _ _ := ()

@[simp] theorem Protocol.any_allowed (φ : Unit) (op : F.Op) :
    (Protocol.any (F := F)).allowed φ op ↔ True := Iff.rfl

@[simp] theorem Protocol.any_next (φ : Unit) (call : Call F) : Protocol.any.next φ call = () := rfl

/-! ## The calls made so far -/

section

variable {allowed : List (Call F) → F.Op → Prop} {made : List (Call F)}

/-- Operations are allowed or not by the calls made before them. -/
def Protocol.recording (allowed : List (Call F) → F.Op → Prop) : Protocol F (List (Call F)) where
  start := []
  allowed := allowed
  next made call := made ++ [call]

@[simp] theorem Protocol.recording_start : (Protocol.recording allowed).start = [] := rfl

@[simp] theorem Protocol.recording_allowed (op : F.Op) :
    (Protocol.recording allowed).allowed made op ↔ allowed made op := Iff.rfl

@[simp] theorem Protocol.recording_next (call : Call F) :
    (Protocol.recording allowed).next made call = made ++ [call] := rfl

theorem Protocol.recording_after (calls : List (Call F)) :
    (Protocol.recording allowed).after made calls = made ++ calls := by
  induction calls generalizing made with
  | nil => exact (List.append_nil made).symm
  | cons call calls ih =>
    show (Protocol.recording allowed).after (made ++ [call]) calls = _
    rw [ih, List.append_assoc]
    rfl

end

/-! ## Programs that keep a protocol -/

namespace Prog

/-- A precondition of `p` in the phase `φ`: whatever it is answered, it asks only for what is
allowed, and `post` holds where it returns. -/
def Keeps (P : Protocol F Φ) (post : α → Φ → Prop) : Prog F α → Φ → Prop
  | .ret a, φ => post a φ
  | .call op k, φ => P.allowed φ op ∧ ∀ r, Keeps P post (k r) (P.next φ ⟨op, r⟩)

variable {post : α → Φ → Prop} {out : β → Φ → Prop} {φ : Φ}

@[simp] theorem keeps_ret (a : α) : Keeps P post (.ret a) φ ↔ post a φ := Iff.rfl

@[simp] theorem keeps_call (op : F.Op) (k : F.Ret op → Prog F α) :
    Keeps P post (.call op k) φ
      ↔ P.allowed φ op ∧ ∀ r, Keeps P post (k r) (P.next φ ⟨op, r⟩) := Iff.rfl

/-- **Sequencing.** What the second part needs is what the first part has to end with.
Induction on the first part. -/
@[simp] theorem keeps_bind (p : Prog F α) (k : α → Prog F β) :
    Keeps P out (p >>= k) φ ↔ Keeps P (fun a φ => Keeps P out (k a) φ) p φ := by
  induction p generalizing φ with
  | ret a => rfl
  | call op f ih =>
    rw [call_bind, keeps_call, keeps_call]
    simp only [ih]

/-- What a program promises may be weakened. Induction on the program. -/
theorem Keeps.mono {post' : α → Φ → Prop} {p : Prog F α} (h : p.Keeps P post φ)
    (hpost : ∀ a φ, post a φ → post' a φ) : p.Keeps P post' φ := by
  induction p generalizing φ with
  | ret a => exact hpost a φ h
  | call op k ih => exact ⟨h.1, fun r => ih r (h.2 r)⟩

/-- A protocol that allows everything is kept by every program. Induction on the program. -/
theorem keeps_of_allowed (h : ∀ φ op, P.allowed φ op) (p : Prog F α) (φ : Φ) :
    p.Keeps P (fun _ _ => True) φ := by
  induction p generalizing φ with
  | ret a => trivial
  | call op k ih => exact ⟨h φ op, fun r => ih r _⟩

/-- What keeps two protocols keeps the first. Induction on the program. -/
theorem keeps_left {Ψ : Type} {Q : Protocol F Ψ} {φ : Φ × Ψ} {p : Prog F α}
    {out : α → Φ × Ψ → Prop} (hout : ∀ a φ, out a φ → post a φ.1)
    (h : Keeps (P.both Q) out p φ) : Keeps P post p φ.1 := by
  induction p generalizing φ with
  | ret a => exact hout a φ h
  | call op k ih =>
    obtain ⟨⟨hallowed, _⟩, hrest⟩ := h
    exact ⟨hallowed, fun r => ih r (hrest r)⟩

/-- It keeps the second as well. -/
theorem keeps_right {Ψ : Type} {Q : Protocol F Ψ} {φ : Φ × Ψ} {p : Prog F α}
    {out : α → Φ × Ψ → Prop} {post : α → Ψ → Prop} (hout : ∀ a φ, out a φ → post a φ.2)
    (h : Keeps (P.both Q) out p φ) : Keeps Q post p φ.2 := by
  induction p generalizing φ with
  | ret a => exact hout a φ h
  | call op k ih =>
    obtain ⟨⟨_, hallowed⟩, hrest⟩ := h
    exact ⟨hallowed, fun r => ih r (hrest r)⟩

/-- An execution returns what the program promises. Induction on the program. -/
theorem exec_keeps {S : Type} {perform : (op : F.Op) → S → F.Ret op × S} {p : Prog F α}
    (hp : p.Keeps P post φ) (s : S) :
    post (exec perform p s).value (P.after φ (exec perform p s).calls) := by
  induction p generalizing φ s with
  | ret a => exact hp
  | call op k ih => exact ih _ (hp.2 (perform op s).1) (perform op s).2

/-- **Two executions.** If every operation the protocol allows is answered alike in related
states and leaves related states, then a program that keeps the protocol returns the same and
makes the same calls from related states, and leaves related states. Induction on the
program. -/
theorem exec_relates {S T : Type} {perform : (op : F.Op) → S → F.Ret op × S}
    {perform' : (op : F.Op) → T → F.Ret op × T} {R : S → T → Prop}
    (hstep : ∀ φ op s t, P.allowed φ op → R s t →
      (perform op s).1 = (perform' op t).1 ∧ R (perform op s).2 (perform' op t).2)
    {p : Prog F α} {φ : Φ} (hp : p.Keeps P post φ) {s : S} {t : T} (hst : R s t) :
    (exec perform p s).value = (exec perform' p t).value
      ∧ (exec perform p s).calls = (exec perform' p t).calls
      ∧ R (exec perform p s).state (exec perform' p t).state := by
  induction p generalizing φ s t with
  | ret a => exact ⟨rfl, rfl, hst⟩
  | call op k ih =>
    obtain ⟨hallowed, hrest⟩ := hp
    -- both ask for the same, are answered alike and go on in the same phase
    obtain ⟨hanswer, hnext⟩ := hstep φ op s t hallowed hst
    obtain ⟨hvalue, hcalls, hstate⟩ := ih _ (hrest (perform op s).1) hnext
    simp only [exec_call, Outcome.after_calls, ← hanswer]
    refine ⟨hvalue, ?_, hstate⟩
    rw [hcalls]

end Prog

end Interaction
