import Smdp.Interaction.Pool
import Smdp.Store.Stage

/-!
# Smdp — processes that open one file at once

Each process runs `migrate`, and the statements of all of them interleave. What is left of a
process's program is a stage, or the error it failed with (`At`), and a step takes one process
from its stage to the next and leaves the others where they are (`openingMove_of_step`).
-/

namespace Smdp

open Interaction

/-! ## The machine -/

/-- Processes that open the same file. Each statement of each is a step. -/
def migrations : Machine SqlSig Unit Unit (Except StoreError Unit) Db where
  program _ := migrate
  perform _ := Db.perform
  lockUse _ := .neither

/-- Any number of processes, each somewhere in its migration, over one file. -/
abbrev Opening := Pool SqlSig Unit (Except StoreError Unit) Db

/-- A statement of one of them, or one more process. -/
abbrev OpeningStep := Step Opening (PoolEvent SqlSig Unit Unit)

variable {db : Db} {p p' : Opening} {l : PoolEvent SqlSig Unit Unit} {h : List OpeningStep}
  {t : Nat} {next next' : Except StoreError Stage}

/-- Process `t` has that left to do. -/
def At (p : Opening) (t : Nat) (next : Except StoreError Stage) : Prop :=
  p.threads[t]? = some ⟨(), Stage.restOf next⟩

/-! ## One step -/

theorem At.unique (h : At p t next) (h' : At p t next') : next = next' := by
  have hthread := Option.some.inj (h.symm.trans h')
  exact Stage.restOf_injective (congrArg Thread.rest hthread)

/-- Every process is at some stage, or failed. -/
def Staged (p : Opening) : Prop := ∀ t < p.threads.length, ∃ next, At p t next

/-- What a step of an opening is: a process is started, or one goes on by its next statement. -/
inductive OpeningMove (p : Opening) (l : PoolEvent SqlSig Unit Unit) (p' : Opening) : Prop where
  | started (label : l = .started p.threads.length ()) (shared : p'.shared = p.shared)
      (length : p'.threads.length = p.threads.length + 1)
      (there : ∀ u next,
        At p' u next ↔ At p u next ∨ u = p.threads.length ∧ next = .ok .reading)
  | went {t stage sql} (at_ : At p t (.ok stage)) (hsql : stage.sql = some sql)
      (label : ∃ r, l = .called t () () ⟨sql, r⟩)
      (shared : p'.shared = (Db.perform sql p.shared).2)
      (length : p'.threads.length = p.threads.length)
      (moved : ∀ next, At p' t next ↔ next = stage.next p.shared)
      (others : ∀ u, u ≠ t → ∀ next, At p' u next ↔ At p u next)

/-- **A step takes one process one stage on.** The process is known by its program alone; that
this is the program of a stage is what `Staged` says, and that the stage can be read back is
`Stage.restOf_injective`. -/
theorem openingMove_of_step (hstaged : Staged p) (step : migrations.PoolStep p l p') :
    OpeningMove p l p' := by
  cases step with
  | started command =>
    refine .started rfl rfl List.length_append ?_
    intro u next
    unfold At
    rw [Machine.getElem?_started]
    -- the new process is last, and its whole program is left to do
    by_cases hu : u = p.threads.length
    · rw [if_pos hu, hu, List.getElem?_eq_none (Nat.le_refl _)]
      constructor
      · intro h
        have hrest := congrArg Thread.rest (Option.some.inj h)
        exact .inr ⟨rfl, Stage.restOf_injective hrest.symm⟩
      · rintro (h | ⟨_, rfl⟩)
        · cases h
        · rfl
    · simp [hu]
  | @called t command op k input running free =>
    have hlt : t < p.threads.length := (List.getElem?_eq_some_iff.mp running).1
    obtain ⟨next, hnext⟩ := hstaged t hlt
    have hrest : Prog.call op k = Stage.restOf next :=
      congrArg Thread.rest (Option.some.inj (running.symm.trans hnext))
    match next with
    | .error e => cases hrest
    | .ok stage =>
      -- the statement it runs is the one its stage is at
      have hsql : stage.sql = some op := by
        rw [← stage.firstSql_rest]
        show firstSql (Stage.restOf (.ok stage)) = _
        rw [← hrest]
        rfl
      obtain ⟨k', hcall, hleft⟩ := stage.rest_step p.shared hsql
      -- and what it does with the answer is what that stage does
      have hk : k = k' := by
        have hboth := hrest.trans hcall
        cases hboth
        rfl
      refine .went hnext hsql ⟨_, rfl⟩ rfl List.length_set ?_ ?_
      · intro next
        unfold At
        rw [Machine.getElem?_advance running, if_pos rfl]
        show some (Thread.mk () (k (Db.perform op p.shared).1)) = _ ↔ _
        rw [hk, hleft]
        constructor
        · intro h
          have hrest := congrArg Thread.rest (Option.some.inj h)
          exact (Stage.restOf_injective hrest).symm
        · rintro rfl
          rfl
      · intro u hu next
        unfold At
        rw [Machine.getElem?_advance running, if_neg hu]

theorem OpeningMove.staged (move : OpeningMove p l p') (hstaged : Staged p) : Staged p' := by
  intro u hu
  cases move with
  | started label shared length there =>
    by_cases hold : u < p.threads.length
    · obtain ⟨next, hnext⟩ := hstaged u hold
      exact ⟨next, (there u next).mpr (.inl hnext)⟩
    · -- the one that was started, at its first statement
      exact ⟨.ok .reading, (there u _).mpr (.inr ⟨by omega, rfl⟩)⟩
  | @went t stage sql _ _ _ _ length moved others =>
    -- the one that went on is at the stage its statement led to, and the others are where they
    -- were
    by_cases hut : u = t
    · subst hut
      exact ⟨_, (moved _).mpr rfl⟩
    · obtain ⟨next, hnext⟩ := hstaged u (length ▸ hu)
      exact ⟨next, (others u hut next).mpr hnext⟩

theorem staged_of_run (run : Run migrations.PoolStep (.idle db) h p) : Staged p := by
  apply run.invariant Staged
  · intro t ht
    cases ht
  · intro p l p' hstaged step
    exact (openingMove_of_step hstaged step).staged hstaged

/-! ## What a statement leaves of the tables -/

/-- No statement drops the orders table. -/
theorem orders_perform (sql : Sql) (h : db.orders.isSome) :
    (Db.perform sql db).2.orders.isSome := by
  obtain ⟨v, orders, index, notifications⟩ := db
  cases sql with
  | createOrders => rfl
  | createOrdersByIccid => cases orders <;> exact h
  | addVerified =>
    match notifications with
    | none | some (.current _) | some (.unverified _) => exact h
  | userVersion | countNotifications | createNotifications | setUserVersion => exact h

/-- The notifications table keeps its shape under every statement, but for the one that adds the
column, and that one changes only the old shape. -/
theorem notifications_perform {shape : NotificationsShape} {sql : Sql}
    (h : db.notifications = some shape)
    (hsql : sql = .addVerified → ∃ t, shape = .current t) :
    (Db.perform sql db).2.notifications = some shape := by
  obtain ⟨v, orders, index, notifications⟩ := db
  cases h
  cases sql with
  | addVerified =>
    obtain ⟨t, rfl⟩ := hsql rfl
    rfl
  | createOrdersByIccid => cases orders <;> rfl
  | userVersion | countNotifications | createOrders | createNotifications | setUserVersion => rfl

/-- The version goes up to the current one at most. -/
theorem userVersion_perform {stage : Stage} {sql : Sql} (hsql : stage.sql = some sql)
    (h : db.userVersion ≤ 2) : (Db.perform sql db).2.userVersion ≤ 2 := by
  obtain ⟨v, orders, index, notifications⟩ := db
  cases stage with
  | stamping =>
    cases hsql
    exact Int.le_refl _
  | creatingIndex =>
    cases hsql
    cases orders <;> exact h
  | addingVerified =>
    cases hsql
    match notifications with
    | none | some (.current _) | some (.unverified _) => exact h
  | reading | counting | creatingOrders | creatingNotifications =>
    cases hsql
    exact h
  | done => cases hsql

end Smdp
