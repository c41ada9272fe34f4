import Smdp.Interaction.Crash
import Smdp.Server.Concurrent

/-!
# Smdp — a server that is stopped and started again

A process can end at any point, in the middle of however many requests. What it kept in memory is
gone, its sessions first of all; the next process opens the same database and goes on with what is
in there. A `LifeRun` is a history of such processes, each of them serving requests at once.

What holds over a `LifeRun` is what the store is for: it has to outlive a process.
-/

namespace Smdp

open Interaction Rowid

variable {σ : Type} {config : ServerConfig}

/-- What a new process starts with: the database opened again, `Sessions::default()`. -/
def AppState.restart (s : AppState σ) : AppState σ := ⟨(s.store.perform .open).2, Sessions.empty⟩

/-- No session survives a restart. -/
theorem AppState.restart_get (s : AppState σ) (t : Bytes) : s.restart.sessions.get t = none := rfl

abbrev ServerLifeEvent (σ : Type) := LifeEvent (ServerSig σ) Command (Env σ)

/-- A step of a server that can be stopped. The operator's commands are threads among the others
and end with the process; in the source `smdp order` is a process of its own over the same file. A
command that outlives a server is not in these histories: it would be one that goes on, in the next
life, with calls whose answers came in the one before. -/
abbrev LifeServing (config : ServerConfig) :
    ServerPool σ → ServerLifeEvent σ → ServerPool σ → Prop :=
  (machine config).LifeStep AppState.restart

/-- A history of processes, the first of them on a fresh database. -/
abbrev LifeRun (config : ServerConfig) (h : List (Step (ServerPool σ) (ServerLifeEvent σ)))
    (p : ServerPool σ) : Prop :=
  Run (LifeServing config) (.idle AppState.fresh) h p

variable {p p' : ServerPool σ}

/-! ## The store over a history -/

/-- What every store call keeps, every step of a process keeps. -/
theorem poolStep_store (I : SqliteStore → Prop)
    (hI : ∀ faults c st, I st → I (st.after faults c)) {l : ServerPoolEvent σ}
    (step : PoolServing config p l p') (hp : I p.shared.store) : I p'.shared.store := by
  rcases step.shared with hsame | ⟨t, c, env, op, _, hshared⟩
  · rw [hsame]
    exact hp
  · rw [hshared]
    exact AppState.perform_store I hI env op hp

/-- **What every store call keeps, a history keeps.** -/
theorem lives_store (I : SqliteStore → Prop) (hI : ∀ faults c st, I st → I (st.after faults c))
    {h : List (Step (ServerPool σ) (ServerLifeEvent σ))} (run : Run (LifeServing config) p h p')
    (hp : I p.shared.store) : I p'.shared.store := by
  -- by induction on the history: a step of a process, or its end
  refine run.invariant (fun p => I p.shared.store) hp ?_
  intro q l q' hq step
  -- a crash opens the same database again, which writes nothing to one that is current
  rcases step.cases with ⟨l', rfl, hstep⟩ | ⟨rfl, rfl⟩
  · exact poolStep_store I hI hstep hq
  · exact hq

theorem lives_typed {h : List (Step (ServerPool σ) (ServerLifeEvent σ))}
    (run : LifeRun config h p) : p.shared.store.Typed :=
  lives_store SqliteStore.Typed (fun faults c _ hst => hst.after faults c) run
    SqliteStore.typed_empty

/-- **An order outlives every process**, and stays the same Profile. -/
theorem lives_sameProfile {h : List (Step (ServerPool σ) (ServerLifeEvent σ))}
    (run : Run (LifeServing config) p h p') {i : Int} {r : OrderRow}
    (hr : p.shared.store.orders.row? i = some r) :
    ∃ r', p'.shared.store.orders.row? i = some r' ∧ r.SameProfile r' := by
  refine lives_store (fun st => ∃ r', st.orders.row? i = some r' ∧ r.SameProfile r') ?_ run
    ⟨r, hr, .refl r⟩
  rintro faults c st ⟨r', hr', hsame⟩
  obtain ⟨r'', hr'', hsame'⟩ := SqliteStore.sameProfile_after faults c hr'
  exact ⟨r'', hr'', hsame.trans hsame'⟩

/-! ## What a thread has seen -/

/-- One of the listings among `made` shows the order `o`. -/
def Listed (made : List (Call (ServerSig σ))) (o : Order) : Prop :=
  ∃ orders, ⟨.store .listOrders, .ok orders⟩ ∈ made ∧ o ∈ orders

variable {life : List (Step (ServerPool σ) (ServerPoolEvent σ))} {s₁ : AppState σ}

/-- An order that a step lists is there from then on. -/
theorem row_of_listing {q q' : ServerPool σ} {t : Nat} {c : Command} {env : Env σ}
    {orders : List Order} {o : Order}
    (step : PoolServing config q (.called t c env ⟨.store .listOrders, .ok orders⟩) q')
    (ho : o ∈ orders) : q'.shared.store.orders.row? o.id = some o.toRow := by
  obtain ⟨hanswer, hshared⟩ := step.answered
  have hlisted : q.shared.store.listed env.faults = .ok orders := hanswer.symm
  have hstore : q'.shared.store = q.shared.store.after env.faults .listOrders :=
    congrArg AppState.store hshared
  rw [hstore, SqliteStore.after_listOrders]
  exact SqliteStore.row?_of_listed hlisted ho

/-- **What a thread has listed is there**, as the Profile it was listed as. -/
theorem row_of_listed (run : Run (PoolServing config) (.idle s₁) life p) {t : Nat} {o : Order}
    (ho : Listed (Machine.callsOf t life) o) :
    ∃ r, p.shared.store.orders.row? o.id = some r ∧ o.toRow.SameProfile r := by
  obtain ⟨orders, hmade, hmem⟩ := ho
  obtain ⟨x, hx, c, env, hlabel⟩ := Machine.mem_callsOf hmade
  -- at the step that listed it, and from there to the end of the life
  obtain ⟨before, after, rfl⟩ := List.append_of_mem hx
  obtain ⟨_, step, hrest⟩ := run.split
  rw [hlabel] at step
  have hlives : Run (LifeServing config) x.post (after.map Step.inLife) p :=
    Machine.Run.inLife hrest
  exact lives_sameProfile hlives (row_of_listing step hmem)

end Smdp
