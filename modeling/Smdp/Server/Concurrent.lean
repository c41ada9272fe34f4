import Smdp.Interaction.Pool
import Smdp.Server.Step

/-!
# Smdp — requests served at once (`server/mod.rs`, `router`)

The same programs, as threads of a `Pool` over one `AppState`: each step is one operation of
one request, under an environment of its own. `lock` waits for the session mutex. A section
under the mutex is not one step: what needs no mutex, such as a store call of another request,
may fall inside it.

* `disciplined`: every command takes and releases the mutex in turn, touches the session table
  only while it holds it, and puts on offer only what it may.
* `sessions_held`: in every run the session table is touched by who holds the mutex.
* `poolRun_of_serverRun`: one request after the other is one of the runs.
* `Writes.warranted`, `poolStep_state`: who writes which state, and that nothing else moves
  an order.
-/

namespace Smdp

open Interaction

variable {σ : Type}

/-! ## The machine -/

/-- The two calls that have to do with the mutex: waiting for it, and dropping the guard. -/
@[simp] def ServerOp.lockUse : ServerOp σ → LockUse
  | .lock => .acquires
  | .unlock => .releases
  | _ => .neither

/-- What is done through the guard. -/
@[simp] def ServerOp.NeedsLock : ServerOp σ → Prop
  | .insertSession _ _ | .getSession _ | .putSession _ _ | .removeSession _ => True
  | _ => False

/-- The server as a machine of threads: a command is a thread running its program, each of its
calls under an environment of its own. -/
def machine (config : ServerConfig) :
    Machine (ServerSig σ) Command (Env σ) Answer (AppState σ) where
  program := Command.program config
  perform := AppState.perform
  lockUse := ServerOp.lockUse

@[simp] theorem machine_lockUse (config : ServerConfig) (op : ServerOp σ) :
    (machine config).lockUse op = op.lockUse := rfl

/-! ## What every command keeps to -/

/-- One of the listings among `made` shows order `i` on offer. -/
def SeenOnOffer (made : List (Call (ServerSig σ))) (i : Int) : Prop :=
  ∃ orders, ⟨.store .listOrders, .ok orders⟩ ∈ made ∧ ∃ o ∈ availableOrders orders, o.id = i

/-- An order is made available by its `order reset` alone, and bound only by who has seen it
on offer. -/
@[simp] def ServerOp.Warranted (c : Command) (made : List (Call (ServerSig σ))) :
    ServerOp σ → Prop
  | .store (.setState i .available) => c = .orderReset i
  | .store (.setState i .bound) => SeenOnOffer made i
  | _ => True

/-- A command puts on offer only what it may, by the calls it has made. -/
abbrev offersProtocol (c : Command) : Protocol (ServerSig σ) (List (Call (ServerSig σ))) :=
  .recording (ServerOp.Warranted c)

abbrev discipline (config : ServerConfig) (c : Command) :
    Protocol (ServerSig σ) (Bool × List (Call (ServerSig σ))) :=
  ((machine config).lockProtocol ServerOp.NeedsLock).both (offersProtocol c)

/-- The program returns with the mutex released. -/
abbrev Disciplined (config : ServerConfig) (c : Command) {α : Type} (p : Handler σ α) : Prop :=
  p.Keeps (discipline config c) (fun _ φ => φ.1 = false) (false, [])

section

variable (config : ServerConfig) (c : Command)

/-! `simp` runs a program from call to call, up to where the source looks at an answer; each
case below is one of its branches. -/

attribute [local simp] Prog.ask Handler.rsp Handler.store Handler.openStore Handler.addOrder
  Handler.listOrders Handler.orderByIccid Handler.bindEuicc Handler.setState
  Handler.recordNotification Handler.lock Handler.unlock Handler.getSession Handler.putSession
  Handler.removeSession Handler.insertSession DpSession.authenticateClient
  DpSession.getBoundProfilePackage DpSession.eid DpSession.euiccCert initiateFields
  authenticateFields notificationMetadata verifyNotification

/-- The mutex is taken after the library has been asked, for the insert alone. -/
theorem disciplined_initiateAuthentication (req : InitiateAuthenticationRequest) :
    Disciplined (σ := σ) config c (initiateAuthentication config req) := by
  unfold initiateAuthentication
  cases Octets.ofBytes? 16 req.euiccChallenge with
  | none => simp
  | some challenge =>
    simp
    intro transactionId _ serverChallenge _
    unfold DpSession.initiate
    split
    · simp
    · simp
    · simp
      intro asked
      split
      · simp
      · -- the fields are cut outside the mutex, the session is inserted under it
        simp
        intro fields
        split <;> simp

/-- Between the look-up and the write-back the mutex is held, the library asked in between. The
orders are listed before that and written to after it, outside the mutex: another request may come
in between. -/
theorem disciplined_authenticateClient (req : AuthenticateClientRequest) :
    Disciplined (σ := σ) config c (authenticateClient req) := by
  unfold authenticateClient
  simp
  intro listed
  cases listed with
  | error e => simp
  | ok orders =>
    dsimp only
    match havail : availableOrders orders with
    -- turned away before the mutex is taken
    | [] => simp
    | _ :: _ :: _ => simp
    | [order] =>
      simp
      intro _ live
      cases live with
      -- no such session: the guard is dropped on the way out
      | none => simp
      | some entry =>
        simp
        intro session accepted
        split
        · -- refused: written back, released, and no order was touched
          simp
        · simp
          intro eid cert _ fields
          split
          · simp
          · -- `Bound` is written last, on the order that was listed first
            have hseen : ∃ o ∈ availableOrders orders, o.id = order.id := by simp [havail]
            simp [rememberEuicc]
            split <;> simpa [SeenOnOffer] using hseen

/-- The mutex is held from the look-up to the removal, the listing of the orders included. Every
way out releases it. -/
theorem disciplined_getBoundProfilePackage (req : GetBoundProfilePackageRequest) :
    Disciplined (σ := σ) config c (getBoundProfilePackage req) := by
  unfold getBoundProfilePackage
  simp
  intro otskDp _ _ live
  cases live with
  | none => simp
  | some entry =>
    simp [findUpp]
    split
    · simp
    · simp
      intro listed
      cases listed with
      | error e => simp
      | ok orders =>
        simp
        split
        · simp
        · simp
          intro session built
          split
          · simp
          · simp

/-- A program asks for nothing the discipline minds, however it is answered. -/
def Unminded (config : ServerConfig) (c : Command) {α : Type} (p : Handler σ α) : Prop :=
  ∀ held made (post : α → Bool × List (Call (ServerSig σ)) → Prop),
    (∀ a made', post a (held, made')) → p.Keeps (discipline config c) post (held, made)

/-- Looking an order up is no business of either protocol. -/
theorem unminded_matchOrder (iccid : Option Iccid) :
    Unminded (σ := σ) config c (matchOrder iccid) := by
  intro held made post hpost
  unfold matchOrder
  cases iccid with
  | none => exact hpost _ _
  | some i =>
    simp
    -- only the answer differs: none of them is a call either protocol minds
    intro found
    cases found with
    | error e => exact hpost _ _
    | ok order => exact hpost _ _

/-- Filing a notification takes no mutex and moves no order. -/
theorem unminded_keepNotification (verified metadata : Option Notification)
    (order : Option Order) (raw : Bytes) :
    Unminded (σ := σ) config c (keepNotification verified metadata order raw) := by
  intro held made post hpost
  unfold keepNotification
  cases verified.or metadata with
  | none => exact hpost _ _
  | some m =>
    simp
    exact fun recorded => hpost _ _

/-- A report settles an order, it never offers one. -/
theorem unminded_moveOrder (verified : Option Notification) (order : Option Order) :
    Unminded (σ := σ) config c (moveOrder verified order) := by
  intro held made post hpost
  unfold moveOrder
  split
  · rename_i v o
    split
    · cases v.installed <;>
        · simp
          exact fun moved => hpost _ _
    · exact hpost _ _
  · exact hpost _ _

/-- HandleNotification never takes the mutex, so it may come between any two calls of another
request. -/
theorem disciplined_handleNotification (req : HandleNotificationRequest) :
    Disciplined (σ := σ) config c (handleNotification req) := by
  unfold handleNotification
  simp
  intro first
  refine unminded_matchOrder config c _ _ _ _ fun order made => ?_
  simp
  intro checked second
  refine unminded_keepNotification config c _ _ _ _ _ _ _ fun _ made => ?_
  exact unminded_moveOrder config c _ _ _ _ _ fun _ made => rfl

/-- `order add` neither takes the mutex nor moves an order that is there. -/
theorem disciplined_orderAdd (args : OrderAdd) :
    Disciplined (σ := σ) config c (orderAdd args) := by
  unfold orderAdd
  cases args.readIccid with
  | error e => simp
  | ok iccid =>
    simp
    intro opened
    cases opened with
    | error e => simp
    | ok _ =>
      simp [createOrder, orGenerate]
      split
      · simp
        rintro (e | order) <;> simp
      · simp
        rintro drawn _ (e | order) <;> simp

/-- The one command that makes an order available, and it is the order it names. -/
theorem disciplined_orderReset (id : Int) :
    Disciplined (σ := σ) config (.orderReset id) (orderReset id) := by
  unfold orderReset
  simp
  intro opened
  cases opened with
  | error e => simp
  | ok _ =>
    simp [listOrders]
    intro listed
    cases listed with
    | error e => simp
    | ok known =>
      simp
      split
      · simp
        rintro (e | _) <;> simp
      · simp

/-- `order list` only looks. -/
theorem disciplined_orderList : Disciplined (σ := σ) config c orderList := by
  unfold orderList
  simp
  intro opened
  cases opened with
  | error e => simp
  | ok _ =>
    simp [listOrders]
    rintro (e | orders) <;> simp

theorem disciplined_reopen : Disciplined (σ := σ) config c Handler.openStore := by
  simp

end

/-- What a program returns may be wrapped. -/
theorem Disciplined.map {config : ServerConfig} {c : Command} {α β : Type} {p : Handler σ α}
    (h : Disciplined config c p) (f : α → β) : Disciplined config c (p >>= fun a => pure (f a)) := by
  simpa [Disciplined] using h

/-- **Every command keeps both protocols.** -/
theorem disciplined (config : ServerConfig) (c : Command) :
    Disciplined (σ := σ) config c (c.program config) := by
  cases c with
  | initiateAuthentication req => exact (disciplined_initiateAuthentication config _ req).map _
  | authenticateClient req => exact (disciplined_authenticateClient config _ req).map _
  | getBoundProfilePackage req => exact (disciplined_getBoundProfilePackage config _ req).map _
  | handleNotification req => exact (disciplined_handleNotification config _ req).map _
  | orderAdd args => exact (disciplined_orderAdd config _ args).map _
  | orderReset id => exact (disciplined_orderReset config id).map _
  | orderList => exact (disciplined_orderList config _).map _
  | reopen => exact (disciplined_reopen config _).map _

/-- The half of the discipline that is about the mutex. -/
theorem lockSafe (config : ServerConfig) (c : Command) :
    (machine (σ := σ) config).LockSafe ServerOp.NeedsLock false (c.program config) :=
  Prog.keeps_left (φ := (false, [])) (fun _ _ hreleased => hreleased) (disciplined config c)

/-- The half of it that is about what is put on offer. -/
theorem keepsOffers (config : ServerConfig) (c : Command) :
    (c.program (σ := σ) config).Keeps (offersProtocol c) (fun _ _ => True) [] :=
  Prog.keeps_right (φ := (false, [])) (fun _ _ _ => trivial) (disciplined config c)

/-! ## Runs -/

abbrev ServerPool (σ : Type) := Pool (ServerSig σ) Command Answer (AppState σ)

abbrev ServerPoolEvent (σ : Type) := PoolEvent (ServerSig σ) Command (Env σ)

/-- A step of the concurrent server. -/
abbrev PoolServing (config : ServerConfig) :
    ServerPool σ → ServerPoolEvent σ → ServerPool σ → Prop :=
  (machine config).PoolStep

/-- A run of the concurrent server from a fresh database. -/
abbrev PoolRun (config : ServerConfig) (h : List (Step (ServerPool σ) (ServerPoolEvent σ)))
    (p : ServerPool σ) : Prop :=
  Run (PoolServing config) (.idle AppState.fresh) h p

variable {config : ServerConfig} {p p' : ServerPool σ}

/-- **The session table is touched by who holds its mutex.** -/
theorem sessions_held {h : List (Step (ServerPool σ) (ServerPoolEvent σ))}
    (run : PoolRun config h p) {t : Nat} {c : Command} {env : Env σ} {call : Call (ServerSig σ)}
    (step : PoolServing config p (.called t c env call) p') (hneeds : call.op.NeedsLock) :
    p.holder = some t :=
  Machine.Run.holds_of_guarded (lockSafe config) run step hneeds

/-- **One request after the other** is one of the ways to run concurrently. -/
theorem poolRun_of_serverRun {h : List (Step (AppState σ) (Event σ))} {s : AppState σ}
    (run : ServerRun config h s) :
    ∃ h' p, PoolRun config h' p ∧ p.holder = none ∧ p.shared = s :=
  Machine.Run.of_serves (M := machine config) (lockSafe config) run

/-! ## The state of an order, call by call -/

/-- Thread `t`, serving `c`, writes `state` to order `i`, and the write goes through. -/
def Writes (l : ServerPoolEvent σ) (t : Nat) (c : Command) (i : Int) (state : OrderState) : Prop :=
  ∃ env, l = .called t c env ⟨.store (.setState i state), .ok ()⟩

/-- Thread `t` lists the orders, and order `i` is on offer. -/
def Lists (l : ServerPoolEvent σ) (t : Nat) (i : Int) : Prop :=
  ∃ c env orders, l = .called t c env ⟨.store .listOrders, .ok orders⟩
    ∧ ∃ o ∈ availableOrders orders, o.id = i

/-- What is written to an order that is there is where it stands. -/
theorem Writes.state {l : ServerPoolEvent σ} {t : Nat} {c : Command} {i : Int}
    {state : OrderState} {txt : String} (hl : Writes l t c i state)
    (step : PoolServing config p l p') (hi : p.shared.store.state? i = some txt) :
    p'.shared.store.state? i = some state.asStr := by
  obtain ⟨env, rfl⟩ := hl
  obtain ⟨hanswer, hshared⟩ := step.answered
  have hstore : p'.shared.store = p.shared.store.after env.faults (.setState i state) :=
    congrArg AppState.store hshared
  have hok : Except.ok () = (p.shared.store.performUnder env.faults (.setState i state)).1 :=
    hanswer
  rw [hstore, SqliteStore.state?_written hi]
  rw [SqliteStore.setState_eq] at hok
  left
  cases hfault : env.faults (.setState i state) with
  | none => rfl
  | some e => simp [hfault] at hok

/-- Listing shows what is there. -/
theorem Lists.onOffer {l : ServerPoolEvent σ} {t : Nat} {i : Int} (hl : Lists l t i)
    (step : PoolServing config p l p') : p'.shared.store.OnOffer i := by
  obtain ⟨c, env, orders, rfl, o, ho, rfl⟩ := hl
  obtain ⟨hanswer, hshared⟩ := step.answered
  have hlisted : p.shared.store.listed env.faults = .ok orders := hanswer.symm
  have hstore : p'.shared.store = p.shared.store.after env.faults .listOrders :=
    congrArg AppState.store hshared
  rw [hstore, SqliteStore.after_listOrders]
  unfold availableOrders at ho
  obtain ⟨hmem, hoffered⟩ := List.mem_filter.mp ho
  exact ⟨o.state, by simpa [OrderState.Offered] using hoffered,
    SqliteStore.state?_of_row? (SqliteStore.row?_of_listed hlisted hmem)⟩

/-- **What is put on offer is warranted**: made available by an `order reset` of that order, or
bound by a request that listed it on offer before. -/
theorem Writes.warranted {h : List (Step (ServerPool σ) (ServerPoolEvent σ))}
    {l : ServerPoolEvent σ} {t : Nat} {c : Command} {i : Int} {state : OrderState}
    (hl : Writes l t c i state) (run : PoolRun config h p) (step : PoolServing config p l p')
    (hoffered : state.Offered) :
    (state = .available ∧ c = .orderReset i)
      ∨ (state = .bound ∧ ∃ x ∈ h, Lists x.label t i) := by
  obtain ⟨env, rfl⟩ := hl
  have hallowed := Machine.Run.allowed (P := offersProtocol) (keepsOffers config) run step
  rw [Protocol.recording_allowed] at hallowed
  rcases hoffered with rfl | rfl
  · exact .inl ⟨rfl, hallowed⟩
  · obtain ⟨orders, hmade, hseen⟩ := hallowed
    rw [Protocol.recording_after] at hmade
    obtain ⟨x, hx, c', env', hlabel⟩ := Machine.mem_callsOf hmade
    exact .inr ⟨rfl, x, hx, c', env', orders, hlabel, hseen⟩

/-- **Only a write moves an order.** -/
theorem poolStep_state {l : ServerPoolEvent σ} {i : Int} {txt : String}
    (step : PoolServing config p l p') (hi : p.shared.store.state? i = some txt) :
    p'.shared.store.state? i = some txt
      ∨ ∃ t c state, Writes l t c i state ∧ p'.shared.store.state? i = some state.asStr := by
  rcases step.shared with hsame | ⟨t, c, env, op, rfl, hperform⟩
  · rw [hsame]
    exact .inl hi
  · rw [hperform]
    cases op with
    | store call =>
      show (p.shared.store.after env.faults call).state? i = some txt ∨ _
      -- only `set_state` writes that column; any other call leaves it
      by_cases hcall : ∃ state, call = .setState i state
      · obtain ⟨state, rfl⟩ := hcall
        cases hfault : env.faults (.setState i state) with
        | some e =>
          left
          rw [SqliteStore.after_of_some hfault]
          exact hi
        -- a write that went through is one of `Writes`
        | none =>
          right
          refine ⟨t, c, state, ⟨env, ?_⟩, (SqliteStore.state?_written hi).mpr (.inl hfault)⟩
          have hok : (p.shared.store.performUnder env.faults (.setState i state)).1 = .ok () := by
            rw [SqliteStore.setState_eq, hfault]
          exact congrArg (fun r => PoolEvent.called (F := ServerSig σ) t c env
            ⟨.store (.setState i state), r⟩) hok
      · left
        exact SqliteStore.state?_after_of_some (fun state h => hcall ⟨state, h⟩) hi
    | _ => exact .inl hi

end Smdp
