import Smdp.Interaction.Protocol
import Smdp.Interaction.Purge
import Smdp.Server.Step

/-!
# Smdp — a stranger's notification influences nothing but the log

A notification that does not verify, or is no installation result, is recorded and that is all.
Nothing is ever read back from the record: no program lists the notifications
(`unread_program`). So two runs that differ only in such notifications have the same orders and
the same sessions, and answer everything else alike (`strangers_unnoticed`).
-/

namespace Smdp

open Interaction

variable {σ : Type} {config : ServerConfig} {s t s₀ s' : AppState σ} {x : Event σ}
  {h h' : List (Step (AppState σ) (Event σ))}

/-- A notification whose verification failed, or that verified as something else than an
installation result. -/
def stranger (x : Step (AppState σ) (Event σ)) : Bool :=
  match x.label.command with
  | .handleNotification req =>
    match verifiedAs x.label.input x.pre.store req.pendingNotification with
    | none => true
    | some v => !v.isInstallationResult
  | _ => false

/-- The same but for the notifications. -/
structure SameButLog (s t : AppState σ) : Prop where
  orders : s.store.orders = t.store.orders
  sessions : s.sessions = t.sessions

/-! ## Nobody reads the log -/

/-- Anything may be asked for but the notifications. -/
def unreadProtocol : Protocol (ServerSig σ) Unit where
  start := ()
  allowed _ op := op ≠ .store .notifications
  next _ _ := ()

/-- A program that never lists the notifications. -/
def Unread {α : Type} (p : Handler σ α) : Prop := p.Keeps unreadProtocol (fun _ _ => True) ()

theorem unread_pure {α : Type} (a : α) : Unread (pure a : Handler σ α) := trivial

/-- Unread is put together from calls that are not that one, and from branches on their answers.
-/
theorem unread_ask {op : ServerOp σ} (hop : op ≠ .store .notifications) :
    Unread (Prog.ask (F := ServerSig σ) op) := ⟨hop, fun _ => trivial⟩

theorem unread_bind {α β : Type} {p : Handler σ α} {k : α → Handler σ β} (hp : Unread p)
    (hk : ∀ a, Unread (k a)) : Unread (p >>= k) := by
  unfold Unread
  rw [Prog.keeps_bind]
  induction p with
  | ret a => exact hk a
  -- the first call is allowed, and what follows it is run whatever it was answered
  | call op f ih => exact ⟨hp.1, fun r => ih r (hp.2 r)⟩

/-- **No command reads the notifications back.** Each program is a sequence of operations with
branches on their answers, and none of the operations lists them. -/
theorem unread_program (config : ServerConfig) (c : Command) :
    Unread (σ := σ) (c.program config) := by
  cases c <;> dsimp only [Command.program, initiateAuthentication, authenticateClient,
    rememberEuicc, getBoundProfilePackage, findUpp, handleNotification, matchOrder,
    keepNotification, moveOrder, orderAdd, createOrder, orGenerate, orderReset, orderList,
    listOrders, DpSession.initiate]
  all_goals
    repeat' first
      | exact unread_pure _
      | exact unread_ask (by simp)
      | refine unread_bind ?_ fun _ => ?_
      | split

/-! ## One operation, one step -/

/-- Any operation but that listing is answered alike, and leaves alike. -/
theorem SameButLog.perform (hst : SameButLog s t) (env : Env σ) {op : ServerOp σ}
    (hop : op ≠ .store .notifications) :
    (AppState.perform env op s).1 = (AppState.perform env op t).1
      ∧ SameButLog (AppState.perform env op s).2 (AppState.perform env op t).2 := by
  obtain ⟨⟨orders, log⟩, sessions⟩ := s
  obtain ⟨⟨orders', log'⟩, sessions'⟩ := t
  obtain ⟨horders, hsessions⟩ := hst
  dsimp only at horders hsessions
  subst horders hsessions
  cases op with
  | store c =>
    dsimp only [AppState.perform, SqliteStore.performUnder]
    cases env.faults c with
    | some e => exact ⟨rfl, rfl, rfl⟩
    | none =>
      cases c with
      -- the one call whose answer would tell the two states apart
      | notifications => exact absurd rfl hop
      | addOrder new =>
        dsimp only [SqliteStore.perform, SqliteStore.addOrder]
        split <;> exact ⟨rfl, rfl, rfl⟩
      | _ => exact ⟨rfl, rfl, rfl⟩
  | _ => exact ⟨rfl, rfl, rfl⟩

/-- States that differ in the log alone answer a request alike. -/
theorem SameButLog.serve {t' : AppState σ} {y : Event σ} (hst : SameButLog s t)
    (stepx : Serving config s x s') (stepy : Serving config t y t')
    (hrequest : y.request = x.request) : y.answer = x.answer ∧ SameButLog s' t' := by
  obtain ⟨command, input, answer, calls⟩ := x
  obtain ⟨command', input', answer', calls'⟩ := y
  cases hrequest
  -- call by call: alike so far, so the next call is the same, answered alike, and leaves them
  -- alike
  obtain ⟨hvalue, _, hstate⟩ := Prog.exec_relates (P := unreadProtocol)
    (fun _ op s t hallowed hst => SameButLog.perform hst input hallowed)
    (unread_program config command) hst
  rw [show _ = _ from stepx, show _ = _ from stepy] at hvalue hstate
  exact ⟨hvalue.symm, hstate⟩

/-- A stranger's notification moves no order. -/
theorem SameButLog.stranger (hst : SameButLog s t) (step : Serving config s x s')
    (hx : stranger ⟨s, x, s'⟩ = true) : SameButLog s' t := by
  unfold Smdp.stranger at hx
  dsimp only at hx
  split at hx
  · rename_i req command
    obtain ⟨_, rfl⟩ := serving_handleNotification step command
    refine ⟨?_, hst.sessions⟩
    rw [← hst.orders]
    show (notifiedStore x.input s.store req.pendingNotification).orders = _
    unfold notifiedStore SqliteStore.move
    split
    · -- verified and matched, but no installation result, so no order moves
      rename_i v o hverified _
      rw [hverified] at hx
      have hother : v.isInstallationResult = false := by simpa using hx
      rw [hother]
      exact orders_keep _ _ _ _ _ _
    · exact orders_keep _ _ _ _ _ _
  · cases hx

/-! ## The law -/

/-- **Delete every stranger's notification from a run: the orders, the sessions and every remaining
answer stay as they are.** The two runs go on side by side in states that are the same but for the
notifications: a stranger's step changes only those, and no command looks at them, so every other
step is served alike in both. The rowids of the notifications differ, which is why the table is
left out. -/
theorem strangers_unnoticed (run : Run (Serving config) s₀ h s)
    (run' : Run (Serving config) s₀ h' s')
    (hrequests : h'.map (fun x => x.label.request)
      = (purged stranger h).map (fun x => x.label.request)) :
    s'.store.orders = s.store.orders ∧ s'.sessions = s.sessions
      ∧ h'.map (fun x => x.label.answer) = (purged stranger h).map (fun x => x.label.answer) := by
  -- a stranger's step is skipped in the shorter run, any other is served in both
  obtain ⟨hsame, hanswers⟩ := Run.purged (R := SameButLog)
    (fun _ _ _ _ hst step hx => hst.stranger step hx)
    (fun _ _ _ _ _ _ hst stepx stepy hrequest => hst.serve stepx stepy hrequest)
    ⟨rfl, rfl⟩ run run' hrequests
  exact ⟨hsame.orders.symm, hsame.sessions.symm, hanswers⟩

/-- A download, with the requests in `noise` served before it starts. -/
def downloadAfter (noise : List (Command × Env Bytes)) : List (Command × Env Bytes) :=
  (addProfile 7 "A", .echo 0) :: noise
    ++ [(initiate, .echo 1), (authenticate 1 [65], .echo 0), (download 1, .echo 0)]

/-- `B` says that Profile 7 could not be installed. -/
def strangersReport : Command × Env Bytes :=
  (.handleNotification ⟨[66, 1, 0] ++ List.replicate 10 7⟩, .echo 0)

/-- `A`'s download with and without `B`'s report before it. -/
theorem strangers_unnoticed_strangersReport :
    (echoedState (downloadAfter [])).store.orders
        = (echoedState (downloadAfter [strangersReport])).store.orders
      ∧ (echoedState (downloadAfter [])).sessions
        = (echoedState (downloadAfter [strangersReport])).sessions
      ∧ (echoed (downloadAfter [])).map (fun x => x.label.answer)
        = (purged stranger (echoed (downloadAfter [strangersReport]))).map
            (fun x => x.label.answer) :=
  strangers_unnoticed (run_echoed (downloadAfter [strangersReport]))
    (run_echoed (downloadAfter [])) rfl

end Smdp
