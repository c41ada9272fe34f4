import Smdp.Interaction.Front
import Smdp.Server.Endpoint
import Smdp.Server.Lives

/-!
# Smdp — what comes in

What reaches the process is not a request but a POST with some octets in its body, to one of the
routes of `router`, at any time and by anyone. `network` is the server as the network sees it, each
POST a thread of its own. The extractor is a front before the handlers: `network_eq`. So whatever
is posted, the server lives one of its histories of commands (`network_lives`).
-/

namespace Smdp

open Interaction

variable {σ : Type}

/-- What the command line asks for. -/
inductive CliCommand where
  | orderAdd (args : OrderAdd)
  | orderReset (id : Int)
  | orderList
  | reopen

/-- The server's own command for it. -/
def CliCommand.command : CliCommand → Command
  | .orderAdd args => .orderAdd args
  | .orderReset id => .orderReset id
  | .orderList => .orderList
  | .reopen => .reopen

/-- What can arrive: a body on a route, or a line of the operator's. -/
inductive Incoming where
  | post (route : Route) (body : Bytes)
  | cli (c : CliCommand)

/-- What leaves: a reply to a POST (or the panic that stands for one), or the operator's output.
-/
inductive Outgoing where
  | reply (r : Panicking Reply)
  | output (a : Answer)

/-- The server, POST by POST. -/
def network (config : ServerConfig) (x : Extractor) :
    Machine (ServerSig σ) Incoming (Env σ) Outgoing (AppState σ) where
  program
    | .post route body => do return .reply (← route.post config x body)
    | .cli c => do return .output (← c.command.program config)
  perform := AppState.perform
  lockUse := ServerOp.lockUse

/-- The extractor, as it stands before the handlers. -/
def Extractor.front (x : Extractor) : Front Incoming Command Answer Outgoing where
  pass
    | .post route body =>
      match x.extract route body with
      -- a body the extractor panics on gets no reply at all
      | .error p => .error (.reply (.error p))
      -- 400, 413, 415 or 422: the handler never runs
      | .ok (.error r) => .error (.reply (.ok (.rejected r)))
      | .ok (.ok req) => .ok (route.command req)
    | .cli c => .ok c.command
  wrap
    | .post _ _, .http r => .reply (.ok (.handled r))
    | _, a => .output a

/-- Program by program: a POST that the extractor turns away is a program that asks nothing, and
one it passes runs the handler of its route with the answer wrapped as a reply. -/
theorem network_program (config : ServerConfig) (x : Extractor) (d : Incoming) :
    (network (σ := σ) config x).program d = ((machine config).behind x.front).program d := by
  cases d with
  | cli c =>
    cases c <;> rfl
  | post route body =>
    unfold network Route.post Machine.behind Extractor.front
    dsimp only
    cases x.extract route body with
    | error p => rfl
    | ok extracted =>
      cases extracted with
      | error r => rfl
      | ok req =>
        dsimp only
        unfold Front.seen
        -- both sides run the same handler; what is left is how its answer is wrapped
        rw [show (machine config).program (route.command req)
          = (route.command req).program config from rfl, Route.program_command]
        show (_ >>= _ >>= _) = (_ >>= _ >>= _)
        rw [Prog.bind_bind, Prog.bind_bind]
        rfl

/-- **The extractor is all there is before the handlers.** -/
theorem network_eq (config : ServerConfig) (x : Extractor) :
    network (σ := σ) config x = (machine config).behind x.front := by
  have hprogram : (network (σ := σ) config x).program = ((machine config).behind x.front).program :=
    funext (network_program config x)
  calc network (σ := σ) config x
      = ⟨(network (σ := σ) config x).program, AppState.perform, ServerOp.lockUse⟩ := rfl
    _ = (machine config).behind x.front := by rw [hprogram]; rfl

/-- A history of processes that the network reaches. -/
abbrev NetworkRun (config : ServerConfig) (x : Extractor)
    (h : List (Step (Pool (ServerSig σ) Incoming Outgoing (AppState σ))
      (LifeEvent (ServerSig σ) Incoming (Env σ))))
    (p : Pool (ServerSig σ) Incoming Outgoing (AppState σ)) : Prop :=
  Run ((network config x).LifeStep AppState.restart) (.idle AppState.fresh) h p

variable {config : ServerConfig} {x : Extractor}
  {h : List (Step (Pool (ServerSig σ) Incoming Outgoing (AppState σ))
    (LifeEvent (ServerSig σ) Incoming (Env σ)))}
  {p : Pool (ServerSig σ) Incoming Outgoing (AppState σ)}

/-- **Whatever comes in, the server lives a history of commands.** -/
theorem network_lives (run : NetworkRun config x h p) :
    ∃ g q, LifeRun config g q ∧ shown LifeEvent.made g = shown LifeEvent.made h
      ∧ shown LifeEvent.began g = shown x.front.passed h ∧ x.front.Behind p q := by
  unfold NetworkRun at run
  rw [network_eq] at run
  exact Machine.Run.admitted run

end Smdp
