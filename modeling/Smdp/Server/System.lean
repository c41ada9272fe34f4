import Smdp.Cli
import Smdp.Interaction.Serve
import Smdp.Server.Es9

/-!
# Smdp — the whole system, one command at a time

Everything that can happen to a server's state: the four ES9+ requests, the commands on
orders, and opening the database again. A `Command` is served as a program (`program`)
under an `Env`; `Step`s of `Serving` chain into the runs the results are about.
-/

namespace Smdp

open Interaction

variable {σ : Type}

/-- What can be asked of the server from outside. -/
inductive Command where
  | initiateAuthentication (req : InitiateAuthenticationRequest)
  | authenticateClient (req : AuthenticateClientRequest)
  | getBoundProfilePackage (req : GetBoundProfilePackageRequest)
  | handleNotification (req : HandleNotificationRequest)
  | orderAdd (args : OrderAdd)
  | orderReset (id : Int)
  | orderList
  | reopen
  deriving DecidableEq

/-- What comes back: an HTTP response, or what the command line prints. -/
inductive Answer where
  | http (r : Response)
  | added (r : Except CliError Order)
  | reset (r : Except CliError Unit)
  | listed (r : Except CliError (List Order))
  | reopened (r : Except StoreError Unit)

/-- Each command as the program that serves it, its answer wrapped. -/
def Command.program (config : ServerConfig) : Command → Handler σ Answer
  | .initiateAuthentication req => do return .http (← Smdp.initiateAuthentication config req)
  | .authenticateClient req => do return .http (← Smdp.authenticateClient req)
  | .getBoundProfilePackage req => do return .http (← Smdp.getBoundProfilePackage req)
  | .handleNotification req => do return .http (← Smdp.handleNotification req)
  | .orderAdd args => do return .added (← Smdp.orderAdd args)
  | .orderReset id => do return .reset (← Smdp.orderReset id)
  | .orderList => do return .listed (← Smdp.orderList)
  | .reopen => do return .reopened (← Handler.openStore)

/-- What a step is remembered by. -/
abbrev Event (σ : Type) := Served (ServerSig σ) Command (Env σ) Answer

/-- One command served to its end. -/
abbrev Serving (config : ServerConfig) : AppState σ → Event σ → AppState σ → Prop :=
  Serves (Command.program config) AppState.perform

/-- A run of the server from a fresh database. -/
abbrev ServerRun (config : ServerConfig) (h : List (Step (AppState σ) (Event σ)))
    (s : AppState σ) : Prop :=
  Run (Serving config) AppState.fresh h s

/-- No store call of the run fails. -/
def NoFaults (h : List (Step (AppState σ) (Event σ))) : Prop :=
  ∀ x ∈ h, x.label.input.faults = StoreFaults.none

/-! ## Serving with the echoing library -/

/-- An environment that draws the transactionId `n, n, …, n`. -/
def Env.echo (n : UInt8) : Env Bytes where
  library := Library.echo
  faults := StoreFaults.none
  nonces := ⟨⟨List.replicate 16 n, rfl⟩, ⟨List.replicate 16 0, rfl⟩, ⟨List.replicate 32 0, rfl⟩⟩
  sweptAt := 0
  born := 0
  random := ⟨List.replicate 22 0, rfl⟩

/-- The ICCID `n, n, …, n`. -/
def iccidOf (n : UInt8) : Iccid := ⟨List.replicate 10 n, List.length_replicate⟩

/-- `smdp order add` of a Profile whose metadata carries the ICCID `n, n, …, n`. -/
def addProfile (n : UInt8) (matchingId : String) : Command :=
  .orderAdd
    { upp := [n], metadata := [0xbf, 0x25, 0x0c, 0x5a, 0x0a] ++ List.replicate 10 n,
      iccid := none, matchingId := some matchingId }

/-- InitiateAuthentication, with a challenge of zeros. -/
def initiate : Command := .initiateAuthentication ⟨List.replicate 16 0, [], "smdp.example.com"⟩

/-- The eUICC `euicc` authenticates on the session `t, t, …, t`. -/
def authenticate (t : UInt8) (euicc : Bytes) : Command :=
  .authenticateClient ⟨List.replicate 16 t, euicc, none⟩

/-- GetBoundProfilePackage on the session `t, t, …, t`. -/
def download (t : UInt8) : Command := .getBoundProfilePackage ⟨List.replicate 16 t, []⟩

/-- The history of serving `cs` on a fresh database. -/
def echoed (cs : List (Command × Env Bytes)) : List (Step (AppState Bytes) (Event Bytes)) :=
  served (Command.program ⟨"smdp.example.com"⟩) AppState.perform AppState.fresh cs

/-- The state that leaves. -/
def echoedState (cs : List (Command × Env Bytes)) : AppState Bytes :=
  servedState (Command.program ⟨"smdp.example.com"⟩) AppState.perform AppState.fresh cs

/-- One more command, after those. -/
def echoedNext (cs : List (Command × Env Bytes)) (c : Command) (env : Env Bytes) :
    Step (AppState Bytes) (Event Bytes) :=
  serve (Command.program ⟨"smdp.example.com"⟩) AppState.perform (echoedState cs) c env

theorem run_echoed (cs : List (Command × Env Bytes)) :
    ServerRun ⟨"smdp.example.com"⟩ (echoed cs) (echoedState cs) :=
  run_served _ _ cs _

theorem noFaults_echoed {cs : List (Command × Env Bytes)}
    (h : ∀ c ∈ cs, c.2.faults = StoreFaults.none) : NoFaults (echoed cs) := by
  intro x hx
  exact h _ (mem_of_mem_served _ _ hx)

end Smdp
