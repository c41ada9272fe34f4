import Smdp.Es9.Request
import Smdp.Server.System

/-!
# Smdp — a POST to an ES9+ endpoint (`server/mod.rs`, `router`)

In front of every handler stands axum's `Json<T>` extractor. It reads the body into the request
the handler takes, and where it cannot, the handler is never called: the extractor answers by
itself. `extract_handed_on` and `extract_rejected` say when it does which; it never panics.

axum, serde_json and base64 are not part of this repository. An `Extractor` is what is used of
them.
-/

namespace Smdp

open Interaction Serde

variable {σ : Type}

/-! ## The extractor -/

/-- What the extractor answers by itself: text, under a status of the client's. -/
structure Rejection where
  status : Nat
  text : String
  isClientError : 400 ≤ status ∧ status < 500

/-- The parts of axum's extractor that are not in this repository, taken as they come: how a body
is parsed, how base64 is read, and how a rejection is worded. -/
structure Extractor where
  /-- The JSON value a body spells, if it is one and no longer than axum takes. -/
  parse : Bytes → Option Json
  /-- `STANDARD.decode`. -/
  base64 : String → Option Bytes
  /-- The answer to a body that spells no value, or a value that was not read. -/
  reject : Bytes → Option (Error WireFault) → Rejection

/-! ## Routes -/

/-- Paths from SGP.22 v2.6 Table 57. -/
inductive Route where
  | initiateAuthentication
  | authenticateClient
  | getBoundProfilePackage
  | handleNotification
  deriving DecidableEq

namespace Route

/-- HandleNotification has the Notification MEP, every other function the synchronous one. -/
def synchronous : Route → Bool
  | .handleNotification => false
  | _ => true

/-- What the route's handler takes. -/
abbrev Request : Route → Type
  | .initiateAuthentication => InitiateAuthenticationRequest
  | .authenticateClient => AuthenticateClientRequest
  | .getBoundProfilePackage => GetBoundProfilePackageRequest
  | .handleNotification => HandleNotificationRequest

/-- The `Deserialize` that `Json<T>` runs, `T` being that request. -/
def deserialize (base64 : String → Option Bytes) : (route : Route) → Wire route.Request
  | .initiateAuthentication => InitiateAuthenticationRequest.deserialize base64
  | .authenticateClient => AuthenticateClientRequest.deserialize base64
  | .getBoundProfilePackage => GetBoundProfilePackageRequest.deserialize base64
  | .handleNotification => HandleNotificationRequest.deserialize base64

/-- The members its object has to have. -/
def members (base64 : String → Option Bytes) : Route → List Member
  | .initiateAuthentication => InitiateAuthenticationRequest.members base64
  | .authenticateClient => AuthenticateClientRequest.members base64
  | .getBoundProfilePackage => GetBoundProfilePackageRequest.members base64
  | .handleNotification => HandleNotificationRequest.members base64

/-- The handler `router` puts behind the route. -/
def handler (config : ServerConfig) : (route : Route) → route.Request → Handler σ Response
  | .initiateAuthentication => Smdp.initiateAuthentication config
  | .authenticateClient => Smdp.authenticateClient
  | .getBoundProfilePackage => Smdp.getBoundProfilePackage
  | .handleNotification => Smdp.handleNotification

/-- The command a request is to the server. -/
def command : (route : Route) → route.Request → Command
  | .initiateAuthentication => .initiateAuthentication
  | .authenticateClient => .authenticateClient
  | .getBoundProfilePackage => .getBoundProfilePackage
  | .handleNotification => .handleNotification

/-- What is handed on to a handler is a command of the server. -/
theorem program_command (config : ServerConfig) (route : Route) (req : route.Request) :
    (route.command req).program (σ := σ) config
      = (do return .http (← route.handler config req)) := by
  cases route <;> rfl

end Route

/-- What the client gets. -/
inductive Reply where
  | handled (r : Response)
  | rejected (r : Rejection)

/-- `Json::from_request`. -/
def Extractor.extract (x : Extractor) (route : Route) (body : Bytes) :
    Panicking (Except Rejection route.Request) :=
  match x.parse body with
  | none => .ok (.error (x.reject body none))
  | some j =>
    match route.deserialize x.base64 j with
    -- a reader that panics takes the whole request down, before any answer
    | .error (.custom (.panicked p)) => .error p
    -- any other fault is the extractor's to answer
    | .error e => .ok (.error (x.reject body (some e)))
    | .ok req => .ok (.ok req)

/-- One request, from the bytes of its body to the answer. -/
def Route.post (config : ServerConfig) (x : Extractor) (route : Route) (body : Bytes) :
    Handler σ (Panicking Reply) :=
  match x.extract route body with
  | .error p => .ret (.error p)
  | .ok (.error r) => .ret (.ok (.rejected r))
  | .ok (.ok req) => do return .ok (.handled (← route.handler config req))

/-! ## What is handed on -/

/-- The body is JSON, with every member of the request in it. -/
def Route.Reads (x : Extractor) (route : Route) (body : Bytes) : Prop :=
  ∃ j, x.parse body = some j ∧ Fits (route.members x.base64) j

variable {base64 : String → Option Bytes} {j : Json}

/-- For each route its derived `Deserialize` succeeds exactly where every member reads. The lemma
about derived structs is the same four times; what is checked here is that no two fields of a
struct have one name. -/
theorem Route.deserialize_ok_iff (route : Route) :
    (∃ req, route.deserialize base64 j = .ok req) ↔ Fits (route.members base64) j := by
  cases route with
  | initiateAuthentication =>
    refine Smdp.deserialize_ok_iff ?_ ?_
    · simp [InitiateAuthenticationRequest.fields, InitiateAuthenticationRequest.members, members,
        Fields.members]
    · show ["euiccChallenge", "euiccInfo1", "smdpAddress"].Nodup
      decide
  | authenticateClient =>
    refine Smdp.deserialize_ok_iff ?_ ?_
    · simp [AuthenticateClientRequest.fields, AuthenticateClientRequest.members, members,
        Fields.members]
    · show ["transactionId", "authenticateServerResponse", "useMatchingIdForAcr"].Nodup
      decide
  | getBoundProfilePackage =>
    refine Smdp.deserialize_ok_iff ?_ ?_
    · simp [GetBoundProfilePackageRequest.fields, GetBoundProfilePackageRequest.members, members,
        Fields.members]
    · show ["transactionId", "prepareDownloadResponse"].Nodup
      decide
  | handleNotification =>
    refine Smdp.deserialize_ok_iff ?_ ?_
    · simp [HandleNotificationRequest.fields, HandleNotificationRequest.members, members,
        Fields.members]
    · show ["pendingNotification"].Nodup
      decide

/-- No field of any request has a reader that panics: the one that can, hexadecimal, reads by
octets. -/
theorem Route.deserialize_no_panic (route : Route) {e : WireFault}
    (h : route.deserialize base64 j = .error (.custom e)) : ¬ e.IsPanic := by
  cases route with
  | initiateAuthentication =>
    apply Smdp.deserialize_no_panic ?_ h
    exact ⟨failBy_base64Required _ _, failBy_base64Required _ _, failBy_stringRequired _, trivial⟩
  | authenticateClient =>
    apply Smdp.deserialize_no_panic ?_ h
    exact ⟨failBy_hexRequired _, failBy_base64Required _ _, failBy_flagDefault _, trivial⟩
  | getBoundProfilePackage =>
    apply Smdp.deserialize_no_panic ?_ h
    exact ⟨failBy_hexRequired _, failBy_base64Required _ _, trivial⟩
  | handleNotification =>
    apply Smdp.deserialize_no_panic ?_ h
    exact ⟨failBy_base64Required _ _, trivial⟩

section

variable {x : Extractor} {route : Route} {body : Bytes}

theorem extract_handed_on (h : route.Reads x body) :
    ∃ req, x.extract route body = .ok (.ok req) := by
  obtain ⟨j, hparse, hfits⟩ := h
  obtain ⟨req, hread⟩ := route.deserialize_ok_iff.mpr hfits
  refine ⟨req, ?_⟩
  unfold Extractor.extract
  simp only [hparse, hread]

/-- **Any other body is answered before a handler sees it.** -/
theorem extract_rejected (h : ¬ route.Reads x body) :
    ∃ e, x.extract route body = .ok (.error (x.reject body e)) := by
  unfold Extractor.extract
  -- either the body spells no value, or the value was not read
  cases hparse : x.parse body with
  | none => exact ⟨none, rfl⟩
  | some j =>
    dsimp only
    split
    · -- a panic would end the task with no answer at all
      rename_i p hread
      exact absurd trivial (route.deserialize_no_panic hread)
    · rename_i e _ hread
      exact ⟨some e, rfl⟩
    · rename_i req hread
      exact absurd ⟨j, hparse, route.deserialize_ok_iff.mp ⟨req, hread⟩⟩ h

end

end Smdp
