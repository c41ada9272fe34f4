import Smdp.Interaction.Protocol
import Smdp.Server.Endpoint

/-!
# Smdp — a synchronous function answers in the ES9+ way

SGP.22 v2.6 section 6.3: a synchronous function answers 200 "regardless whether the function
response is an error or a success", and says in the body which of the two it was. Every handler
does (`handler_es9`), whatever the library, the store and the random source answer it.

The `Json<T>` extractor in front of it does not: it answers what it cannot read by itself, under a
4xx status and in plain text. `post_es9_iff`: so a POST is answered in the ES9+ way exactly where
its body can be read into the request.
-/

namespace Smdp

open Interaction Serde

variable {σ : Type}

/-! ## The ES9+ way -/

/-- The header of the function's own response. -/
def Route.ownHeader : Route → Body → Option ResponseHeader
  | .initiateAuthentication, .initiateAuthentication b => some b.header
  | .authenticateClient, .authenticateClient b => some b.header
  | .getBoundProfilePackage, .getBoundProfilePackage b => some b.header
  | _, _ => none

/-- A Failed status that says why. -/
def ResponseHeader.Explains (h : ResponseHeader) : Prop :=
  h.functionExecutionStatus.status = .failed ∧ h.functionExecutionStatus.statusCodeData.isSome

/-- An answer in the ES9+ way: 200 as JSON under the headers of the binding, and in its body
either the function's own response or a failure. -/
structure Response.IsEs9 (route : Route) (r : Response) : Prop where
  status : r.status = 200
  version : ("X-Admin-Protocol", adminProtocol) ∈ r.headers
  json : ("content-type", "application/json") ∈ r.headers
  /-- Executed-Success with the function's fields, or Failed with statusCodeData. -/
  verdict : (∃ h, route.ownHeader r.body = some h
      ∧ h.functionExecutionStatus.status = .executedSuccess)
    ∨ ∃ b, r.body = .failure b ∧ b.header.Explains

/-- The client gets an ES9+ answer: not the extractor's, and not none at all. -/
def IsEs9 (route : Route) : Panicking Reply → Prop
  | .ok (.handled r) => r.IsEs9 route
  | _ => False

/-! ## The handlers -/

theorem failed_isEs9 (route : Route) (subject reason message : String) :
    (failed subject reason message).IsEs9 route where
  status := rfl
  version := List.mem_cons_self
  json := List.mem_cons_of_mem _ List.mem_cons_self
  verdict := Or.inr ⟨_, rfl, rfl, rfl⟩

theorem fromRspError_isEs9 (route : Route) (e : RspError) (subject : String) :
    (fromRspError e subject).IsEs9 route := by
  cases e with
  | refused what => exact failed_isEs9 route ..
  | notReached what => exact failed_isEs9 route ..

theorem okJson_isEs9 {route : Route} {body : Body}
    (hbody : route.ownHeader body = some .success) : (okJson body).IsEs9 route where
  status := rfl
  version := List.mem_cons_self
  json := List.mem_cons_of_mem _ List.mem_cons_self
  verdict := Or.inl ⟨_, hbody, rfl⟩

/-- However its calls are answered, the program returns an ES9+ answer. -/
abbrev ReturnsEs9 (route : Route) (p : Handler σ Response) : Prop :=
  p.Keeps .any (fun r _ => r.IsEs9 route) ()

section

attribute [local simp] Prog.ask Handler.rsp Handler.store Handler.listOrders Handler.bindEuicc
  Handler.setState Handler.lock Handler.unlock Handler.getSession Handler.putSession
  Handler.removeSession Handler.insertSession DpSession.authenticateClient
  DpSession.getBoundProfilePackage DpSession.eid DpSession.euiccCert initiateFields
  authenticateFields failed_isEs9 fromRspError_isEs9

/-- Every return of `initiate_authentication` is one of the two. -/
theorem es9_initiateAuthentication (config : ServerConfig) (req : InitiateAuthenticationRequest) :
    ReturnsEs9 (σ := σ) .initiateAuthentication (initiateAuthentication config req) := by
  unfold initiateAuthentication
  cases Octets.ofBytes? 16 req.euiccChallenge with
  | none => simp
  | some challenge =>
    simp
    intro transactionId _ serverChallenge _
    unfold DpSession.initiate
    split
    · simp
    · simp
    · simp
      intro asked
      split
      · simp
      · simp
        intro fields
        split
        · simp
        · simp
          exact okJson_isEs9 rfl

theorem es9_authenticateClient (req : AuthenticateClientRequest) :
    ReturnsEs9 (σ := σ) .authenticateClient (authenticateClient req) := by
  unfold authenticateClient
  simp
  intro listed
  cases listed with
  | error e => simp
  | ok orders =>
    dsimp only
    match availableOrders orders with
    | [] => simp
    | _ :: _ :: _ => simp
    | [order] =>
      simp
      intro live
      cases live with
      | none => simp
      | some entry =>
        simp
        intro session accepted
        split
        · simp
        · simp
          intro eid cert fields
          split
          · simp
          · -- neither write is looked at
            simp [rememberEuicc]
            split
            · simp
              exact okJson_isEs9 rfl
            · simp
              exact okJson_isEs9 rfl

theorem es9_getBoundProfilePackage (req : GetBoundProfilePackageRequest) :
    ReturnsEs9 (σ := σ) .getBoundProfilePackage (getBoundProfilePackage req) := by
  unfold getBoundProfilePackage
  simp
  intro otskDp _ live
  cases live with
  | none => simp
  | some entry =>
    simp [findUpp]
    split
    · simp
    · simp
      intro listed
      cases listed with
      | error e => simp
      | ok orders =>
        simp
        split
        · simp
        · simp
          intro session built
          split
          · simp
          · simp
            exact okJson_isEs9 rfl

end

/-- **Every synchronous handler answers in the ES9+ way.** -/
theorem handler_es9 (config : ServerConfig) {route : Route} (hsync : route.synchronous)
    (req : route.Request) : ReturnsEs9 (σ := σ) route (route.handler config req) := by
  cases route with
  -- one lemma a handler: `simp` runs it from call to call, up to where it looks at an answer
  | initiateAuthentication => exact es9_initiateAuthentication config req
  | authenticateClient => exact es9_authenticateClient req
  | getBoundProfilePackage => exact es9_getBoundProfilePackage req
  | handleNotification => cases hsync

/-! ## The endpoint -/

section

variable {S : Type} {perform : (op : ServerOp σ) → S → (ServerSig σ).Ret op × S}
variable {config : ServerConfig} {x : Extractor} {route : Route} {body : Bytes}

theorem isEs9_of_reads (hsync : route.synchronous) (h : route.Reads x body) (s : S) :
    IsEs9 route ((route.post config x body).exec perform s).value := by
  obtain ⟨req, hextract⟩ := extract_handed_on h
  have hpost : route.post (σ := σ) config x body
      = route.handler config req >>= fun r => pure (.ok (.handled r)) := by
    unfold Route.post
    rw [hextract]
  rw [hpost, Prog.exec_map]
  exact Prog.exec_keeps (handler_es9 config hsync req) s

/-- What cannot be read is answered by the extractor, under a 4xx status. -/
theorem rejected_of_not_reads (perform : (op : ServerOp σ) → S → (ServerSig σ).Ret op × S)
    (config : ServerConfig) (h : ¬ route.Reads x body) (s : S) :
    ∃ e, ((route.post (σ := σ) config x body).exec perform s).value
      = .ok (.rejected (x.reject body e)) := by
  obtain ⟨e, hextract⟩ := extract_rejected h
  refine ⟨e, ?_⟩
  unfold Route.post
  rw [hextract]
  rfl

end

/-- **When a synchronous function answers in the ES9+ way.** However its operations are answered
(`AppState.perform` is one way), from whatever state: exactly where the body is JSON with every
member of the request in it. -/
theorem post_es9_iff {S : Type} (perform : (op : ServerOp σ) → S → (ServerSig σ).Ret op × S)
    (s : S) (config : ServerConfig) (x : Extractor) (route : Route) (hsync : route.synchronous)
    (body : Bytes) :
    IsEs9 route ((route.post config x body).exec perform s).value ↔ route.Reads x body := by
  constructor
  · intro hes9
    by_contra hnot
    obtain ⟨e, hrejected⟩ := rejected_of_not_reads perform config hnot s
    have hno : ¬ IsEs9 route (.ok (.rejected (x.reject body e))) := id
    exact hno (hrejected ▸ hes9)
  · intro hreads
    exact isEs9_of_reads hsync hreads s

/-! ## An empty object -/

/-- The bytes of a text that is ASCII. -/
def ascii (text : String) : Bytes := text.toList.map fun c => UInt8.ofNat c.toNat

/-- A request for a session, whose info is empty. -/
def initiateText : String :=
  "\x7b\"euiccChallenge\":\"AAAAAAAAAAAAAAAAAAAAAA==\",\"euiccInfo1\":\"\","
    ++ "\"smdpAddress\":\"smdp.example.com\"\x7d"

def initiateJson : Json :=
  .object [("euiccChallenge", .string "AAAAAAAAAAAAAAAAAAAAAA=="), ("euiccInfo1", .string ""),
    ("smdpAddress", .string "smdp.example.com")]

/-- An extractor, as far as the two bodies go: `\x7b\x7d` and a request for a session. -/
def someExtractor : Extractor where
  parse body :=
    if body = ascii "\x7b\x7d" then some (.object [])
    else if body = ascii initiateText then some initiateJson
    else none
  base64 s :=
    if s = "AAAAAAAAAAAAAAAAAAAAAA==" then some (List.replicate 16 0)
    else if s = "" then some []
    else none
  reject _
    | none => ⟨400, "Failed to parse the request body as JSON", by decide⟩
    | some _ => ⟨422, "Failed to deserialize the JSON body into the target type", by decide⟩

theorem reads_initiateText :
    Route.Reads someExtractor .initiateAuthentication (ascii initiateText) := by
  refine ⟨initiateJson, ?_, ?_⟩
  · have hother : ascii initiateText ≠ ascii "\x7b\x7d" := by decide
    unfold someExtractor
    dsimp only
    rw [if_neg hother, if_pos rfl]
  · show ∀ m ∈ InitiateAuthenticationRequest.members someExtractor.base64, m.GivenIn _
    simp [InitiateAuthenticationRequest.members, base64Member, stringMember, Member.GivenIn,
      valuesOf, someExtractor]

theorem post_es9_initiateText :
    IsEs9 .initiateAuthentication ((Route.post ⟨"smdp.example.com"⟩ someExtractor
      .initiateAuthentication (ascii initiateText)).exec (AppState.perform (.echo 1))
      .fresh).value :=
  (post_es9_iff (AppState.perform (.echo 1)) .fresh ⟨"smdp.example.com"⟩ someExtractor
    .initiateAuthentication rfl (ascii initiateText)).mpr reads_initiateText

/-- An empty object is no request for a session, and the handler is never asked. -/
theorem empty_object_rejected :
    ∃ r : Rejection, r.status = 422
      ∧ ((Route.post ⟨"smdp.example.com"⟩ someExtractor .initiateAuthentication
          (ascii "\x7b\x7d")).exec (AppState.perform (.echo 1)) .fresh).value = .ok (.rejected r)
      ∧ ¬ IsEs9 .initiateAuthentication (.ok (.rejected r)) :=
  ⟨_, rfl, rfl, id⟩

end Smdp
