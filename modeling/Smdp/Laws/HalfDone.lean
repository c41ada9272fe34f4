import Smdp.Server.Step

/-!
# Smdp — a failed function leaves nothing half done

The handlers that work on a session answer `Failed` from a dozen places. All but one leave
the tables as they were: `authenticate_client` writes the session's `order_id` before it
cuts the response fields, so an accepted response whose fields cannot be cut is answered
`Failed` over a session that is now authenticated (`FieldsLost`). That is the only way
(`failed_leaves_nothing`), and `initiate_authentication`, which cuts its fields first, does
not have it.
-/

namespace Smdp

open Interaction

variable {σ : Type}

/-- Which sessions are live and which order each is for, and both tables of the store, are
as they were. -/
def SameTables (s s' : AppState σ) : Prop :=
  s'.store = s.store ∧ ∀ t, s'.sessions.orderIds t = s.sessions.orderIds t

/-- If the step answered `Failed`, it left the tables as they were. -/
def NothingHalfDone (x : Step (AppState σ) (Event σ)) : Prop :=
  ∀ r, x.label.answer = .http r → r.Failed → SameTables x.pre x.post

/-- The library accepts the response, its fields cannot be cut, and the session was not for
that order yet. -/
def FieldsLost (s : AppState σ) (c : Command) (env : Env σ) : Prop :=
  ∃ req order entry session resp e, c = .authenticateClient req
    ∧ Chosen env s req.transactionId order entry
    ∧ env.library.authenticateClient entry.session req.authenticateServerResponse order.metadata
        = (session, .ok resp)
    ∧ env.library.authenticateFields resp = .error e
    ∧ entry.orderId ≠ some order.id

theorem SameTables.refl (s : AppState σ) : SameTables s s := ⟨rfl, fun _ => rfl⟩

/-- Writing the entry of a live session keeps the tables exactly when it keeps its order. -/
theorem sameTables_putSession {s : AppState σ} {t : Bytes} {entry : Entry σ}
    (entry' : Entry σ) (hlive : s.sessions.get t = some entry) :
    SameTables s (s.putSession t entry') ↔ entry'.orderId = entry.orderId := by
  have hold : s.sessions.orderIds t = some entry.orderId := by
    unfold Sessions.orderIds
    rw [hlive]
    rfl
  have hnew : ∀ t', (s.putSession t entry').sessions.orderIds t'
      = if t' = t then some entry'.orderId else s.sessions.orderIds t' :=
    fun t' => Sessions.orderIds_put s.sessions entry'
  constructor
  · rintro ⟨_, hsame⟩
    have ht := hsame t
    rw [hnew, if_pos rfl, hold] at ht
    exact Option.some.inj ht
  · intro horder
    refine ⟨rfl, fun t' => ?_⟩
    rw [hnew]
    split
    · rename_i ht'
      rw [ht', hold, horder]
    · rfl

theorem succeeded_not_failed {r : Response} (h : r.Succeeded) : ¬ r.Failed :=
  fun hf => Response.not_succeeded_of_failed hf h

/-- The exits of an `authenticate_client`. Fields are lost in one of them, and only that one
fails with something written. -/
theorem authenticateClient_halfDone {x : Step (AppState σ) (Event σ)}
    {req : AuthenticateClientRequest} {r : Response}
    (command : x.label.command = .authenticateClient req) (answer : x.label.answer = .http r)
    (exit : AuthenticateClientExit x.label.input x.pre req ⟨r, x.post, x.label.calls⟩) :
    NothingHalfDone x ↔ ¬ FieldsLost x.pre x.label.command x.label.input := by
  obtain ⟨s, ⟨c, env, ans, calls⟩, s'⟩ := x
  dsimp only at command answer exit
  subst command answer
  have hsame : (∀ r', Answer.http r = .http r' → r'.Failed → SameTables s s')
      ↔ (r.Failed → SameTables s s') := by
    constructor
    · intro h
      exact h r rfl
    · rintro h r' hr'
      cases hr'
      exact h
  show (∀ r', Answer.http r = .http r' → r'.Failed → SameTables s s') ↔ _
  rw [hsame]
  cases exit with
  | turnedAway unchosen =>
    have hkept : ¬ FieldsLost s (.authenticateClient req) env := by
      rintro ⟨req', order, entry, _, _, _, hreq, chosen, _⟩
      cases hreq
      exact unchosen order entry chosen
    exact iff_of_true (fun _ => .refl s) hkept
  | @refused _ _ order entry session e chosen refusal =>
    have hkept : ¬ FieldsLost s (.authenticateClient req) env := by
      rintro ⟨req', order', entry', session', resp, _, hreq, chosen', acceptance, _⟩
      cases hreq
      obtain ⟨rfl, rfl⟩ := chosen.unique chosen'
      rw [refusal] at acceptance
      cases acceptance
    have htables := (sameTables_putSession { entry with session } chosen.live).mpr rfl
    exact iff_of_true (fun _ => htables) hkept
  | @uncut _ _ order entry session resp e chosen acceptance fields failed =>
    -- written before the fields were cut: half done exactly if `order_id` changed
    have htables := sameTables_putSession { entry with session, orderId := some order.id }
      chosen.live
    rw [htables]
    constructor
    · rintro horder ⟨req', order', entry', session', resp', _, hreq, chosen', _, _, hother⟩
      cases hreq
      obtain ⟨rfl, rfl⟩ := chosen.unique chosen'
      exact hother (horder failed).symm
    · intro hkept _
      by_contra hother
      exact hkept ⟨req, order, entry, session, resp, e, rfl, chosen, acceptance, fields,
        fun h => hother h.symm⟩
  | @answered _ _ order entry session resp g chosen acceptance fields succeeded =>
    have hkept : ¬ FieldsLost s (.authenticateClient req) env := by
      rintro ⟨req', order', entry', session', resp', e, hreq, chosen', acceptance', fields', _⟩
      cases hreq
      obtain ⟨rfl, rfl⟩ := chosen.unique chosen'
      rw [acceptance] at acceptance'
      cases acceptance'
      rw [fields] at fields'
      cases fields'
    exact iff_of_true (fun hfailed => absurd hfailed (succeeded_not_failed succeeded)) hkept

/-- Every other command that answers `Failed` left the tables as they were. -/
theorem nothingHalfDone_of_other {config : ServerConfig} {x : Step (AppState σ) (Event σ)}
    (step : Serving config x.pre x.label x.post)
    (hx : ∀ req, x.label.command ≠ .authenticateClient req) : NothingHalfDone x := by
  obtain ⟨s, label, s'⟩ := x
  intro r hanswer hfailed
  dsimp only at step hx hanswer
  show SameTables s s'
  cases serving_cases step with
  | initiateAuthentication command answer exit =>
    obtain rfl : r = _ := by simpa [hanswer] using answer
    cases exit with
    | turnedAway => exact .refl s
    | @opened b _ _ succeeded =>
      have hsucceeded : (okJson (.initiateAuthentication b)).Succeeded :=
        okJson_initiateAuthentication_succeeded succeeded
      exact absurd hfailed (succeeded_not_failed hsucceeded)
  | authenticateClient command => exact absurd command (hx _)
  | getBoundProfilePackage command answer exit =>
    obtain rfl : r = _ := by simpa [hanswer] using answer
    cases exit with
    | turnedAway => exact .refl s
    | refused deliverable => exact (sameTables_putSession _ deliverable.live).mpr rfl
    | handedOut _ _ succeeded => exact absurd hfailed (succeeded_not_failed succeeded)
  | handleNotification command answer state =>
    obtain rfl : r = _ := by simpa [hanswer] using answer
    cases hfailed
  | orderAdd command answer => simp [hanswer] at answer
  | orderReset command answer => simp [hanswer] at answer
  | look command state =>
    rw [state]
    exact .refl s

/-- **A function answered `Failed` leaves nothing half done, except when fields are lost.** The one
way to fail with something done is that of `authenticate_client`, which writes the order on the
session before it cuts the fields out of the library's answer; every other failure comes before the
first write. -/
theorem failed_leaves_nothing (config : ServerConfig) (s : AppState σ) (c : Command)
    (env : Env σ) :
    NothingHalfDone (serve (Command.program config) AppState.perform s c env)
      ↔ ¬ FieldsLost s c env := by
  have step := serves_serve (Command.program config) AppState.perform s c env
  by_cases hc : ∃ req, c = .authenticateClient req
  · obtain ⟨req, rfl⟩ := hc
    obtain ⟨r, answer, exit⟩ := serving_authenticateClient step rfl
    exact authenticateClient_halfDone rfl answer exit
  · have hother : ∀ req, c ≠ .authenticateClient req := fun req h => hc ⟨req, h⟩
    have hkept : ¬ FieldsLost s c env := by
      rintro ⟨req, _, _, _, _, _, hreq, _⟩
      exact hother req hreq
    exact iff_of_true (nothingHalfDone_of_other step hother) hkept

/-- One order on offer and a fresh session. -/
def freshSession : List (Command × Env Bytes) :=
  [(addProfile 7 "A", .echo 0), (initiate, .echo 1)]

/-- The library accepts an empty response and has nothing to cut from it: the answer is
`Failed`, and the session is for order 1 from then on. -/
theorem failed_leaves_orderId :
    ¬ ∀ (config : ServerConfig) (s : AppState Bytes) (c : Command) (env : Env Bytes),
      NothingHalfDone (serve (Command.program config) AppState.perform s c env) := by
  intro hall
  have hkept := hall ⟨"smdp.example.com"⟩ (echoedState freshSession) (authenticate 1 []) (.echo 0)
  have htables := hkept _ rfl rfl
  have hentry := htables.2 (List.replicate 16 1)
  have hbefore : (echoedState freshSession).sessions.orderIds (List.replicate 16 1)
      = some none := rfl
  have hafter : (echoedNext freshSession (authenticate 1 []) (.echo 0)).post.sessions.orderIds
      (List.replicate 16 1) = some (some 1) := rfl
  exact absurd (hafter.symm.trans (hentry.trans hbefore)) (by decide)

end Smdp
