import Smdp.Server.Step

/-!
# Smdp — what one step does to a live session

`serving_session` says how a step can change what the session table holds for one
transactionId (`SessionMove`): it is swept away, opened, replaced by what the library made
of it, authenticated against an order, or used up. Every constructor carries what stands
when it happens, so results about sessions never go back to the handlers.

A sweep is part of an insertion (`Sessions::insert`), so only a step that opens a session
sweeps one: an `initiate_authentication` that is turned away leaves every entry, however old.
-/

namespace Smdp

open Interaction

variable {σ : Type} {config : ServerConfig} {s s' : AppState σ} {x : Event σ}

/-! ## What a step does to a session, by its request and its answer -/

/-- An `initiate_authentication` answered Executed-Success that returned `t`. -/
def Opens (x : Event σ) (t : Bytes) : Prop :=
  ∃ req r b, x.command = .initiateAuthentication req ∧ x.answer = .http r ∧ r.Succeeded
    ∧ r.body = .initiateAuthentication b ∧ b.transactionId = t

/-- An `authenticate_client` answered Executed-Success for `t`. -/
def Authenticates (x : Event σ) (t : Bytes) : Prop :=
  ∃ req r, x.command = .authenticateClient req ∧ req.transactionId = t ∧ x.answer = .http r
    ∧ r.Succeeded

/-- A `get_bound_profile_package` answered Executed-Success for `t`. -/
def Delivers (x : Event σ) (t : Bytes) : Prop :=
  ∃ req r, x.command = .getBoundProfilePackage req ∧ req.transactionId = t ∧ x.answer = .http r
    ∧ r.Succeeded

/-- A request that names `t`. -/
def Names (x : Event σ) (t : Bytes) : Prop :=
  (∃ req, x.command = .authenticateClient req ∧ req.transactionId = t)
    ∨ ∃ req, x.command = .getBoundProfilePackage req ∧ req.transactionId = t

/-- A session is opened, and at the sweep that goes with it what was born at `born` has
reached its age. -/
def Sweeps (x : Event σ) (born : Instant) : Prop :=
  (∃ t, Opens x t) ∧ maxAge ≤ x.input.sweptAt.durationSince born

theorem Opens.command {t : Bytes} (h : Opens x t) :
    ∃ req, x.command = .initiateAuthentication req := by
  obtain ⟨req, _, _, command, _⟩ := h
  exact ⟨req, command⟩

/-! ## How an entry can change -/

/-- How a step can change what the session table holds for `t`. -/
inductive SessionMove (s : AppState σ) (x : Event σ) (t : Bytes) (s' : AppState σ) : Prop where
  | kept (entry : s'.sessions.get t = s.sessions.get t)
  | swept {e} (opens : ∃ t', Opens x t') (live : s.sessions.get t = some e)
      (old : maxAge ≤ x.input.sweptAt.durationSince e.born) (entry : s'.sessions.get t = none)
  | opened {req r b session} (command : x.command = .initiateAuthentication req)
      (answer : x.answer = .http r) (succeeded : r.Succeeded)
      (body : r.body = .initiateAuthentication b) (drawn : b.transactionId = t)
      (entry : s'.sessions.get t = some ⟨session, none, x.input.born⟩)
  | refused {e session} (names : (∃ req, x.command = .authenticateClient req
        ∧ req.transactionId = t) ∨ ∃ req, x.command = .getBoundProfilePackage req
        ∧ req.transactionId = t)
      (unaccepted : ∀ req, x.command = .authenticateClient req →
        x.calls.filterMap acceptedMetadata = [])
      (live : s.sessions.get t = some e) (entry : s'.sessions.get t = some { e with session })
  | authenticated {req r order e session resp} (command : x.command = .authenticateClient req)
      (names : req.transactionId = t) (answer : x.answer = .http r)
      (chosen : Chosen x.input s t order e)
      (acceptance : x.input.library.authenticateClient e.session req.authenticateServerResponse
        order.metadata = (session, .ok resp))
      (cut : r.Succeeded ∨ ∃ err, x.input.library.authenticateFields resp = .error err)
      (accepted : x.calls.filterMap acceptedMetadata = [order.metadata])
      (entry : s'.sessions.get t = some { e with session, orderId := some order.id })
  | handedOut {req r order e} (command : x.command = .getBoundProfilePackage req)
      (names : req.transactionId = t) (answer : x.answer = .http r) (succeeded : r.Succeeded)
      (deliverable : Deliverable x.input s t order e) (entry : s'.sessions.get t = none)

/-- **Every step changes the entry of `t` in one of these ways.** -/
theorem serving_session (h : Serving config s x s') (t : Bytes) : SessionMove s x t s' := by
  cases serving_cases h with
  -- the one command that inserts, and so the one that sweeps
  | initiateAuthentication command answer exit =>
    cases exit with
    -- a bad challenge, a refusal of the library's, or fields that were not cut: no insert, no
    -- sweep
    | turnedAway => exact .kept rfl
    | @opened b _ session succeeded drawn =>
      have hget : (s.sessions.insert x.input.nonces.transactionId.val session x.input.sweptAt
          x.input.born).get t = _ := Sessions.get_insert s.sessions session _ _
      have hsucceeded := okJson_initiateAuthentication_succeeded succeeded
      split at hget
      · rename_i hdrawn
        exact .opened command answer hsucceeded rfl (drawn.trans hdrawn.symm) hget
      · -- another session was opened: `t` was swept, or it was young enough
        cases hlive : s.sessions.get t with
        | none =>
          rw [hlive] at hget
          exact .kept (hget.trans hlive.symm)
        | some e =>
          rw [hlive, Option.filter_some] at hget
          split at hget
          · exact .kept (hget.trans hlive.symm)
          · rename_i hold
            have hopens : Opens x b.transactionId :=
              ⟨_, _, b, command, answer, hsucceeded, rfl, rfl⟩
            exact .swept ⟨_, hopens⟩ hlive (by simpa using hold) hget
  | @authenticateClient req r command answer exit =>
    by_cases hnames : t = req.transactionId
    · subst hnames
      cases exit with
      | turnedAway => exact .kept rfl
      -- the entry keeps its order, with the session as the library left it
      | @refused _ _ order e session err chosen _ _ unaccepted =>
        exact .refused (.inl ⟨req, command, rfl⟩) (fun _ _ => unaccepted) chosen.live
          ((AppState.get_putSession s _ _ _).trans (if_pos rfl))
      -- accepted, though the answer says Failed: `order_id` is set before the fields are cut
      | @uncut _ _ order e session resp err chosen acceptance fields failed accepted =>
        exact .authenticated command rfl answer chosen acceptance (.inr ⟨err, fields⟩) accepted
          ((AppState.get_putSession s _ _ _).trans (if_pos rfl))
      | @answered _ _ order e session resp g chosen acceptance fields succeeded accepted =>
        exact .authenticated command rfl answer chosen acceptance (.inl succeeded) accepted
          ((AppState.get_putSession s _ _ _).trans (if_pos rfl))
    · -- a request that names another session writes only to its own key
      have hother : ∀ e, (s.putSession req.transactionId e).sessions.get t = s.sessions.get t :=
        fun e => (AppState.get_putSession s _ _ e).trans (if_neg hnames)
      cases exit with
      | turnedAway => exact .kept rfl
      | refused | uncut | answered => exact .kept (hother _)
  | @getBoundProfilePackage req r command answer exit =>
    by_cases hnames : t = req.transactionId
    · subst hnames
      cases exit with
      | turnedAway => exact .kept rfl
      | @refused _ _ order e session err deliverable _ _ =>
        refine .refused (.inr ⟨req, command, rfl⟩) ?_ deliverable.live
          ((AppState.get_putSession s _ _ _).trans (if_pos rfl))
        intro req' command'
        rw [command] at command'
        cases command'
      -- the only step that takes an entry out without a sweep
      | @handedOut _ _ order e _ _ deliverable _ succeeded _ =>
        exact .handedOut command rfl answer succeeded deliverable
          ((Sessions.get_remove s.sessions).trans (if_pos rfl))
    · cases exit with
      | turnedAway => exact .kept rfl
      | refused => exact .kept ((AppState.get_putSession s _ _ _).trans (if_neg hnames))
      | handedOut => exact .kept ((Sessions.get_remove s.sessions).trans (if_neg hnames))
  -- notifications and the operator's commands have nothing to do with sessions
  | handleNotification _ _ state =>
    subst state
    exact .kept rfl
  | orderAdd _ _ exit => cases exit <;> exact .kept rfl
  | orderReset _ _ exit => cases exit <;> exact .kept rfl
  | look _ state =>
    subst state
    exact .kept rfl

end Smdp
