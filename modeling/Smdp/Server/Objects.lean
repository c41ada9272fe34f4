import Mathlib.Logic.Function.Basic
import Smdp.Interaction.History
import Smdp.Store.Order

/-!
# Smdp — sessions as the C library sees them

To the library a session is one object, which it is handed again and again and changes in place.
This is the abstract side of the session table: an object for each transactionId, and the calls the
server may make on it. Each call on an object finds it as the call before left it, a package is
asked for only once the object has accepted an eUICC, and building one uses the object up. Nothing
is said here about a table, a mutex or requests.

`packaged_of_run` is what this is good for: a package is the one package of its object, and of the
Profile the object last accepted an eUICC for.
-/

namespace Smdp

open Interaction

variable {σ : Type}

/-- An object of the library's, and what can be said of it from outside: for which Profile it was
last taken. -/
structure SessionObject (σ : Type) where
  session : σ
  /-- The metadata of the Profile it last accepted an eUICC for. -/
  booked : Option Bytes

/-- The objects there are, one at most for a transactionId. -/
abbrev Objects (σ : Type) := Bytes → Option (SessionObject σ)

/-- No object: where a process starts. -/
def Objects.none : Objects σ := fun _ => Option.none

/-- A call made on an object, with the state it was handed and the state it left. -/
inductive ObjectEvent (σ : Type) where
  | opened (t : Bytes) (session : σ)
  | authenticated (t : Bytes) (session : σ) (metadata : Bytes) (session' : σ) (accepted : Bool)
  /-- The EID or the certificate was read. -/
  | inspected (t : Bytes) (session : σ)
  | packaged (t : Bytes) (session : σ) (upp : Bytes) (session' : σ) (built : Bool)
  /-- The process ended, and every object with it. -/
  | lost

/-- A call on an object. `sells metadata upp` says that there is a Profile with both. -/
inductive ObjectStep (sells : Bytes → Bytes → Prop) :
    Objects σ → ObjectEvent σ → Objects σ → Prop where
  | opened {os : Objects σ} {t : Bytes} {session : σ} :
      ObjectStep sells os (.opened t session)
        (Function.update os t (some ⟨session, Option.none⟩))
  | authenticated {os : Objects σ} {t : Bytes} {object : SessionObject σ} {metadata : Bytes}
      {session' : σ} {accepted : Bool} (live : os t = some object) :
      ObjectStep sells os (.authenticated t object.session metadata session' accepted)
        (Function.update os t
          (some ⟨session', if accepted then some metadata else object.booked⟩))
  | inspected {os : Objects σ} {t : Bytes} {object : SessionObject σ} (live : os t = some object) :
      ObjectStep sells os (.inspected t object.session) os
  | packaged {os : Objects σ} {t : Bytes} {object : SessionObject σ} {metadata upp : Bytes}
      {session' : σ} {built : Bool} (live : os t = some object)
      (booked : object.booked = some metadata) (sold : sells metadata upp) :
      ObjectStep sells os (.packaged t object.session upp session' built)
        (Function.update os t
          (if built then Option.none else some ⟨session', object.booked⟩))
  | lost {os : Objects σ} : ObjectStep sells os .lost Objects.none

/-- The object of `t` is gone after this. -/
def ObjectEvent.Ends (e : ObjectEvent σ) (t : Bytes) : Prop :=
  e = .lost ∨ ∃ session upp session', e = .packaged t session upp session' true

variable {sells : Bytes → Bytes → Prop} {os os' : Objects σ} {e : ObjectEvent σ} {t : Bytes}

/-! ## One call -/

/-- An object appears by being opened. -/
theorem ObjectStep.appears (step : ObjectStep sells os e os') (h : os t = Option.none)
    (h' : os' t ≠ Option.none) : ∃ session, e = .opened t session := by
  cases step with
  | @opened t' session =>
    by_cases ht : t = t'
    · exact ⟨session, by rw [ht]⟩
    · rw [Function.update_of_ne ht] at h'
      exact absurd h h'
  | @authenticated t' object _ _ _ live | @packaged t' object _ _ _ _ live =>
    have ht : t ≠ t' := by
      rintro rfl
      rw [h] at live
      cases live
    rw [Function.update_of_ne ht] at h'
    exact absurd h h'
  | inspected => exact absurd h h'
  | lost => exact absurd rfl h'

/-- What ends an object leaves none. -/
theorem ObjectStep.gone (step : ObjectStep sells os e os') (h : e.Ends t) :
    os' t = Option.none := by
  rcases h with rfl | ⟨session, upp, session', rfl⟩
  · cases step with
    | lost => rfl
  · cases step with
    | packaged => rw [Function.update_self, if_pos rfl]

/-- The object of `t` is there, and last accepted an eUICC for the Profile with this metadata. -/
def Booked (t metadata : Bytes) (os : Objects σ) : Prop :=
  ∃ object, os t = some object ∧ object.booked = some metadata

/-- An object becomes booked by accepting an eUICC. -/
theorem ObjectStep.books {metadata : Bytes} (step : ObjectStep sells os e os')
    (h : ¬ Booked t metadata os) (h' : Booked t metadata os') :
    os t ≠ Option.none ∧ ∃ session session', e = .authenticated t session metadata session' true := by
  obtain ⟨object', hlive', hbooked'⟩ := h'
  cases step with
  | @opened t' session =>
    -- a call on another object leaves this one as it is
    by_cases ht : t = t'
    · rw [ht, Function.update_self] at hlive'
      obtain rfl := Option.some.inj hlive'
      cases hbooked'
    · rw [Function.update_of_ne ht] at hlive'
      exact absurd ⟨object', hlive', hbooked'⟩ h
  | @authenticated t' object metadata' session' accepted live =>
    by_cases ht : t = t'
    · subst ht
      rw [Function.update_self] at hlive'
      obtain rfl := Option.some.inj hlive'
      cases accepted with
      | true =>
        obtain rfl : metadata' = metadata := by simpa using hbooked'
        exact ⟨by simp [live], object.session, session', rfl⟩
      -- a refused eUICC changes the session and not what it is booked for
      | false => exact absurd ⟨object, live, by simpa using hbooked'⟩ h
    · rw [Function.update_of_ne ht] at hlive'
      exact absurd ⟨object', hlive', hbooked'⟩ h
  | inspected => exact absurd ⟨object', hlive', hbooked'⟩ h
  | @packaged t' object _ _ session' built live =>
    by_cases ht : t = t'
    · subst ht
      rw [Function.update_self] at hlive'
      cases built with
      | true => cases hlive'
      | false =>
        obtain rfl := Option.some.inj (show some _ = some object' from hlive')
        exact absurd ⟨object, live, hbooked'⟩ h
    · rw [Function.update_of_ne ht] at hlive'
      exact absurd ⟨object', hlive', hbooked'⟩ h
  | lost => cases hlive'

/-- While it stays booked it is not opened again, nor accepts an eUICC for another Profile. -/
theorem ObjectStep.stays_booked {metadata : Bytes} (step : ObjectStep sells os e os')
    (h' : Booked t metadata os') :
    (∀ session, e ≠ .opened t session)
      ∧ ∀ session metadata' session', e = .authenticated t session metadata' session' true →
        metadata' = metadata := by
  obtain ⟨object', hlive', hbooked'⟩ := h'
  constructor
  · rintro session rfl
    cases step with
    | opened =>
      rw [Function.update_self] at hlive'
      obtain rfl := Option.some.inj hlive'
      cases hbooked'
  · rintro session metadata' session' rfl
    cases step with
    | authenticated =>
      rw [Function.update_self] at hlive'
      obtain rfl := Option.some.inj hlive'
      simpa using hbooked'

/-! ## Whole runs -/

/-- What is behind a package: `pre` opens the object of `t`, which then accepts an eUICC for the
Profile with this metadata. From its opening on nothing ends it, and from its acceptance on it is
neither opened again nor accepts one for another Profile. -/
def Earned (pre : List (ObjectEvent σ)) (t metadata : Bytes) : Prop :=
  ∃ before opened between session session' after,
    pre = before ++ .opened t opened :: (between ++ .authenticated t session metadata session' true
        :: after)
      ∧ (∀ e ∈ between ++ after, ¬ e.Ends t)
      ∧ (∀ e ∈ after, (∀ opened, e ≠ .opened t opened)
        ∧ ∀ session metadata' session', e = .authenticated t session metadata' session' true →
          metadata' = metadata)

/-- **A booked object has been opened and has accepted an eUICC**, and nothing has happened to it
since that would undo either. The acceptance is the last step that booked it, and the opening the
last that made it before that. -/
theorem earned_of_booked {g : List (Step (Objects σ) (ObjectEvent σ))} {metadata : Bytes}
    (run : Run (ObjectStep sells) Objects.none g os) (h : Booked t metadata os) :
    Earned (g.map Step.label) t metadata := by
  have hstart : ¬ Booked t metadata (Objects.none : Objects σ) := by
    rintro ⟨object, hlive, _⟩
    cases hlive
  -- `a` is where it became booked for the last time, `x` where it came to be before that
  obtain ⟨before, a, after, rfl, ha, ha', hsince⟩ := run.enters hstart h
  obtain ⟨hbefore, stepa, hafter⟩ := run.split
  obtain ⟨hlive, session, session', hlabel⟩ := stepa.books ha ha'
  obtain ⟨first, x, between, rfl, hx, hx', hthere⟩ :=
    hbefore.enters (P := fun os => os t ≠ Option.none) (by simp [Objects.none]) hlive
  obtain ⟨_, stepx, hbetween⟩ := hbefore.split
  obtain ⟨opened, hopened⟩ := stepx.appears (by simpa using hx) hx'
  refine ⟨first.map Step.label, opened, between.map Step.label, session, session',
    after.map Step.label, ?_, ?_, ?_⟩
  · simp [hopened, hlabel]
  · intro e he hends
    -- before the acceptance the object is there after every step, and after it the object is
    -- booked; what ends an object leaves neither
    rcases List.mem_append.mp he with he | he
    · obtain ⟨z, hz, rfl⟩ := List.mem_map.mp he
      exact (hthere z hz).2 ((hbetween.of_mem hz).2.gone hends)
    · obtain ⟨z, hz, rfl⟩ := List.mem_map.mp he
      obtain ⟨object, hobject, _⟩ := (hsince z hz).2
      rw [(hafter.of_mem hz).2.gone hends] at hobject
      cases hobject
  · intro e he
    obtain ⟨z, hz, rfl⟩ := List.mem_map.mp he
    exact (hafter.of_mem hz).2.stays_booked (hsince z hz).2

/-- **A package is earned**, and of a Profile that was sold with the metadata it was earned for. -/
theorem packaged_of_run {g : List (Step (Objects σ) (ObjectEvent σ))}
    (run : Run (ObjectStep sells) Objects.none g os) {pre post : List (ObjectEvent σ)}
    {session session' : σ} {upp : Bytes} {built : Bool}
    (hg : g.map Step.label = pre ++ .packaged t session upp session' built :: post) :
    ∃ metadata, sells metadata upp ∧ Earned pre t metadata := by
  obtain ⟨g₁, rest, rfl, rfl, hrest⟩ := List.map_eq_append_iff.mp hg
  obtain ⟨y, g₂, rfl, hy, rfl⟩ := List.map_eq_cons_iff.mp hrest
  obtain ⟨hbefore, step, _⟩ := run.split
  rw [hy] at step
  generalize y.post = after at step
  cases step with
  | @packaged _ object metadata _ _ _ live booked sold =>
    exact ⟨metadata, sold, earned_of_booked hbefore ⟨object, live, booked⟩⟩

end Smdp
