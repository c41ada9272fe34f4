import Smdp.Laws.OneDownload

/-!
# Smdp — how long a session lives

The age of a session is looked at in one place: when a session is inserted, those that have
reached `MAX_AGE` are swept. A look-up does not ask for it. So a session that is neither used up
nor opened again is found until the first session that is opened `MAX_AGE` after it
(`found_until_swept`): never too early, and as late as the next client comes.

A request that names a session may be turned away before it looks: `authenticate_client` lists
the orders first, and goes on to the session table only with exactly one of them on offer.
-/

namespace Smdp

open Interaction

variable {σ : Type} {config : ServerConfig} {s s' : AppState σ} {x : Event σ} {t : Bytes}
  {b : Instant}

/-! ## Timed runs -/

/-- A step, and the time it is begun at. -/
abbrev TimedStep (σ : Type) := Instant × Step (AppState σ) (Event σ)

/-- What a step reads off the clock. `Sessions::insert` reads it twice. -/
def readings (x : TimedStep σ) : List Instant :=
  match x.2.label.command with
  | .initiateAuthentication _ => [x.1, x.2.label.input.sweptAt, x.2.label.input.born]
  | _ => [x.1]

/-- A run of the server along which the clock never goes back. -/
structure TimedRun (config : ServerConfig) (h : List (TimedStep σ)) (s : AppState σ) : Prop where
  run : ServerRun config (h.map Prod.snd) s
  clock : (h.flatMap readings).Pairwise (· ≤ ·)

/-- The request looks `t` up in the session table. -/
def LooksUp (x : Event σ) (t : Bytes) : Prop := ∃ live, ⟨.getSession t, live⟩ ∈ x.calls

/-- The request looks `t` up, and finds an entry. -/
def Finds (x : Event σ) (t : Bytes) : Prop := ∃ e, ⟨.getSession t, some e⟩ ∈ x.calls

/-- `t` has an entry that was born at `b`. -/
def BornAt (s : AppState σ) (t : Bytes) (b : Instant) : Prop :=
  ∃ e, s.sessions.get t = some e ∧ e.born = b

/-! ## One step -/

/-- An `initiate_authentication` opens one session, and inserts it, or leaves everything as it
was. -/
theorem serving_opens (step : Serving config s x s') {req : InitiateAuthenticationRequest}
    (command : x.command = .initiateAuthentication req) :
    (s' = s ∧ ∀ t, ¬ Opens x t)
      ∨ ∃ t session, (∀ t', Opens x t' ↔ t' = t)
        ∧ s'.sessions = s.sessions.insert t session x.input.sweptAt x.input.born := by
  cases serving_cases step with
  | @initiateAuthentication req' r command' answer exit =>
    cases exit with
    | turnedAway failed =>
      refine .inl ⟨rfl, ?_⟩
      rintro t ⟨_, r', _, _, answer', succeeded, _⟩
      rw [answer] at answer'
      cases answer'
      exact Response.not_succeeded_of_failed failed succeeded
    | @opened b _ session succeeded drawn =>
      refine .inr ⟨_, session, ?_, rfl⟩
      intro t'
      constructor
      · rintro ⟨_, r', b', _, answer', _, body, rfl⟩
        rw [answer] at answer'
        cases answer'
        cases body
        exact drawn
      · rintro rfl
        exact ⟨req', _, b, command', answer, okJson_initiateAuthentication_succeeded succeeded,
          rfl, drawn⟩
  | authenticateClient command' | getBoundProfilePackage command' | handleNotification command'
  | orderAdd command' | orderReset command' =>
    rw [command] at command'
    cases command'
  | look command' =>
    rw [command] at command'
    rcases command' with h | h <;> cases h

/-- A session that is opened is born at the clock of its insert. -/
theorem serving_opened_bornAt (step : Serving config s x s') (hx : Opens x t) :
    BornAt s' t x.input.born := by
  have hopens := hx
  obtain ⟨req, _, _, command, _⟩ := hx
  rcases serving_opens step command with ⟨_, hnone⟩ | ⟨t', session, honly, hinsert⟩
  · exact absurd hopens (hnone t)
  · obtain rfl := (honly t).mp hopens
    refine ⟨⟨session, none, x.input.born⟩, ?_, rfl⟩
    rw [hinsert, Sessions.get_insert, if_pos rfl]

/-- A look-up was answered from the table as the request found it. -/
theorem looks_of_lookedUp {live : Option (Entry σ)} (h : x.calls.filterMap lookedUp = [(t, live)]) :
    LooksUp x t ∧ (Finds x t ↔ live.isSome) := by
  have hlooked : ∀ live', ⟨.getSession t, live'⟩ ∈ x.calls ↔ live' = live := by
    intro live'
    rw [← mem_filterMap_lookedUp, h]
    simp
  refine ⟨⟨live, (hlooked live).mpr rfl⟩, ?_⟩
  unfold Finds
  simp only [hlooked]
  rw [Option.isSome_iff_exists]
  exact exists_congr fun e => eq_comm

theorem not_looks_of_lookedUp (h : x.calls.filterMap lookedUp = []) :
    ¬ LooksUp x t ∧ ¬ Finds x t := by
  have hnone : ∀ live, ⟨.getSession t, live⟩ ∉ x.calls := by
    intro live hmem
    rw [← mem_filterMap_lookedUp, h] at hmem
    cases hmem
  exact ⟨fun ⟨live, hmem⟩ => hnone live hmem, fun ⟨e, hmem⟩ => hnone (some e) hmem⟩

/-- **A request that names `t` looks it up** unless it is an `authenticate_client` without one
order to offer, and it finds what the table holds. -/
theorem serving_looksUp (step : Serving config s x s') (hx : Names x t) :
    (LooksUp x t ↔ ∀ req, x.command = .authenticateClient req →
        ∃ order, Offers x.input s.store order)
      ∧ (Finds x t ↔ LooksUp x t ∧ (s.sessions.get t).isSome) := by
  obtain ⟨command, input, answer, calls⟩ := x
  unfold Serving Interaction.Serves at step
  rcases hx with ⟨req, hcommand, rfl⟩ | ⟨req, hcommand, rfl⟩ <;> dsimp only at hcommand step <;>
    subst hcommand
  · have hlooked := authenticateClient_lookedUp input s req
    rw [Command.program, Prog.exec_map] at step
    cases step
    rcases hlooked with ⟨hoffers, hlooked⟩ | ⟨hnone, hlooked⟩
    · obtain ⟨hlooks, hfinds⟩ := looks_of_lookedUp
        (x := ⟨.authenticateClient req, input, _, _⟩) hlooked
      exact ⟨iff_of_true hlooks fun _ _ => hoffers, by rw [hfinds, and_iff_right hlooks]⟩
    · -- turned away with no order, or too many, before the table is looked at
      obtain ⟨hlooks, hfinds⟩ := not_looks_of_lookedUp (t := req.transactionId)
        (x := ⟨.authenticateClient req, input, _, _⟩) hlooked
      refine ⟨iff_of_false hlooks ?_, iff_of_false hfinds fun h => hlooks h.1⟩
      intro hoffers
      obtain ⟨order, ho⟩ := hoffers req rfl
      exact hnone order ho
  · have hlooked := getBoundProfilePackage_lookedUp input s req
    rw [Command.program, Prog.exec_map] at step
    cases step
    obtain ⟨hlooks, hfinds⟩ := looks_of_lookedUp
      (x := ⟨.getBoundProfilePackage req, input, _, _⟩) hlooked
    refine ⟨iff_of_true hlooks ?_, by rw [hfinds, and_iff_right hlooks]⟩
    intro req' hother
    cases hother

/-- **An entry that is not used up or opened again stays unless it is swept for its age.** -/
theorem serving_bornAt (step : Serving config s x s') (hdelivers : ¬ Delivers x t)
    (hopens : ¬ Opens x t) : BornAt s' t b ↔ BornAt s t b ∧ ¬ Sweeps x b := by
  by_cases hinitiates : ∃ req, x.command = .initiateAuthentication req
  · obtain ⟨req, command⟩ := hinitiates
    rcases serving_opens step command with ⟨rfl, hnone⟩ | ⟨t', session, honly, hinsert⟩
    · have hyoung : ¬ Sweeps x b := fun ⟨⟨t', ht'⟩, _⟩ => hnone t' ht'
      exact (and_iff_left hyoung).symm
    · have hother : t ≠ t' := fun h => hopens ((honly t).mpr h)
      have hsweeps : Sweeps x b ↔ maxAge ≤ x.input.sweptAt.durationSince b :=
        and_iff_right ⟨t', (honly t').mpr rfl⟩
      -- another session is opened: the sweep decides by the age of this one
      unfold BornAt
      rw [hsweeps, hinsert, Sessions.get_insert, if_neg hother, Nat.not_le]
      cases s.sessions.get t with
      | none => simp
      | some e =>
        rw [Option.filter_some]
        by_cases hyoung : x.input.sweptAt.durationSince e.born < maxAge
        · simp only [hyoung, decide_true, if_true]
          constructor
          · rintro ⟨e', he', rfl⟩
            cases he'
            exact ⟨⟨e, rfl, rfl⟩, hyoung⟩
          · rintro ⟨hborn, _⟩
            exact hborn
        · simp only [hyoung, decide_false, Bool.false_eq_true, if_false]
          refine iff_of_false (by simp) ?_
          rintro ⟨⟨e', he', rfl⟩, hyoung'⟩
          cases he'
          exact hyoung hyoung'
  · have hyoung : ¬ Sweeps x b := by
      rintro ⟨⟨_, req, _, _, command, _⟩, _⟩
      exact hinitiates ⟨req, command⟩
    -- nothing is opened, so nothing is swept
    rw [and_iff_left hyoung]
    unfold BornAt
    cases serving_session step t with
    | kept entry => rw [entry]
    | swept opens => exact absurd opens.choose_spec.command hinitiates
    | opened command => exact absurd ⟨_, command⟩ hinitiates
    | refused _ _ live entry => rw [entry, live]; simp
    | authenticated _ _ _ chosen _ _ _ entry => rw [entry, chosen.live]; simp
    | handedOut command names answer succeeded =>
      exact absurd ⟨_, _, command, names, answer, succeeded⟩ hdelivers

/-! ## Whole runs -/

/-- The clock has not gone back since a session was swept. -/
theorem TimedRun.sweptAt_le {pre mid post : List (TimedStep σ)} {z y : TimedStep σ}
    (run : TimedRun config (pre ++ z :: (mid ++ y :: post)) s) (hz : ∃ t, Opens z.2.label t) :
    z.2.label.input.sweptAt ≤ y.1 := by
  obtain ⟨_, req, _, _, command, _⟩ := hz
  have hreads : z.2.label.input.sweptAt ∈ readings z := by
    unfold readings
    rw [command]
    simp
  have hbegun : y.1 ∈ readings y := by
    unfold readings
    split <;> simp
  have hordered := (List.pairwise_flatMap.mp run.clock).2
  rw [List.pairwise_append] at hordered
  have hlater := (List.pairwise_cons.mp hordered.2.1).1 y (by simp)
  exact hlater _ hreads _ hbegun

/-- **A session is found until the first session opened `MAX_AGE` after it**, if it is neither
used up nor opened again: for `MAX_AGE` in any case. Found, that is, by every request that comes
to look for it: any `get_bound_profile_package`, and an `authenticate_client` with one order to
offer. -/
theorem found_until_swept {pre mid post : List (TimedStep σ)} {x y : TimedStep σ}
    (run : TimedRun config (pre ++ x :: (mid ++ y :: post)) s) (hx : Opens x.2.label t)
    (hmid : ∀ z ∈ mid, ¬ Delivers z.2.label t ∧ ¬ Opens z.2.label t) (hy : Names y.2.label t) :
    (Finds y.2.label t
        ↔ LooksUp y.2.label t ∧ ∀ z ∈ mid, ¬ Sweeps z.2.label x.2.label.input.born)
      ∧ (y.1.durationSince x.2.label.input.born < maxAge →
          (Finds y.2.label t ↔ LooksUp y.2.label t))
      ∧ (LooksUp y.2.label t ↔ ∀ req, y.2.label.command = .authenticateClient req →
          ∃ order, Offers y.2.label.input y.2.pre.store order) := by
  have hrun := run.run
  rw [List.map_append, List.map_cons, List.map_append, List.map_cons] at hrun
  obtain ⟨_, step, hrest⟩ := hrun.split
  obtain ⟨hbetween, hlast, _⟩ := hrest.split
  have hborn : BornAt x.2.post t x.2.label.input.born := serving_opened_bornAt step hx
  have hkept : ∀ b, BornAt y.2.pre t b
      ↔ BornAt x.2.post t b ∧ ∀ z ∈ mid.map Prod.snd, ¬ Sweeps z.label b := by
    intro b
    apply hbetween.kept_iff (P := fun s => BornAt s t b) (Q := fun z => Sweeps z.label b)
    intro z hz hstep
    obtain ⟨z', hz', rfl⟩ := List.mem_map.mp hz
    exact serving_bornAt hstep (hmid z' hz').1 (hmid z' hz').2
  have hlive : (y.2.pre.sessions.get t).isSome
      ↔ ∀ z ∈ mid, ¬ Sweeps z.2.label x.2.label.input.born := by
    have hsame : (y.2.pre.sessions.get t).isSome ↔ BornAt y.2.pre t x.2.label.input.born := by
      rw [Option.isSome_iff_exists]
      constructor
      · rintro ⟨e, he⟩
        have hold : BornAt y.2.pre t e.born := ⟨e, he, rfl⟩
        -- it is the entry that was opened: its age has been kept
        obtain ⟨e', he', hage⟩ := ((hkept e.born).mp hold).1
        obtain ⟨e'', he'', hage'⟩ := hborn
        have hentry : e' = e'' := Option.some.inj (he'.symm.trans he'')
        rw [← hage', ← hentry, hage]
        exact hold
      · rintro ⟨e, he, _⟩
        exact ⟨e, he⟩
    rw [hsame, hkept, and_iff_right hborn, List.forall_mem_map]
  obtain ⟨hlooks, hfinds⟩ := serving_looksUp hlast hy
  rw [hlive] at hfinds
  refine ⟨hfinds, ?_, hlooks⟩
  intro hyoung
  rw [hfinds]
  apply and_iff_left
  -- a sweep that takes it reads the clock before the request does, so it is old by then
  rintro z hz ⟨hopens, hold⟩
  obtain ⟨mid₁, mid₂, rfl⟩ := List.append_of_mem hz
  have hsplit : pre ++ x :: ((mid₁ ++ z :: mid₂) ++ y :: post)
      = (pre ++ x :: mid₁) ++ z :: (mid₂ ++ y :: post) := by simp
  rw [hsplit] at run
  have hlater := run.sweptAt_le hopens
  have hless : z.2.label.input.sweptAt.durationSince x.2.label.input.born
      ≤ y.1.durationSince x.2.label.input.born := Nat.sub_le_sub_right hlater _
  exact absurd hyoung (Nat.not_lt.mpr (Nat.le_trans hold hless))

/-- A Profile is on offer, and session 1 is opened at once. -/
def opened : List (Command × Env Bytes) := [(addProfile 7 "A", .echo 0), (initiate, .echo 1)]

def adding : TimedStep Bytes := (0, echoedNext [] (addProfile 7 "A") (.echo 0))

def opening : TimedStep Bytes := (0, echoedNext [(addProfile 7 "A", .echo 0)] initiate (.echo 1))

/-- At `MAX_AGE`, another client opens session 2. -/
def newcomer : Command × Env Bytes :=
  (initiate, { Env.echo 2 with sweptAt := maxAge, born := maxAge })

/-- Session 1 is asked for at `MAX_AGE`, after `between`. -/
def asking (between : List (Command × Env Bytes)) : TimedStep Bytes :=
  (maxAge, echoedNext (opened ++ between) (authenticate 1 [65]) (.echo 0))

/-- It opens session 1. -/
theorem opens_opening : Opens opening.2.label (List.replicate 16 1) :=
  ⟨_, _, _, rfl, rfl, by decide, rfl, rfl⟩

/-- With the newcomer between them, session 1 is looked up, and not found. -/
theorem found_until_swept_newcomer :
    (Finds (asking [newcomer]).2.label (List.replicate 16 1)
        ↔ LooksUp (asking [newcomer]).2.label (List.replicate 16 1)
          ∧ ∀ z ∈ [(maxAge, echoedNext opened newcomer.1 newcomer.2)],
              ¬ Sweeps z.2.label opening.2.label.input.born)
      ∧ ((asking [newcomer]).1.durationSince opening.2.label.input.born < maxAge →
          (Finds (asking [newcomer]).2.label (List.replicate 16 1)
            ↔ LooksUp (asking [newcomer]).2.label (List.replicate 16 1)))
      ∧ (LooksUp (asking [newcomer]).2.label (List.replicate 16 1)
          ↔ ∀ req, (asking [newcomer]).2.label.command = .authenticateClient req →
              ∃ order, Offers (asking [newcomer]).2.label.input (asking [newcomer]).2.pre.store
                order) := by
  have hrun : TimedRun ⟨"smdp.example.com"⟩
      ([adding] ++ opening :: ([(maxAge, echoedNext opened newcomer.1 newcomer.2)]
        ++ [asking [newcomer]]))
      (echoedState (opened ++ [newcomer, (authenticate 1 [65], .echo 0)])) :=
    ⟨run_echoed (opened ++ [newcomer, (authenticate 1 [65], .echo 0)]), by decide⟩
  refine found_until_swept hrun opens_opening ?_ (.inl ⟨_, rfl, rfl⟩)
  intro z hz
  obtain rfl := List.mem_singleton.mp hz
  constructor
  · rintro ⟨_, _, command, _⟩
    cases command
  · rintro ⟨_, r, b, _, answer, _, body, drawn⟩
    cases answer
    cases body
    revert drawn
    decide

/-- Without the newcomer it is found, at the same time; the age decides nothing, also for a
request that does come to look. -/
theorem found_too_late :
    ¬ ∀ (config : ServerConfig) (pre mid post : List (TimedStep Bytes)) (x y : TimedStep Bytes)
        (s : AppState Bytes) (t : Bytes),
        TimedRun config (pre ++ x :: (mid ++ y :: post)) s → Opens x.2.label t →
        (∀ z ∈ mid, ¬ Delivers z.2.label t ∧ ¬ Opens z.2.label t) → Names y.2.label t →
        LooksUp y.2.label t →
        (Finds y.2.label t ↔ y.1.durationSince x.2.label.input.born < maxAge) := by
  intro hall
  have hrun : TimedRun ⟨"smdp.example.com"⟩ ([adding] ++ opening :: ([] ++ [asking []]))
      (echoedState (opened ++ [(authenticate 1 [65], Env.echo 0)])) :=
    ⟨run_echoed (opened ++ [(authenticate 1 [65], Env.echo 0)]), by decide⟩
  have hnames : Names (asking []).2.label (List.replicate 16 1) := .inl ⟨_, rfl, rfl⟩
  have hfound : Finds (asking []).2.label (List.replicate 16 1) :=
    ⟨⟨[], none, 0⟩, .tail _ (.tail _ (.head _))⟩
  have hlooks : LooksUp (asking []).2.label (List.replicate 16 1) :=
    ⟨_, hfound.choose_spec⟩
  have hlaw := hall _ [adding] [] [] _ _ _ _ hrun opens_opening (by simp) hnames hlooks
  exact absurd (hlaw.mp hfound) (by decide)

end Smdp
