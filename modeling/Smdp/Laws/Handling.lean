import Smdp.Laws.Interleaving
import Smdp.Server.Objects
import Smdp.Server.Section

/-!
# Smdp — a session is handled as one object

A session object is not for two threads at once, and the C library changes it in place. However
requests are interleaved and wherever the process ends, the calls made on behalf of one
transactionId are calls on one object, each finding it as the one before left it
(`sessions_are_objects`). So a package is the one package of its session, and of the Profile whose
metadata the library last accepted on it (`package_earned`).
-/

namespace Smdp

open Interaction Rowid

variable {σ : Type} {config : ServerConfig}

/-! ## What a step does to an object -/

/-- The call on an object that a call of a handler is, if it is one. A library call does not name
its transactionId, so it is that of the request. -/
def callEvent (c : Command) : Call (ServerSig σ) → Option (ObjectEvent σ)
  | ⟨.insertSession t session, _⟩ => some (.opened t session)
  | ⟨.rsp (.dpAuthenticateClient session _ metadata), r⟩ =>
    some (.authenticated (c.names.getD []) session metadata r.1 r.2.isOk)
  | ⟨.rsp (.dpSessionEid session), _⟩ => some (.inspected (c.names.getD []) session)
  | ⟨.rsp (.dpSessionEuiccCert session), _⟩ => some (.inspected (c.names.getD []) session)
  | ⟨.rsp (.dpGetBoundProfilePackage session _ upp _), r⟩ =>
    some (.packaged (c.names.getD []) session upp r.1 r.2.isOk)
  | _ => none

/-- And of a history: starting a request is no call on an object, and a crash ends them all. -/
def objectEvent : ServerLifeEvent σ → Option (ObjectEvent σ)
  | .alive (.called _ c _ call) => callEvent c call
  | .alive (.started _ _) => none
  | .crashed => some .lost

theorem callEvent_of_quiet {c : Command} {op : ServerOp σ} (h : op.Quiet)
    (answer : (ServerSig σ).Ret op) : callEvent c ⟨op, answer⟩ = none := by
  cases op with
  | rsp call => cases call <;> first | exact h.elim | rfl
  | _ => first | exact h.elim | rfl

/-! ## The table and the objects -/

/-- An entry is what the table holds of an object; the order it names was booked. -/
structure Holds (st : SqliteStore) (e : Entry σ) (object : SessionObject σ) : Prop where
  session : object.session = e.session
  booked : ∀ i, e.orderId = some i →
    ∃ r, st.orders.row? i = some r ∧ object.booked = some r.metadata

/-- What the table holds for `t` is the object of `t`. -/
def Current (objects : Objects σ) (s : AppState σ) (t : Bytes) : Prop :=
  ∀ e, s.sessions.get t = some e → ∃ object, objects t = some object ∧ Holds s.store e object

/-- The table is current, but for the entry that a section is at work on. -/
def Tracks (objects : Objects σ) (s : AppState σ) : Section σ → Prop
  | .outside | .inside => ∀ t, Current objects s t
  | .found t e => (∀ t, Current objects s t) ∧ s.sessions.get t = some e
  | .refused t e =>
    (∀ t', t' ≠ t → Current objects s t') ∧ ∃ object, objects t = some object ∧ Holds s.store e object
  | .accepted t e metadata =>
    (∀ t', t' ≠ t → Current objects s t') ∧ objects t = some ⟨e.session, some metadata⟩
  | .spent t => ∀ t', t' ≠ t → Current objects s t'

variable {objects : Objects σ} {s s' : AppState σ} {φ : Section σ} {env : Env σ} {c : Command}
  {made : List (Call (ServerSig σ))} {sells : Bytes → Bytes → Prop}

theorem Holds.store_after {st : SqliteStore} {e : Entry σ} {object : SessionObject σ}
    (h : Holds st e object) (faults : StoreFaults) (call : StoreCall) :
    Holds (st.after faults call) e object := by
  refine ⟨h.session, ?_⟩
  intro i hi
  obtain ⟨r, hr, hbooked⟩ := h.booked i hi
  obtain ⟨r', hr', hsame⟩ := SqliteStore.sameProfile_after faults call hr
  exact ⟨r', hr', by rw [hbooked, hsame.metadata]⟩

theorem Tracks.store_after (h : Tracks objects s φ) (faults : StoreFaults) (call : StoreCall) :
    Tracks objects { s with store := s.store.after faults call } φ := by
  have hcurrent : ∀ t, Current objects s t →
      Current objects { s with store := s.store.after faults call } t := by
    intro t ht e he
    obtain ⟨object, hobject, hholds⟩ := ht e he
    exact ⟨object, hobject, hholds.store_after faults call⟩
  cases φ with
  | outside | inside => exact fun t => hcurrent t (h t)
  | found t e => exact ⟨fun t => hcurrent t (h.1 t), h.2⟩
  | refused t e =>
    obtain ⟨object, hobject, hholds⟩ := h.2
    exact ⟨fun t' ht' => hcurrent t' (h.1 t' ht'), object, hobject,
      hholds.store_after faults call⟩
  | accepted t e metadata => exact ⟨fun t' ht' => hcurrent t' (h.1 t' ht'), h.2⟩
  | spent t => exact fun t' ht' => hcurrent t' (h t' ht')

/-- What has nothing to do with sessions leaves the table as current as it was. -/
theorem Tracks.quiet (h : Tracks objects s φ) {op : ServerOp σ} (hop : op.Quiet) (env : Env σ) :
    Tracks objects (AppState.perform env op s).2 φ := by
  cases op with
  | store call => exact h.store_after env.faults call
  | lock | unlock | insertSession | getSession | putSession | removeSession => exact hop.elim
  | rsp | transactionId | serverChallenge | otskDp | random => exact h

/-- A call on another object leaves this one current. -/
theorem Current.of_objects_ne {t t' : Bytes} {object : Option (SessionObject σ)}
    (h : Current objects s t') (ht : t' ≠ t) :
    Current (Function.update objects t object) s t' := by
  intro e he
  rw [Function.update_of_ne ht]
  exact h e he

/-! ## One call in a section -/

/-- A session that is opened is a new object under its key; whichever the sweep left keep theirs.
-/
theorem Tracks.insertSession (h : ∀ t, Current objects s t) (env : Env σ) (t : Bytes)
    (session : σ) :
    Tracks (Function.update objects t (some ⟨session, none⟩))
      (AppState.perform env (.insertSession t session) s).2 .inside := by
  intro t' e he
  have hget : (s.sessions.insert t session env.sweptAt env.born).get t' = some e := he
  rw [Sessions.get_insert] at hget
  split at hget
  · rename_i ht
    obtain rfl := Option.some.inj hget
    rw [ht, Function.update_self]
    exact ⟨_, rfl, rfl, by simp⟩
  · -- another entry survived the sweep
    rename_i ht
    have hlive : s.sessions.get t' = some e := (Option.filter_eq_some_iff.mp hget).1
    exact (h t').of_objects_ne ht e hlive

/-- The library's answer about a session that was found. -/
theorem Tracks.authenticate {t : Bytes} {e : Entry σ} (h : Tracks objects s (.found t e))
    (metadata : Bytes) (session' : σ) (accepted : Bool) :
    ∃ object, objects t = some object ∧ object.session = e.session
      ∧ Tracks (Function.update objects t
          (some ⟨session', if accepted then some metadata else object.booked⟩)) s
          (Section.asked (.found t e) session' (fun t e => .accepted t e metadata) accepted) := by
  obtain ⟨hcurrent, hlive⟩ := h
  obtain ⟨object, hobject, hholds⟩ := hcurrent t e hlive
  refine ⟨object, hobject, hholds.session, ?_⟩
  cases accepted with
  -- accepted: until it is written back the table is behind, and only the thread in the section
  -- could tell
  | true =>
    refine ⟨fun t' ht' => (hcurrent t').of_objects_ne ht', ?_⟩
    rw [Function.update_self]
    rfl
  | false =>
    refine ⟨fun t' ht' => (hcurrent t').of_objects_ne ht', ⟨session', object.booked⟩, ?_, ?_⟩
    · rw [Function.update_self]
      rfl
    · exact ⟨rfl, hholds.booked⟩

/-- The library is asked for a package on the object as it stands, booked for the Profile whose
UPP it is handed. Built, it is gone; refused, it is changed and still booked. -/
theorem Tracks.package {t : Bytes} {e : Entry σ} (h : Tracks objects s (.found t e))
    {o : Order} (hrow : ∃ r, s.store.orders.row? o.id = some r ∧ o.toRow.SameProfile r)
    (horder : e.orderId = some o.id)
    (hsells : ∀ i r, s.store.orders.row? i = some r → sells r.metadata r.upp)
    (session' : σ) (built : Bool) :
    ∃ object metadata, objects t = some object ∧ object.session = e.session
      ∧ object.booked = some metadata ∧ sells metadata o.upp
      ∧ Tracks (Function.update objects t (if built then none else some ⟨session', object.booked⟩))
          s (Section.asked (.found t e) session' (fun t _ => .spent t) built) := by
  obtain ⟨hcurrent, hlive⟩ := h
  obtain ⟨object, hobject, hholds⟩ := hcurrent t e hlive
  obtain ⟨r, hr, hsame⟩ := hrow
  -- the order that was booked is the one that was listed
  obtain ⟨r', hr', hbooked⟩ := hholds.booked o.id horder
  obtain rfl : r = r' := Option.some.inj (hr.symm.trans hr')
  refine ⟨object, r.metadata, hobject, hholds.session, hbooked, ?_, ?_⟩
  · rw [show o.upp = r.upp from hsame.upp.symm]
    exact hsells o.id r hr
  · cases built with
    | true => exact fun t' ht' => (hcurrent t').of_objects_ne ht'
    | false =>
      refine ⟨fun t' ht' => (hcurrent t').of_objects_ne ht', ⟨session', object.booked⟩, ?_, ?_⟩
      · rw [Function.update_self]
        rfl
      · exact ⟨rfl, hholds.booked⟩

/-- Writing the entry back makes the table current again. -/
theorem Tracks.putSession {t : Bytes} {e : Entry σ}
    (hothers : ∀ t', t' ≠ t → Current objects s t')
    (hobject : ∃ object, objects t = some object ∧ Holds s.store e object) :
    Tracks objects { s with sessions := s.sessions.put t e } .inside := by
  intro t' e' he'
  have hget : (s.sessions.put t e).get t' = some e' := he'
  rw [Sessions.get_put] at hget
  split at hget
  · rename_i ht
    obtain rfl := Option.some.inj hget
    rw [ht]
    exact hobject
  · rename_i ht
    exact hothers t' ht e' hget

/-- Taking the entry out makes the table current again, where the object is gone. -/
theorem Tracks.removeSession {t : Bytes} (hothers : ∀ t', t' ≠ t → Current objects s t') :
    Tracks objects { s with sessions := s.sessions.remove t } .inside := by
  intro t' e' he'
  have hget : (s.sessions.remove t).get t' = some e' := he'
  rw [Sessions.get_remove] at hget
  split at hget
  · cases hget
  · rename_i ht
    exact hothers t' ht e' hget

/-- **A call that a section allows is a call on an object**, and keeps the table current. -/
theorem Tracks.step (h : Tracks objects s φ) {op : ServerOp σ}
    (hop : op.InSection c φ made)
    (hlisted : ∀ o, Listed made o →
      ∃ r, s.store.orders.row? o.id = some r ∧ o.toRow.SameProfile r)
    (hsells : ∀ i r, s.store.orders.row? i = some r → sells r.metadata r.upp) (env : Env σ) :
    ∃ objects', Follows (ObjectStep sells) (callEvent c) objects
        ⟨op, (AppState.perform env op s).1⟩ objects'
      ∧ Tracks objects' (AppState.perform env op s).2
          (φ.next ⟨op, (AppState.perform env op s).1⟩) := by
  -- what is left after this are the calls on the mutex, the table and a session
  by_cases hquiet : op.Quiet
  · rw [hquiet.next]
    exact ⟨objects, .hides (callEvent_of_quiet hquiet _), h.quiet hquiet env⟩
  · cases op with
    | lock =>
      obtain rfl : φ = .outside := hop
      exact ⟨objects, .hides rfl, h⟩
    | unlock =>
      refine ⟨objects, .hides rfl, ?_⟩
      -- the guard is dropped with nothing written, or after the write: the table is current in
      -- both
      rcases hop with rfl | ⟨t, e, rfl⟩
      · exact h
      · exact h.1
    | insertSession t session =>
      obtain rfl : φ = .inside := hop
      exact ⟨_, .shows rfl .opened, .insertSession h env t session⟩
    | getSession t =>
      obtain ⟨rfl, _⟩ := hop
      refine ⟨objects, .hides rfl, ?_⟩
      show Tracks objects s (Section.looked .inside t (s.sessions.get t))
      cases hlive : s.sessions.get t with
      | none => exact h
      | some e => exact ⟨h, hlive⟩
    | putSession t e =>
      refine ⟨objects, .hides rfl, ?_⟩
      rcases hop with rfl | ⟨e₀, o, ho, rfl, rfl⟩
      · exact .putSession h.1 h.2
      · -- the entry now names the order that was booked
        obtain ⟨r, hr, hsame⟩ := hlisted o ho
        refine .putSession h.1 ⟨_, h.2, rfl, ?_⟩
        rintro i hi
        obtain rfl := Option.some.inj hi
        exact ⟨r, hr, by rw [show o.metadata = r.metadata from hsame.metadata.symm]⟩
    | removeSession t =>
      obtain rfl : φ = .spent t := hop
      exact ⟨objects, .hides rfl, .removeSession h⟩
    | rsp call =>
      cases call with
      | dpAuthenticateClient session authServerResp metadata =>
        obtain ⟨t, e, rfl, hnames, rfl⟩ := hop
        obtain ⟨object, hobject, hsession, htracks⟩ := h.authenticate metadata
          (env.library (.dpAuthenticateClient e.session authServerResp metadata)).1
          (env.library (.dpAuthenticateClient e.session authServerResp metadata)).2.isOk
        refine ⟨_, .shows ?_ (.authenticated hobject), htracks⟩
        rw [hsession]
        show some (ObjectEvent.authenticated (c.names.getD []) _ _ _ _) = _
        rw [hnames]
        rfl
      | dpGetBoundProfilePackage session resp upp otskDp =>
        obtain ⟨t, e, o, rfl, hnames, rfl, ho, horder, rfl⟩ := hop
        obtain ⟨object, metadata, hobject, hsession, hbooked, hsold, htracks⟩ :=
          h.package (hlisted o ho) horder hsells
            (env.library (.dpGetBoundProfilePackage e.session resp o.upp otskDp)).1
            (env.library (.dpGetBoundProfilePackage e.session resp o.upp otskDp)).2.isOk
        refine ⟨_, .shows ?_ (.packaged hobject hbooked hsold), htracks⟩
        rw [hsession]
        show some (ObjectEvent.packaged (c.names.getD []) _ _ _ _) = _
        rw [hnames]
        rfl
      -- reading off a session changes nothing, and the session read is the object as it was left
      | dpSessionEid session =>
        obtain ⟨t, e, metadata, rfl, hnames, rfl⟩ := hop
        refine ⟨objects, .shows (congrArg (fun t => some (ObjectEvent.inspected t e.session)) ?_)
          (.inspected h.2), h⟩
        rw [hnames]
        rfl
      | dpSessionEuiccCert session =>
        obtain ⟨t, e, metadata, rfl, hnames, rfl⟩ := hop
        refine ⟨objects, .shows (congrArg (fun t => some (ObjectEvent.inspected t e.session)) ?_)
          (.inspected h.2), h⟩
        rw [hnames]
        rfl
      | _ => exact absurd trivial hquiet
    | _ => exact absurd trivial hquiet

/-! ## Histories -/

/-- A Profile of `st` has this metadata and this UPP. -/
def Sells (st : SqliteStore) (metadata upp : Bytes) : Prop :=
  ∃ i r, st.orders.row? i = some r ∧ r.metadata = metadata ∧ r.upp = upp

variable {p q q' : ServerPool σ} {h : List (Step (ServerPool σ) (ServerLifeEvent σ))}
  {life : List (Step (ServerPool σ) (ServerPoolEvent σ))} {s₁ : AppState σ}

/-- An order that is there now is sold as what it will be found as later: nothing changes its
metadata or its UPP. -/
theorem sells_of_row (run : Run (LifeServing config) q h p) {i : Int} {r : OrderRow}
    (hr : q.shared.store.orders.row? i = some r) : Sells p.shared.store r.metadata r.upp := by
  obtain ⟨r', hr', hsame⟩ := lives_sameProfile run hr
  exact ⟨i, r', hr', hsame.metadata, hsame.upp⟩

/-- **A step of a process is followed by a step of the objects**, or shows none. -/
theorem Tracks.follows (run : Run (PoolServing config) (.idle s₁) life q)
    {l : ServerPoolEvent σ} (step : PoolServing config q l q')
    (hsells : ∀ i r, q.shared.store.orders.row? i = some r → sells r.metadata r.upp)
    (h : Tracks objects q.shared (heldSection life q)) :
    ∃ objects', Follows (ObjectStep sells) objectEvent objects (.alive l) objects'
      ∧ Tracks objects' q'.shared (heldSection (life ++ [⟨q, l, q'⟩]) q') := by
  cases l with
  | started t c =>
    obtain ⟨hshared, hsection⟩ := heldSection_started step
    rw [hshared, hsection]
    exact ⟨objects, .hides rfl, h⟩
  | called t c env call =>
    obtain ⟨hanswer, hshared⟩ := step.answered
    obtain ⟨op, answer⟩ := call
    obtain rfl : answer = (AppState.perform env op q.shared).1 := hanswer
    have hshared' : q'.shared = (AppState.perform env op q.shared).2 := hshared
    -- the call is made in the one section there is, or it is a quiet one of a thread outside it
    rcases heldSection_of_step run step with ⟨hop, hsection⟩ | ⟨hquiet, hsection⟩
    · obtain ⟨objects', hfollows, htracks⟩ :=
        h.step hop (fun o ho => row_of_listed run ho) hsells env
      rw [hsection, hshared']
      cases hfollows with
      | shows visible astep => exact ⟨_, .shows visible astep, htracks⟩
      | hides silent => exact ⟨_, .hides silent, htracks⟩
    · refine ⟨objects, .hides (callEvent_of_quiet hquiet _), ?_⟩
      rw [hsection, hshared']
      exact h.quiet hquiet env

/-- A history is a run of the objects, and the table is current in the end. -/
theorem objects_of_lives (run : LifeRun config h p) :
    ∃ g objects, Run (ObjectStep (Sells p.shared.store)) Objects.none g objects
      ∧ g.map Step.label = shown objectEvent h
      ∧ ∃ life s₁, Run (PoolServing config) (.idle s₁) life p
        ∧ Tracks objects p.shared (heldSection life p) := by
  have hempty : ∀ s : AppState σ, (∀ t, s.sessions.get t = none) →
      ∀ t, Current Objects.none s t := by
    intro s hs t e he
    rw [hs t] at he
    cases he
  have hcrash : ∀ (life : List (Step (ServerPool σ) (ServerPoolEvent σ))) (q : ServerPool σ)
      (objects : Objects σ), Tracks objects q.shared (heldSection life q) →
      ∃ objects', Follows (ObjectStep (Sells p.shared.store)) objectEvent objects .crashed objects'
        ∧ Tracks objects' (AppState.restart q.shared) (heldSection [] (.idle q.shared.restart)) :=
    fun life q objects _ =>
      ⟨Objects.none, .shows rfl .lost, hempty _ q.shared.restart_get⟩
  -- life by life: no objects at the start of each, and a crash loses them
  refine Machine.Run.simulates_lives run ?_ ?_ hcrash
  · exact hempty _ fun t => rfl
  · rintro s₁ life ⟨q, l, q'⟩ after objects hlife step hafter htracks
    refine htracks.follows hlife step ?_
    intro i r hr
    exact sells_of_row (.cons (.alive step) hafter) hr

/-- **Sessions are objects.** Over any history of processes, each serving any number of requests
interleaved in any order, what the library is asked about sessions is a run of the objects: each
call finds its object as the one before left it, and none is made on an object that is gone. And
whenever no request is in a section, what the table holds for a transactionId is its object, with
the order whose metadata that object last accepted an eUICC for. -/
theorem sessions_are_objects (run : LifeRun config h p) :
    ∃ g objects, Run (ObjectStep (Sells p.shared.store)) Objects.none g objects
      ∧ g.map Step.label = shown objectEvent h
      ∧ (p.holder = none → ∀ t e, p.shared.sessions.get t = some e →
        ∃ object, objects t = some object ∧ Holds p.shared.store e object) := by
  obtain ⟨g, objects, hg, hlabels, life, s₁, _, htracks⟩ := objects_of_lives run
  refine ⟨g, objects, hg, hlabels, ?_⟩
  intro hfree
  rw [heldSection_of_free hfree] at htracks
  exact htracks

/-- `B` lists the order, `A` downloads the package, and `B` goes on. -/
theorem sessions_are_objects_lateBinding :
    ∃ g objects, Run (ObjectStep (Sells ((machine ⟨"smdp.example.com"⟩).played
          (.idle AppState.fresh) lateBinding).shared.store)) Objects.none g objects
      ∧ g.map Step.label = shown objectEvent ((scheduled lateBinding).map Step.inLife) := by
  obtain ⟨g, objects, hg, hlabels, _⟩ :=
    sessions_are_objects (Machine.Run.inLife (run_scheduled lateBinding))
  exact ⟨g, objects, hg, hlabels⟩

/-- **A package is earned.** Whenever the library is asked for a package on a session, that session
was opened, and after that accepted an eUICC for a Profile that has the UPP the package is built
from. No package was built on it in between, nor has the process ended; and since it accepted the
eUICC it accepted none for another Profile. -/
theorem package_earned (run : LifeRun config h p) {pre post : List (ObjectEvent σ)} {t upp : Bytes}
    {session session' : σ} {built : Bool}
    (hshown : shown objectEvent h = pre ++ .packaged t session upp session' built :: post) :
    ∃ metadata, Sells p.shared.store metadata upp ∧ Earned pre t metadata := by
  obtain ⟨g, objects, hg, hlabels, _⟩ := objects_of_lives run
  exact packaged_of_run hg (hlabels.trans hshown)

/-- `A`'s package, while `B` is under way. -/
theorem package_earned_lateBinding :
    ∃ metadata, Sells ((machine ⟨"smdp.example.com"⟩).played (.idle AppState.fresh)
        lateBinding).shared.store metadata [7]
      ∧ Earned ((shown objectEvent ((scheduled lateBinding).map Step.inLife)).take 5)
          (List.replicate 16 1) metadata :=
  package_earned (Machine.Run.inLife (run_scheduled lateBinding)) rfl

end Smdp
