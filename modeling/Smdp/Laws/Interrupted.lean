import Smdp.Store.Opening

/-!
# Smdp — a migration that is cut short, or runs twice at once

Every statement of `migrate` commits on its own, so a migration that stops leaves a file the
next one starts from, and two that run at once work on each other's files. Both are harmless but
in one place: between the statement that gives the notifications table its `verified` column and
the one that stamps the version, the file is at version 0 with the column there, and whoever
looks at it then will add the column again, and fail.

`reopens_iff` is about attempts that stop, `noneFails_of_clean` and `clean_of_noneFails` are
about migrations that interleave.
-/

namespace Smdp

open Interaction

variable {db : Db} {n : Nat} {stops : List Nat}

/-! ## Attempts that stop -/

/-- The file that an attempt to open `db` leaves when it stops after `n` statements. -/
def Db.stopped (db : Db) (n : Nat) : Db := migrate.execFor Db.perform n db

/-- The file that one attempt after the other leaves. -/
def Db.attempted (db : Db) (stops : List Nat) : Db := stops.foldl Db.stopped db

/-- The attempt stops after the statement that gives the notifications their `verified` column,
and before the stamp: after `CREATE TABLE notifications`, the fifth, or after `ALTER TABLE`, the
third. -/
def StopsUnstamped (db : Db) (n : Nat) : Prop :=
  db.userVersion = 0
    ∧ (db.notifications = none ∧ n = 5
      ∨ (∃ t, db.notifications = some (.unverified t)) ∧ n = 3)

/-- The column is there and the version says that it is not. -/
def Stuck (db : Db) : Prop :=
  db.userVersion = 0 ∧ ∃ t, db.notifications = some (.current t)

/-- A file in this state does not open: the column that would be added is there. -/
theorem Stuck.open_ne (h : Stuck db) (db' : Db) : db.open ≠ (.ok (), db') := by
  obtain ⟨hversion, t, ht⟩ := h
  rw [Db.open_untracked_current hversion ht]
  intro hok
  cases hok

/-- An attempt on a stuck file changes nothing. -/
theorem Stuck.stopped (h : Stuck db) (n : Nat) : db.stopped n = db := by
  obtain ⟨v, orders, index, notifications⟩ := db
  obtain ⟨hversion, t, ht⟩ := h
  cases hversion
  cases ht
  match n with
  | 0 | 1 | 2 => rfl
  | n + 3 => exact Prog.execFor_ret n _ _

/-- No number of attempts gets a stuck file out of this state. -/
theorem Stuck.attempted (h : Stuck db) (stops : List Nat) : db.attempted stops = db := by
  induction stops with
  | nil => rfl
  | cons n stops ih =>
    show (db.stopped n).attempted stops = db
    rw [h.stopped n]
    exact ih

theorem stuck_of_stopsUnstamped (h : StopsUnstamped db n) : Stuck (db.stopped n) := by
  obtain ⟨v, orders, index, notifications⟩ := db
  obtain ⟨hversion, hwhere⟩ := h
  cases hversion
  rcases hwhere with ⟨hnone, rfl⟩ | ⟨⟨t, ht⟩, rfl⟩
  · cases hnone
    exact ⟨rfl, _, rfl⟩
  · cases ht
    exact ⟨rfl, _, rfl⟩

/-- What opens is no newer than the program. -/
theorem userVersion_le_of_open (hopen : db.open.1 = .ok ()) : db.userVersion ≤ 2 := by
  by_contra hnew
  rw [Db.open_tooNew (by omega)] at hopen
  cases hopen

/-- **Stopped anywhere else, opening takes up where it was left.** -/
theorem open_stopped (hopen : db.open.1 = .ok ()) (hn : ¬ StopsUnstamped db n) :
    (db.stopped n).open = (.ok (), db.open.2) := by
  by_cases hversion : db.userVersion = 0
  · obtain ⟨v, orders, index, notifications⟩ := db
    cases hversion
    match notifications with
    | none =>
      match n with
      | 0 | 1 | 2 | 3 | 4 => rfl
      | 5 => exact absurd ⟨rfl, .inl ⟨rfl, rfl⟩⟩ hn
      | n + 6 => exact congrArg Db.open (Prog.execFor_ret n _ _)
    | some (.unverified t) =>
      match n with
      | 0 | 1 | 2 => rfl
      | 3 => exact absurd ⟨rfl, .inr ⟨⟨t, rfl⟩, rfl⟩⟩ hn
      | n + 4 => exact congrArg Db.open (Prog.execFor_ret n _ _)
    | some (.current t) => cases hopen
  · have hknown := userVersion_le_of_open hopen
    rw [Db.open_tracked hversion hknown]
    match n with
    | 0 => exact Db.open_tracked hversion hknown
    | n + 1 =>
      show (Stage.reading.stopped (n + 1) db).open = _
      rw [Stage.stopped_next rfl (Stage.next_tracked hversion hknown)]
      match n with
      | 0 => exact Db.open_tracked hversion hknown
      | n + 1 =>
        rw [Stage.stopped_next rfl rfl, Stage.stopped_done]
        rfl

/-- No attempt stops with the column there and the version not stamped. -/
def NeverUnstamped (db : Db) (stops : List Nat) : Prop :=
  ∀ before n after, stops = before ++ n :: after → ¬ StopsUnstamped (db.attempted before) n

/-- **Whatever attempts were stopped, opening does what it would have done, exactly if none of
them stopped in that one place.** Induction on the attempts. -/
theorem reopens_iff (hopen : db.open.1 = .ok ()) (stops : List Nat) :
    (db.attempted stops).open = (.ok (), db.open.2) ↔ NeverUnstamped db stops := by
  induction stops generalizing db with
  | nil =>
    refine iff_of_true ?_ ?_
    · exact Prod.ext hopen rfl
    · intro before n after h
      simp at h
  | cons n stops ih =>
    show ((db.stopped n).attempted stops).open = _ ↔ _
    by_cases hn : StopsUnstamped db n
    · have hstuck := stuck_of_stopsUnstamped hn
      rw [hstuck.attempted]
      exact iff_of_false (hstuck.open_ne _) fun h => h [] n stops rfl hn
    · have hstopped := open_stopped hopen hn
      have hrest : ((db.stopped n).attempted stops).open = (.ok (), (db.stopped n).open.2)
          ↔ NeverUnstamped (db.stopped n) stops := ih (congrArg Prod.fst hstopped)
      rw [congrArg Prod.snd hstopped] at hrest
      rw [hrest]
      constructor
      · intro h before m after hsplit
        match before with
        | [] =>
          cases hsplit
          exact hn
        | k :: before =>
          cases hsplit
          exact h before m after rfl
      · intro h before m after hsplit
        exact h (n :: before) m after (congrArg (List.cons n) hsplit)

/-! ## Migrations that run at once -/

variable {p p' : Opening} {l : PoolEvent SqlSig Unit Unit} {h : List OpeningStep} {t : Nat}

/-- No process has failed. -/
def NoneFails (p : Opening) : Prop := ∀ t e, ¬ At p t (.error e)

/-- Every process has opened the file. -/
def AllReturned (p : Opening) : Prop :=
  ∀ (t : Nat) x, p.threads[t]? = some x → ∃ r, x.rest = .ret r

/-- A process looks whether the notifications table is there. It does so where it has read
version 0. -/
def Counts (x : OpeningStep) : Prop :=
  ∃ t r, x.label = .called t () () ⟨.countNotifications, r⟩

/-- It is there, with its `verified` column. -/
def FindsCurrent (x : OpeningStep) : Prop :=
  Counts x ∧ ∃ table, x.pre.shared.notifications = some (.current table)

/-- It is there, without. -/
def FindsUnverified (x : OpeningStep) : Prop :=
  Counts x ∧ ∃ table, x.pre.shared.notifications = some (.unverified table)

theorem found_snoc {x : OpeningStep} :
    (∃ y ∈ h ++ [x], FindsUnverified y) ↔ (∃ y ∈ h, FindsUnverified y) ∨ FindsUnverified x := by
  simp only [List.mem_append, List.mem_singleton, or_and_right, exists_or, exists_eq_left]

/-- No process finds the column there, and no two find that it is missing. -/
structure CountsClean (h : List OpeningStep) : Prop where
  current : ∀ x ∈ h, ¬ FindsCurrent x
  unverified : h.Pairwise fun x y => ¬ (FindsUnverified x ∧ FindsUnverified y)

theorem countsClean_snoc {x : OpeningStep} : CountsClean (h ++ [x]) ↔
    CountsClean h ∧ ¬ FindsCurrent x ∧ (FindsUnverified x → ∀ y ∈ h, ¬ FindsUnverified y) := by
  constructor
  · intro hclean
    have hpairs := List.pairwise_append.mp hclean.unverified
    refine ⟨⟨fun y hy => hclean.current y (by simp [hy]), hpairs.1⟩, hclean.current x (by simp), ?_⟩
    intro hx y hy hfound
    exact hpairs.2.2 y hy x (by simp) ⟨hfound, hx⟩
  · rintro ⟨hclean, hcurrent, hunverified⟩
    refine ⟨?_, ?_⟩
    · rw [List.forall_mem_append, List.forall_mem_singleton]
      exact ⟨hclean.current, hcurrent⟩
    · refine List.pairwise_append.mpr ⟨hclean.unverified, List.pairwise_singleton _ _, ?_⟩
      intro y hy x' hx' hboth
      obtain rfl := List.mem_singleton.mp hx'
      exact hunverified hboth.2 y hy hboth.1

/-! ### No process fails -/

/-- What a stage has found, of what the other processes leave alone. -/
def Stage.Sound (stage : Stage) (db : Db) : Prop :=
  match stage with
  | .creatingIndex => db.orders.isSome
  | .addingVerified => ∃ t, db.notifications = some (.unverified t)
  | _ => True

/-- No process failed, each stage still has what it found, and one process at most adds the
column: the one that found it missing. -/
structure OpeningInv (h : List OpeningStep) (p : Opening) : Prop where
  version : p.shared.userVersion ≤ 2
  sound : ∀ t next, At p t next → ∃ stage, next = .ok stage ∧ stage.Sound p.shared
  adds : ∀ t, At p t (.ok .addingVerified) → ∃ x ∈ h, FindsUnverified x
  one : ∀ t u, At p t (.ok .addingVerified) → At p u (.ok .addingVerified) → t = u

/-- What a stage has found stays so whatever statement is run, its own or another process's, but for
the missing column, which somebody may add. -/
theorem Stage.Sound.perform {stage : Stage} {sql : Sql} (h : stage.Sound db)
    (hsql : stage = .addingVerified → sql ≠ .addVerified) :
    stage.Sound (Db.perform sql db).2 := by
  cases stage with
  | creatingIndex => exact orders_perform sql h
  | addingVerified =>
    obtain ⟨t, ht⟩ := h
    exact ⟨t, notifications_perform ht fun hadd => absurd hadd (hsql rfl)⟩
  | reading | counting | creatingOrders | creatingNotifications | stamping | done => trivial

/-- A sound stage does not fail, and the next one is sound. -/
theorem Stage.Sound.follows {stage : Stage} {sql : Sql} (h : stage.Sound db)
    (hsql : stage.sql = some sql) (hversion : db.userVersion ≤ 2)
    (hcount : stage = .counting → ¬ ∃ t, db.notifications = some (.current t)) :
    ∃ stage', stage.next db = .ok stage' ∧ stage'.Sound (Db.perform sql db).2 := by
  obtain ⟨v, orders, index, notifications⟩ := db
  cases stage with
  | reading =>
    cases hsql
    by_cases hzero : v = 0
    · exact ⟨.counting, if_pos hzero, trivial⟩
    · exact ⟨.stamping, Stage.next_tracked hzero hversion, trivial⟩
  | counting =>
    cases hsql
    match notifications with
    | none => exact ⟨.creatingOrders, rfl, trivial⟩
    | some (.current t) => exact absurd ⟨t, rfl⟩ (hcount rfl)
    | some (.unverified t) => exact ⟨.addingVerified, rfl, t, rfl⟩
  | creatingOrders =>
    cases hsql
    exact ⟨.creatingIndex, rfl, rfl⟩
  | creatingIndex =>
    cases hsql
    exact ⟨.creatingNotifications, if_pos h, trivial⟩
  | creatingNotifications =>
    cases hsql
    exact ⟨.stamping, rfl, trivial⟩
  | addingVerified =>
    cases hsql
    obtain ⟨t, ht⟩ := h
    cases ht
    exact ⟨.stamping, rfl, trivial⟩
  | stamping =>
    cases hsql
    exact ⟨.done, rfl, trivial⟩
  | done => cases hsql

/-- The column is added by who has counted. -/
theorem Stage.eq_counting_of_next {stage : Stage} (h : stage.next db = .ok .addingVerified) :
    stage = .counting := by
  cases stage with
  | counting => rfl
  | reading =>
    unfold Stage.next at h
    dsimp only at h
    split at h
    · cases h
    · split at h <;> cases h
  | creatingIndex =>
    unfold Stage.next at h
    dsimp only at h
    split at h <;> cases h
  | addingVerified =>
    unfold Stage.next at h
    dsimp only at h
    split at h <;> cases h
  | creatingOrders | creatingNotifications | stamping | done => cases h

/-- A process that is started has found nothing yet. -/
theorem OpeningInv.started (hp : OpeningInv h p) (x : OpeningStep)
    (shared : p'.shared = p.shared)
    (there : ∀ u next, At p' u next ↔ At p u next ∨ u = p.threads.length ∧ next = .ok .reading) :
    OpeningInv (h ++ [x]) p' := by
  have hadding : ∀ u, At p' u (.ok .addingVerified) → At p u (.ok .addingVerified) := by
    intro u hu
    rcases (there u _).mp hu with hold | ⟨_, hnew⟩
    · exact hold
    · cases hnew
  refine ⟨shared ▸ hp.version, ?_, ?_, ?_⟩
  · intro u next hu
    rw [shared]
    rcases (there u next).mp hu with hold | ⟨_, rfl⟩
    · exact hp.sound u next hold
    · exact ⟨.reading, rfl, trivial⟩
  · intro u hu
    exact found_snoc.mpr (.inl (hp.adds u (hadding u hu)))
  · intro u v hu hv
    exact hp.one u v (hadding u hu) (hadding v hv)

section

variable {x : OpeningStep}
variable (others : ∀ u, u ≠ t → ∀ next, At p' u next ↔ At p u next)
variable (hfinds : At p' t (.ok .addingVerified) → FindsUnverified x)

include others hfinds

/-- Who adds the column found it missing before, or is the one that has just found it. -/
theorem OpeningInv.adds_went (hp : OpeningInv h p) {u : Nat} (hu : At p' u (.ok .addingVerified)) :
    ∃ y ∈ h ++ [x], FindsUnverified y := by
  by_cases hut : u = t
  · exact found_snoc.mpr (.inr (hfinds (hut ▸ hu)))
  · exact found_snoc.mpr (.inl (hp.adds u ((others u hut _).mp hu)))

/-- There is one of them, since no two find it missing. -/
theorem OpeningInv.one_went (hp : OpeningInv h p)
    (hunverified : FindsUnverified x → ∀ y ∈ h, ¬ FindsUnverified y) {u v : Nat}
    (hu : At p' u (.ok .addingVerified)) (hv : At p' v (.ok .addingVerified)) : u = v := by
  have halone : ∀ w, w ≠ t → At p' w (.ok .addingVerified) → ¬ At p' t (.ok .addingVerified) := by
    intro w hwt hw ht
    obtain ⟨y, hy, hyfinds⟩ := hp.adds w ((others w hwt _).mp hw)
    exact hunverified (hfinds ht) y hy hyfinds
  by_cases hut : u = t
  · by_cases hvt : v = t
    · rw [hut, hvt]
    · exact absurd (hut ▸ hu) (halone v hvt hv)
  · by_cases hvt : v = t
    · exact absurd (hvt ▸ hv) (halone u hut hu)
    · exact hp.one u v ((others u hut _).mp hu) ((others v hvt _).mp hv)

end

/-- A step of one process keeps the invariant of all of them. -/
theorem OpeningInv.step (hp : OpeningInv h p) (move : OpeningMove p l p')
    (hclean : CountsClean (h ++ [⟨p, l, p'⟩])) : OpeningInv (h ++ [⟨p, l, p'⟩]) p' := by
  obtain ⟨_, hcurrent, hunverified⟩ := countsClean_snoc.mp hclean
  cases move with
  | started label shared length there => exact hp.started _ shared there
  | @went t stage sql at_ hsql label shared length moved others =>
    obtain ⟨_, hstage, hsound⟩ := hp.sound t _ at_
    cases hstage
    have hcounts : stage = .counting → Counts ⟨p, l, p'⟩ := by
      rintro rfl
      cases hsql
      obtain ⟨r, hr⟩ := label
      exact ⟨t, r, hr⟩
    obtain ⟨stage', hnext, hsound'⟩ := hsound.follows hsql hp.version
      fun hcounting htable => hcurrent ⟨hcounts hcounting, htable⟩
    rw [hnext] at moved
    rw [← shared] at hsound'
    -- who is about to add the column has just found it missing
    have hfinds : At p' t (.ok .addingVerified) → FindsUnverified ⟨p, l, p'⟩ := by
      intro hat
      cases (moved _).mp hat
      have hcounting := Stage.eq_counting_of_next hnext
      refine ⟨hcounts hcounting, ?_⟩
      subst hcounting
      cases hsql
      obtain ⟨table, htable⟩ := hsound'
      rw [shared] at htable
      exact ⟨table, htable⟩
    refine ⟨?_, ?_, fun u hu => hp.adds_went others hfinds hu,
      fun u v hu hv => hp.one_went others hfinds hunverified hu hv⟩
    · rw [shared]
      exact userVersion_perform hsql hp.version
    · intro u next hu
      by_cases hut : u = t
      · subst hut
        exact ⟨stage', (moved next).mp hu, hsound'⟩
      · obtain ⟨stageᵤ, rfl, hsoundᵤ⟩ := hp.sound u next ((others u hut next).mp hu)
        refine ⟨stageᵤ, rfl, ?_⟩
        rw [shared]
        apply hsoundᵤ.perform
        rintro rfl rfl
        -- the one that adds the column is not `u`
        have hadder : stage = .addingVerified := Stage.sql_injective hsql
        subst hadder
        exact hut (hp.one u t ((others u hut _).mp hu) at_)

/-- **No process fails if none finds the column there and no two find that it is missing.**
Induction on the run. -/
theorem openingInv_of_run (hversion : db.userVersion ≤ 2)
    (run : Run migrations.PoolStep (.idle db) h p) (hclean : CountsClean h) :
    OpeningInv h p := by
  induction run with
  | nil =>
    have hnobody : ∀ {t next}, ¬ At (.idle db) t next := by
      intro t next hat
      cases hat
    exact ⟨hversion, fun _ _ hat => absurd hat hnobody, fun _ hat => absurd hat hnobody,
      fun _ _ hat => absurd hat hnobody⟩
  | @snoc h p p' l run step ih =>
    have hmove := openingMove_of_step (staged_of_run run) step
    exact (ih (countsClean_snoc.mp hclean).1).step hmove hclean

/-! ### A process that fails -/

/-- Some process failed, or will: the column is there, or another adds it as well. -/
inductive Doomed (p : Opening) : Prop where
  | failed {i : Nat} {e} (failed : At p i (.error e))
  | late {i : Nat} {table} (adds : At p i (.ok .addingVerified))
      (current : p.shared.notifications = some (.current table))
  | twice {i j : Nat} (ne : i ≠ j) (adds : At p i (.ok .addingVerified))
      (adds' : At p j (.ok .addingVerified))

/-- Adding the column makes it current, or fails. -/
theorem next_addingVerified (db : Db) :
    (∃ table, (Db.perform .addVerified db).2.notifications = some (.current table))
      ∨ ∃ e, Stage.addingVerified.next db = .error e := by
  obtain ⟨v, orders, index, notifications⟩ := db
  match notifications with
  | none => exact .inr ⟨_, rfl⟩
  | some (.current t) => exact .inr ⟨_, rfl⟩
  | some (.unverified t) => exact .inl ⟨_, rfl⟩

theorem next_addingVerified_current {table : NotificationTable}
    (h : db.notifications = some (.current table)) :
    ∃ e, Stage.addingVerified.next db = .error e := by
  obtain ⟨v, orders, index, notifications⟩ := db
  cases h
  exact ⟨_, rfl⟩

/-- Once a process has failed, or is bound to, it stays so: nothing another process does takes the
column out again. -/
theorem Doomed.step (hp : Doomed p) (move : OpeningMove p l p') : Doomed p' := by
  cases move with
  | started label shared length there =>
    cases hp with
    | failed failed => exact .failed ((there _ _).mpr (.inl failed))
    | late adds current => exact .late ((there _ _).mpr (.inl adds)) (shared ▸ current)
    | twice ne adds adds' =>
      exact .twice ne ((there _ _).mpr (.inl adds)) ((there _ _).mpr (.inl adds'))
  | @went t stage sql at_ hsql label shared length moved others =>
    -- a process that is about to add the column, and goes on, adds it
    have hadds : At p t (.ok .addingVerified) → stage = .addingVerified ∧ sql = .addVerified := by
      intro hat
      cases at_.unique hat
      cases hsql
      exact ⟨rfl, rfl⟩
    have hfirst : ∀ {u}, u ≠ t → At p t (.ok .addingVerified) → At p u (.ok .addingVerified) →
        Doomed p' := by
      intro u hut ht hu
      obtain ⟨rfl, rfl⟩ := hadds ht
      rcases next_addingVerified p.shared with ⟨table, hcurrent⟩ | ⟨e, he⟩
      · exact .late ((others u hut _).mpr hu) (shared ▸ hcurrent)
      · exact .failed ((moved _).mpr he.symm)
    cases hp with
    | @failed u e failed =>
      have hut : u ≠ t := by
        rintro rfl
        cases failed.unique at_
      exact .failed ((others u hut _).mpr failed)
    | @late u table adds current =>
      by_cases hut : u = t
      · subst hut
        obtain ⟨rfl, rfl⟩ := hadds adds
        obtain ⟨e, he⟩ := next_addingVerified_current current
        exact .failed ((moved _).mpr he.symm)
      · have hkept : p'.shared.notifications = some (.current table) := by
          rw [shared]
          exact notifications_perform current fun _ => ⟨table, rfl⟩
        exact .late ((others u hut _).mpr adds) hkept
    | @twice u v ne adds adds' =>
      by_cases hut : u = t
      · subst hut
        exact hfirst ne.symm adds adds'
      · by_cases hvt : v = t
        · subst hvt
          exact hfirst ne adds' adds
        · exact .twice ne ((others u hut _).mpr adds) ((others v hvt _).mpr adds')

/-- Once a process has found the column missing, the column is there or about to be added. -/
def ColumnTaken (h : List OpeningStep) (p : Opening) : Prop :=
  (∃ x ∈ h, FindsUnverified x) →
    (∃ table, p.shared.notifications = some (.current table))
      ∨ ∃ t, At p t (.ok .addingVerified)

/-- A step that counts nothing keeps what was taken taken. -/
theorem ColumnTaken.step (htaken : ColumnTaken h p) (move : OpeningMove p l p')
    (hcounts : ¬ Counts ⟨p, l, p'⟩) : ColumnTaken (h ++ [⟨p, l, p'⟩]) p' ∨ Doomed p' := by
  by_cases hfound : ∃ x ∈ h, FindsUnverified x
  · rcases htaken hfound with ⟨table, hcurrent⟩ | ⟨u, hu⟩
    · refine .inl fun _ => .inl ⟨table, ?_⟩
      cases move with
      | started _ shared => rw [shared, hcurrent]
      | went _ _ _ shared =>
        rw [shared]
        exact notifications_perform hcurrent fun _ => ⟨table, rfl⟩
    · cases move with
      | started _ _ _ there => exact .inl fun _ => .inr ⟨u, (there u _).mpr (.inl hu)⟩
      | @went t stage sql at_ hsql _ shared _ moved others =>
        by_cases hut : u = t
        · subst hut
          cases at_.unique hu
          cases hsql
          rcases next_addingVerified p.shared with ⟨table, hcurrent⟩ | ⟨e, he⟩
          · exact .inl fun _ => .inl ⟨table, shared ▸ hcurrent⟩
          · exact .inr (.failed ((moved _).mpr he.symm))
        · exact .inl fun _ => .inr ⟨u, (others u hut _).mpr hu⟩
  · refine .inl fun hnow => absurd ?_ hfound
    rcases found_snoc.mp hnow with hbefore | hfinds
    · exact hbefore
    · exact absurd hfinds.1 hcounts

/-- Counting leaves the file alone, and a process that finds the table will add the column. -/
theorem OpeningMove.counts (move : OpeningMove p l p') (hcounts : Counts ⟨p, l, p'⟩) :
    ∃ t, At p t (.ok .counting) ∧ p'.shared = p.shared
      ∧ (p.shared.notifications.isSome → At p' t (.ok .addingVerified))
      ∧ ∀ u, u ≠ t → ∀ next, At p' u next ↔ At p u next := by
  obtain ⟨t', r, hcalled⟩ := hcounts
  cases move with
  | started label => cases label.symm.trans hcalled
  | @went t stage sql at_ hsql label shared length moved others =>
    obtain ⟨r', hlabel⟩ := label
    cases hlabel.symm.trans hcalled
    obtain rfl : stage = .counting := Stage.sql_injective hsql
    refine ⟨_, at_, shared, ?_, others⟩
    intro hsome
    apply (moved _).mpr
    show _ = Except.ok _
    rw [if_pos hsome]

/-- **A run that is not clean is doomed.** Induction on the run: the step that spoils it sends a
process to add a column that is there, or that another process is about to add. -/
theorem countsClean_or_doomed (run : Run migrations.PoolStep (.idle db) h p) :
    CountsClean h ∧ ColumnTaken h p ∨ Doomed p := by
  induction run with
  | nil =>
    refine .inl ⟨⟨by simp, List.Pairwise.nil⟩, ?_⟩
    rintro ⟨x, hx, _⟩
    cases hx
  | @snoc h p p' l run step ih =>
    have move := openingMove_of_step (staged_of_run run) step
    rcases ih with ⟨hclean, htaken⟩ | hdoomed
    · by_cases hcounts : Counts ⟨p, l, p'⟩
      · obtain ⟨t, hat, hshared, hadds, hothers⟩ := move.counts hcounts
        have hother : ∀ {u}, At p u (.ok .addingVerified) → u ≠ t := by
          rintro u hu rfl
          cases hu.unique hat
        match hshape : p.shared.notifications with
        | none =>
          -- the table is not there, so nobody found it
          have hfinds : ∀ shape, p.shared.notifications ≠ some shape := by simp [hshape]
          refine .inl ⟨countsClean_snoc.mpr ⟨hclean, ?_, ?_⟩, ?_⟩
          · rintro ⟨_, table, htable⟩
            exact hfinds _ htable
          · rintro ⟨_, table, htable⟩
            exact absurd htable (hfinds _)
          · intro hnow
            rcases found_snoc.mp hnow with hbefore | ⟨_, table, htable⟩
            · rcases htaken hbefore with ⟨table, htable⟩ | ⟨u, hu⟩
              · exact absurd htable (hfinds _)
              · exact .inr ⟨u, (hothers u (hother hu) _).mpr hu⟩
            · exact absurd htable (hfinds _)
        | some (.current table) =>
          exact .inr (.late (hadds (by simp [hshape])) (hshared ▸ hshape))
        | some (.unverified table) =>
          have hnow := hadds (by simp [hshape])
          by_cases hfound : ∃ x ∈ h, FindsUnverified x
          · rcases htaken hfound with ⟨table', htable'⟩ | ⟨u, hu⟩
            · cases hshape.symm.trans htable'
            · exact .inr (.twice (hother hu) ((hothers u (hother hu) _).mpr hu) hnow)
          · refine .inl ⟨countsClean_snoc.mpr ⟨hclean, ?_, ?_⟩, fun _ => .inr ⟨t, hnow⟩⟩
            · rintro ⟨_, table', htable'⟩
              cases hshape.symm.trans htable'
            · intro _ y hy hy'
              exact hfound ⟨y, hy, hy'⟩
      · have hnext : CountsClean (h ++ [⟨p, l, p'⟩]) := countsClean_snoc.mpr
          ⟨hclean, fun hx => hcounts hx.1, fun hx => absurd hx.1 hcounts⟩
        exact (htaken.step move hcounts).imp_left fun h => ⟨hnext, h⟩
    · exact .inr (hdoomed.step move)

/-! ## What a migration survives -/

theorem noneFails_of_clean (hversion : db.userVersion ≤ 2)
    (run : Run migrations.PoolStep (.idle db) h p) (hclean : CountsClean h) : NoneFails p := by
  intro t e hat
  obtain ⟨stage, hstage, _⟩ := (openingInv_of_run hversion run hclean).sound t _ hat
  cases hstage

theorem clean_of_noneFails (run : Run migrations.PoolStep (.idle db) h p)
    (hreturned : AllReturned p) (hnone : NoneFails p) : CountsClean h := by
  have hadding : ∀ t, ¬ At p t (.ok .addingVerified) := by
    intro t hat
    obtain ⟨r, hr⟩ := hreturned t _ hat
    cases hr
  rcases countsClean_or_doomed run with ⟨hclean, _⟩ | hdoomed
  · exact hclean
  · cases hdoomed with
    | failed failed => exact absurd failed (hnone _ _)
    | late adds => exact absurd adds (hadding _)
    | twice _ adds => exact absurd adds (hadding _)

/-- **Where a migration survives being cut short, and being run at the same time.** Cut short, a
file opens again unless one attempt stopped between the last change to the tables and the stamp.
Run at the same time, no process fails if, of those that looked for the notifications table, none
found the column there and no two found it missing; and where all have returned and none failed, so
it was. -/
theorem migration_survives_iff (db : Db) (hopen : db.open.1 = .ok ()) :
    (∀ stops, (db.attempted stops).open = (.ok (), db.open.2) ↔ NeverUnstamped db stops)
      ∧ ∀ h p, Run migrations.PoolStep (.idle db) h p →
        (CountsClean h → NoneFails p) ∧ (AllReturned p → NoneFails p → CountsClean h) := by
  have hversion := userVersion_le_of_open hopen
  refine ⟨reopens_iff hopen, fun h p run => ⟨noneFails_of_clean hversion run, ?_⟩⟩
  exact clean_of_noneFails run

theorem migration_survives_iff_newFile :
    (∀ stops, (Db.empty.attempted stops).open = (.ok (), Db.empty.open.2)
        ↔ NeverUnstamped Db.empty stops)
      ∧ ∀ h p, Run migrations.PoolStep (.idle Db.empty) h p →
        (CountsClean h → NoneFails p) ∧ (AllReturned p → NoneFails p → CountsClean h) :=
  migration_survives_iff Db.empty rfl

/-- The server and the command line open a new file: both read version 0, one creates the
tables, and the other finds them. -/
def firstStart : List (Machine.Action Unit Unit) :=
  [.start (), .start (), .go 0 (), .go 1 (), .go 0 (), .go 0 (), .go 0 (), .go 0 (), .go 1 (),
   .go 1 ()]

/-- A migration of a new file is stopped before the stamp, and never opens again; and one of two
at once fails. -/
theorem migration_cut_short :
    (¬ ∀ (db : Db) stops, db.open.1 = .ok () → (db.attempted stops).open = (.ok (), db.open.2))
      ∧ ¬ ∀ (db : Db) h p, db.open.1 = .ok () → Run migrations.PoolStep (.idle db) h p →
        NoneFails p := by
  constructor
  · intro hall
    have hopened := congrArg Prod.fst (hall Db.empty [5] rfl)
    cases hopened
  · intro hall
    have hnone := hall Db.empty _ _ rfl (Machine.run_play _ firstStart)
    exact hnone 1 (.db "duplicate column name: verified") rfl

end Smdp
