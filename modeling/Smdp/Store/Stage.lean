import Smdp.Store.Migrate

/-!
# Smdp — where a migration is

`migrate` runs one statement after the other, each committed on its own, and nothing of it is
kept between them but which statement comes next. A `Stage` is that: `Stage.step` says what the
statement does to the file and which stage follows, and `rest_step` that this is what is left of
the program. A migration that is cut short (`Db.stopped`) and migrations that run at the same
time are followed from stage to stage.
-/

namespace Smdp

open Interaction

/-- The statement a migration runs next. -/
inductive Stage where
  | reading
  | counting
  | creatingOrders
  | creatingIndex
  | creatingNotifications
  | addingVerified
  | stamping
  | done
  deriving DecidableEq

/-- What is left of `migrate`. -/
def Stage.rest : Stage → Prog SqlSig (Except StoreError Unit)
  | .reading => migrate
  | .counting => do
    match ← Prog.ask (F := SqlSig) Sql.countNotifications with
    | .error e => return .error e
    | .ok existing =>
      if existing = 0 then
        stampAfter schemaBatch
      else
        stampAfter (Prog.ask (F := SqlSig) Sql.addVerified)
  | .creatingOrders => stampAfter schemaBatch
  | .creatingIndex => stampAfter do
    match ← Prog.ask (F := SqlSig) Sql.createOrdersByIccid with
    | .error e => return .error e
    | .ok _ => Prog.ask (F := SqlSig) Sql.createNotifications
  | .creatingNotifications => stampAfter (Prog.ask (F := SqlSig) Sql.createNotifications)
  | .addingVerified => stampAfter (Prog.ask (F := SqlSig) Sql.addVerified)
  | .stamping => Prog.ask (F := SqlSig) (Sql.setUserVersion schemaVersion)
  | .done => return .ok ()

/-- The statement of a stage. -/
def Stage.sql : Stage → Option Sql
  | .reading => some .userVersion
  | .counting => some .countNotifications
  | .creatingOrders => some .createOrders
  | .creatingIndex => some .createOrdersByIccid
  | .creatingNotifications => some .createNotifications
  | .addingVerified => some .addVerified
  | .stamping => some (.setUserVersion schemaVersion)
  | .done => none

/-- The stage that follows on `db`, or the error the statement fails with. -/
def Stage.next (stage : Stage) (db : Db) : Except StoreError Stage :=
  match stage with
  | .reading =>
    if db.userVersion = 0 then .ok .counting
    else if db.userVersion > schemaVersion then .error (.schemaTooNew db.userVersion)
    else .ok .stamping
  -- whether the table has the column is not asked
  | .counting => .ok (if db.notifications.isSome then .addingVerified else .creatingOrders)
  | .creatingOrders => .ok .creatingIndex
  | .creatingIndex =>
    if db.orders.isSome then .ok .creatingNotifications
    else .error (.db "no such table: main.orders")
  | .creatingNotifications => .ok .stamping
  | .addingVerified =>
    match db.notifications with
    | none => .error (.db "no such table: notifications")
    | some (.current _) => .error (.db "duplicate column name: verified")
    | some (.unverified _) => .ok .stamping
  | .stamping => .ok .done
  | .done => .ok .done

/-- What is left of `migrate` after a statement. -/
def Stage.restOf : Except StoreError Stage → Prog SqlSig (Except StoreError Unit)
  | .ok stage => stage.rest
  | .error e => .ret (.error e)

variable {db : Db} {stage : Stage}

/-- **The program goes from stage to stage.** -/
theorem Stage.rest_step (stage : Stage) (db : Db) {sql : Sql} (hsql : stage.sql = some sql) :
    ∃ k, stage.rest = .call sql k ∧ k (Db.perform sql db).1 = restOf (stage.next db) := by
  cases stage with
  | reading =>
    cases hsql
    refine ⟨_, rfl, ?_⟩
    show (if db.userVersion = 0 then _ else if db.userVersion > schemaVersion then _ else _)
      = restOf (if db.userVersion = 0 then _ else if db.userVersion > schemaVersion then _ else _)
    -- version 0, a version that is too new, or one that is known
    split
    · rfl
    · split <;> rfl
  | counting =>
    cases hsql
    obtain ⟨v, orders, index, notifications⟩ := db
    -- the table decides which branch of `migrate` is left
    cases notifications with
    | none => exact ⟨_, rfl, rfl⟩
    | some t => exact ⟨_, rfl, rfl⟩
  | creatingIndex =>
    cases hsql
    obtain ⟨v, orders, index, notifications⟩ := db
    cases orders with
    | none => exact ⟨_, rfl, rfl⟩
    | some t => exact ⟨_, rfl, rfl⟩
  | addingVerified =>
    cases hsql
    obtain ⟨v, orders, index, notifications⟩ := db
    match notifications with
    | none => exact ⟨_, rfl, rfl⟩
    | some (.current t) => exact ⟨_, rfl, rfl⟩
    | some (.unverified t) => exact ⟨_, rfl, rfl⟩
  | creatingOrders | creatingNotifications | stamping =>
    cases hsql
    exact ⟨_, rfl, rfl⟩
  | done => cases hsql

/-! ## A stage is known by what is left of the program -/

/-- The statement a program starts with. -/
def firstSql {α : Type} : Prog SqlSig α → Option Sql
  | .ret _ => none
  | .call sql _ => some sql

theorem Stage.firstSql_rest (stage : Stage) : firstSql stage.rest = stage.sql := by
  cases stage <;> rfl

/-- The stage of a statement. -/
def Stage.ofSql : Option Sql → Stage
  | some .userVersion => .reading
  | some .countNotifications => .counting
  | some .createOrders => .creatingOrders
  | some .createOrdersByIccid => .creatingIndex
  | some .createNotifications => .creatingNotifications
  | some .addVerified => .addingVerified
  | some (.setUserVersion _) => .stamping
  | none => .done

theorem Stage.ofSql_sql (stage : Stage) : Stage.ofSql stage.sql = stage := by
  cases stage <;> rfl

theorem Stage.sql_injective : Function.Injective Stage.sql :=
  Function.LeftInverse.injective Stage.ofSql_sql

/-- No stage is a program that has failed. -/
theorem Stage.rest_ne_error (stage : Stage) (e : StoreError) : stage.rest ≠ .ret (.error e) := by
  intro h
  have hsql : stage.sql = none := by
    rw [← stage.firstSql_rest, h]
    rfl
  have hdone : stage = .done := Stage.sql_injective hsql
  rw [hdone] at h
  cases h

/-- What is left of the program, and whether it failed, is enough to tell where it is. A process
is a program and nothing else, so this is what lets one be followed by stages. -/
theorem Stage.restOf_injective : Function.Injective Stage.restOf := by
  intro a b h
  -- both go on, one failed, or both did
  match a, b with
  | .ok s, .ok s' =>
    have hfirst := congrArg firstSql h
    show Except.ok s = .ok s'
    rw [Stage.restOf, Stage.restOf, Stage.firstSql_rest, Stage.firstSql_rest] at hfirst
    rw [Stage.sql_injective hfirst]
  | .ok s, .error e => exact absurd h (s.rest_ne_error e)
  | .error e, .ok s => exact absurd h.symm (s.rest_ne_error e)
  | .error e, .error e' =>
    cases h
    rfl

/-! ## From a stage on -/

/-- What the migration returns from a stage on, and the file it leaves. -/
def Stage.finish (stage : Stage) (db : Db) : Except StoreError Unit × Db :=
  let out := stage.rest.exec Db.perform db
  (out.value, out.state)

/-- Opening is the migration from its first stage on. -/
theorem Db.open_eq (db : Db) : db.open = Stage.reading.finish db := rfl

/-- The statement goes through, and it finishes as the next stage does on the file the statement
left. -/
theorem Stage.finish_next {next : Stage} {sql : Sql} (hsql : stage.sql = some sql)
    (hnext : stage.next db = .ok next) : stage.finish db = next.finish (Db.perform sql db).2 := by
  obtain ⟨k, hrest, hleft⟩ := stage.rest_step db hsql
  unfold Stage.finish
  rw [hrest, Prog.exec_call, hleft, hnext]
  rfl

theorem Stage.finish_failed {sql : Sql} {e : StoreError} (hsql : stage.sql = some sql)
    (hnext : stage.next db = .error e) :
    stage.finish db = (.error e, (Db.perform sql db).2) := by
  obtain ⟨k, hrest, hleft⟩ := stage.rest_step db hsql
  unfold Stage.finish
  rw [hrest, Prog.exec_call, hleft, hnext]
  rfl

/-- The file where the migration is stopped, `n` statements on. -/
def Stage.stopped (stage : Stage) (n : Nat) (db : Db) : Db :=
  stage.rest.execFor Db.perform n db

theorem Stage.stopped_next {next : Stage} {sql : Sql} {n : Nat} (hsql : stage.sql = some sql)
    (hnext : stage.next db = .ok next) :
    stage.stopped (n + 1) db = next.stopped n (Db.perform sql db).2 := by
  obtain ⟨k, hrest, hleft⟩ := stage.rest_step db hsql
  unfold Stage.stopped
  rw [hrest, Prog.execFor_call, hleft, hnext]
  rfl

@[simp] theorem Stage.stopped_done (n : Nat) : Stage.done.stopped n db = db :=
  Prog.execFor_ret n _ _

/-! ## The branches of `migrate` -/

/-- A new file, or one that lacks the notifications table: the schema is run. -/
theorem Db.open_untracked_none (hversion : db.userVersion = 0) (hnone : db.notifications = none) :
    db.open = (.ok (),
      { userVersion := 2, orders := some (db.orders.getD OrderTable.empty), ordersByIccid := true,
        notifications := some (.current Rowid.Table.empty) }) := by
  obtain ⟨v, orders, index, notifications⟩ := db
  cases hversion
  cases hnone
  rfl

/-- The notifications table is there without its column: the column is added. -/
theorem Db.open_untracked_unverified
    {t : Rowid.Table OldNotificationRow OldNotificationRow.id}
    (hversion : db.userVersion = 0) (hold : db.notifications = some (.unverified t)) :
    db.open = (.ok (),
      { db with userVersion := 2, notifications := some (.current (backfillTable t)) }) := by
  obtain ⟨v, orders, index, notifications⟩ := db
  cases hversion
  cases hold
  rfl

/-- It is there with its column: the column cannot be added. -/
theorem Db.open_untracked_current {t : NotificationTable} (hversion : db.userVersion = 0)
    (hcurrent : db.notifications = some (.current t)) :
    db.open = (.error (.db "duplicate column name: verified"), db) := by
  obtain ⟨v, orders, index, notifications⟩ := db
  cases hversion
  cases hcurrent
  rfl

/-- A version that is neither 0 nor too new goes straight to the stamp: neither table is looked
at. -/
theorem Stage.next_tracked (hversion : db.userVersion ≠ 0) (hknown : db.userVersion ≤ 2) :
    Stage.reading.next db = .ok .stamping := by
  have hnew : ¬ db.userVersion > schemaVersion := Int.not_lt.mpr hknown
  show (if _ then _ else if _ then _ else _) = _
  rw [if_neg hversion, if_neg hnew]

/-- From version 1 on there is only the stamp. -/
theorem Db.open_tracked (hversion : db.userVersion ≠ 0) (hknown : db.userVersion ≤ 2) :
    db.open = (.ok (), { db with userVersion := 2 }) := by
  -- one statement after the reading of the version, and it is the stamp
  rw [Db.open_eq, Stage.finish_next rfl (Stage.next_tracked hversion hknown)]
  rfl

/-- A file of a newer server is left as it is. -/
theorem Db.open_tooNew (hnew : 2 < db.userVersion) :
    db.open = (.error (.schemaTooNew db.userVersion), db) := by
  have htracked : db.userVersion ≠ 0 := by omega
  have htoo : db.userVersion > schemaVersion := hnew
  have hnext : Stage.reading.next db = .error (.schemaTooNew db.userVersion) := by
    show (if _ then _ else if _ then _ else _) = _
    rw [if_neg htracked, if_pos htoo]
  rw [Db.open_eq, Stage.finish_failed rfl hnext]
  rfl

end Smdp
