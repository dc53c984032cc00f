import Casbinex.Adapter.Atomic
import Casbinex.Adapter.Migration
import Casbinex.Program.Restart

/-!
# Starting again

A start-up constructs the adapter, which migrates, and loads the policy.  A database
step that throws ends it, and so does the end of the process; the next start-up finds
what was committed.  The migrator commits one change at most, and it counts more than
eight columns after every change it makes.
-/

namespace Casbinex.Adapter

open Casbinex.Program
open Casbinex.Program.Prog
open Casbinex.Sql

/-- What the construction of an enforcer asks of the adapter: the constructor, then
`LoadPolicy` into the model that casbin has read. -/
def startUp (model : Model) (faults : List Bool) (db : Database) : Outcome :=
  let built := call construct faults model db
  match built.result with
  | .error failure => ⟨.error failure, built.model, built.db, built.faults⟩
  | .ok () => call loadPolicy built.faults built.model built.db

theorem db_of_startUp (model : Model) (faults : List Bool) (db : Database) :
    (startUp model faults db).db = (call construct faults model db).db := by
  unfold startUp
  dsimp only
  split
  · rfl
  · exact db_of_loadPolicy _ _ _

/-! ## The count after a change -/

theorem columnCount_put_of_absent {db : Database} {key : RelName} (named : key.2 = tableName)
    (absent : key ∉ db.relations) (relation : Relation) :
    columnCount (db.put key relation) = columnCount db + relation.columns.length := by
  unfold columnCount ruleTables Database.put
  rw [AList.entries_insert_of_notMem absent, List.filter_cons_of_pos (by simp [named]),
    List.map_cons, List.sum_cons, Nat.add_comm]

theorem columnCount_put_of_table {db : Database} {key : RelName} (named : key.2 = tableName)
    {old : Relation} (stored : db.table key = some old) (relation : Relation) :
    columnCount (db.put key relation) + old.columns.length =
      columnCount db + relation.columns.length := by
  have present : key ∈ db.relations.entries.keys := (db.mem_relations_iff key).mpr ⟨old, stored⟩
  obtain ⟨found, front, back, _, split, erased⟩ := List.exists_of_kerase present
  have same : found = old := by
    have member : (⟨key, found⟩ : Σ _ : RelName, Relation) ∈ db.relations.entries := by
      rw [split]
      exact List.mem_append_right front List.mem_cons_self
    exact Option.some.inj ((AList.mem_lookup_iff.mpr member).symm.trans stored)
  subst same
  unfold columnCount ruleTables Database.put
  rw [AList.entries_insert, erased, split]
  simp [named]
  omega

/-- `CREATE` leaves everything, or the new table has nine columns. -/
theorem columnCount_created {db changed : Database} {rows : List Row}
    (created : db.execText createQuery = .ok (rows, changed)) :
    changed = db ∨ columnCount changed = columnCount db + 9 := by
  simp only [Database.execText, parse_createQuery, Database.exec] at created
  cases home : db.creationSchema plainRef with
  | none =>
      rw [home] at created
      cases created
  | some schema =>
      rw [home] at created
      dsimp only at created
      split at created
      · exact Or.inl (Prod.mk.inj (Except.ok.inj created)).2.symm
      · next absent =>
          right
          rw [← (Prod.mk.inj (Except.ok.inj created)).2]
          exact columnCount_put_of_absent rfl absent _

/-- `ALTER` adds one column to a table that is counted. -/
theorem columnCount_altered {db changed : Database} {rows : List Row}
    (altered : db.execText addV6Query = .ok (rows, changed)) :
    columnCount changed = columnCount db + 1 := by
  simp only [Database.execText, parse_addV6Query, Database.exec] at altered
  cases updated : db.update plainRef fun relation => relation.addColumn (ascii "v6") with
  | error error =>
      rw [updated] at altered
      cases altered
  | ok after =>
      rw [updated] at altered
      obtain ⟨key, relation, widened, resolved, stored, adds, rfl⟩ := Database.update_cases updated
      have one : widened.columns.length = relation.columns.length + 1 := by
        unfold Relation.addColumn at adds
        split at adds
        · cases adds
        · cases adds
          simp
      have counted := columnCount_put_of_table (name_of_resolve resolved).1 stored widened
      have same : changed = db.put key widened := (Prod.mk.inj (Except.ok.inj altered)).2.symm
      rw [same]
      omega

/-! ## The constructor without faults -/

theorem call_construct (model : Model) (db : Database) :
    call construct [] model db = call runMigrations [] model db := by
  unfold call construct
  rw [issue, perform_bind, run_op_nil]
  rfl

/-- Where the count is neither 0 nor 8, the constructor leaves everything. -/
theorem call_construct_settled {db : Database} (many : 8 < columnCount db) (model : Model) :
    call construct [] model db = ⟨.ok (), model, db, []⟩ := by
  rw [call_construct, call_runMigrations, if_neg (by omega), if_neg (by omega)]

/-- A current table that the name resolves to is counted. -/
theorem many_of_serves {db : Database} {key : RelName} {relation : Relation}
    (serves : Serves db plainRef key relation) : 8 < columnCount db := by
  have without := columnCount_put_of_table (name_of_resolve serves.resolved).1 serves.stored
    (Relation.empty [])
  have nine : relation.columns.length = 9 := congrArg List.length serves.shape
  have none : (Relation.empty []).columns.length = 0 := rfl
  omega

/-- Where the name resolves to a current table, a start-up is a load. -/
theorem startUp_of_serves {db : Database} {key : RelName} {relation : Relation}
    (serves : Serves db plainRef key relation) (model : Model) :
    startUp model [] db = call loadPolicy [] model db := by
  unfold startUp
  rw [call_construct_settled (many_of_serves serves) model]

/-- A constructor leaves everything, or it returns and the count is beyond both
migrations; which of the two does not depend on the model. -/
theorem call_construct_cases (db : Database) :
    (∃ result, ∀ model, call construct [] model db = ⟨result, model, db, []⟩) ∨
    ∃ changed, 8 < columnCount changed ∧
      ∀ model, call construct [] model db = ⟨.ok (), model, changed, []⟩ := by
  simp only [call_construct, call_runMigrations, call_migration]
  by_cases none : columnCount db = 0
  · simp only [if_pos none]
    cases created : db.execText createQuery with
    | error error => exact Or.inl ⟨_, fun _ => rfl⟩
    | ok pair =>
        rcases columnCount_created created with same | nine
        · exact Or.inl ⟨.ok (), fun model => by rw [← same]⟩
        · exact Or.inr ⟨pair.2, by omega, fun _ => rfl⟩
  · simp only [if_neg none]
    by_cases old : columnCount db = 8
    · simp only [if_pos old]
      cases altered : db.execText addV6Query with
      | error error => exact Or.inl ⟨_, fun _ => rfl⟩
      | ok pair =>
          have nine := columnCount_altered altered
          exact Or.inr ⟨pair.2, by omega, fun _ => rfl⟩
    · simp only [if_neg old]
      exact Or.inl ⟨_, fun _ => rfl⟩

/-! ## The constructor under faults -/

/-- One text in a transaction, up to its commit. -/
def committed (query : Bytes) : AdapterProg (List Row) := do
  issue .beginWork
  let r ← issue (.exec query)
  issue .commit
  return r

theorem publishesLast_committed (query : Bytes) :
    PublishesLast Instr.commits (committed query) :=
  ⟨nofun, fun _ => ⟨nofun, fun rows => ⟨fun _ _ => ⟨rows, rfl⟩, fun _ => trivial⟩⟩⟩

/-- It throws and has committed nothing, or it returns and has committed its text. -/
theorem run_committed_cases (query : Bytes) (faults : List Bool) (model : Model)
    (db : Database) :
    (∃ failure store later, run machine (committed query) faults (Store.idle model db) =
        ⟨.error failure, store, later⟩ ∧ store.session.db = db) ∨
    ∃ rows changed later, db.execText query = .ok (rows, changed) ∧
      run machine (committed query) faults (Store.idle model db) =
        ⟨.ok rows, Store.idle model changed, later⟩ := by
  rcases ended : run machine (committed query) faults (Store.idle model db) with
    ⟨result, store, later⟩
  cases result with
  | error failure =>
      exact Or.inl ⟨failure, store, later, rfl, observe_of_error machine
        (fun store => store.session.db) (fun _ _ _ _ quiet done => db_of_step quiet done)
        (publishesLast_committed query) ended⟩
  | ok rows =>
      right
      have whole := run_nil_of_ok machine ended
      have opened : run machine (committed query) [] (Store.idle model db) =
          run machine (issue (.exec query) >>= fun r : List Row => issue .commit >>= fun _ =>
            return r) [] ⟨model, ⟨db, some db, none⟩⟩ := rfl
      rw [opened] at whole
      simp only [issue, perform_bind, run_op_nil, machine, Store.step, Session.exec] at whole
      cases executed : db.execText query with
      | error error =>
          rw [executed] at whole
          cases whole
      | ok pair =>
          rw [executed] at whole
          cases whole
          exact ⟨pair.1, pair.2, later, rfl, rfl⟩

/-- A migration that is cut short has committed nothing or its text. -/
theorem db_of_migration (query : Bytes) (faults : List Bool) (model : Model) (db : Database) :
    let final := (run machine (migration query >>= fun _ => issue .endWork) faults
      (Store.idle model db)).state.session.db
    final = db ∨ ∃ rows, db.execText query = .ok (rows, final) := by
  have parts : (migration query >>= fun _ => issue .endWork) =
      committed query >>= fun _ => issue .endWork >>= fun _ => issue .endWork := rfl
  rw [parts, run_bind]
  rcases run_committed_cases query faults model db with
    ⟨failure, store, later, ended, same⟩ | ⟨rows, changed, later, executed, ended⟩
  · rw [ended]
    exact Or.inl same
  · rw [ended]
    exact Or.inr ⟨rows, executed⟩

/-- The migrations that the count asks for, cut short or not. -/
theorem db_of_migrate (columns : Nat) (faults : List Bool) (model : Model) (db : Database) :
    let final := (run machine (migrate columns) faults (Store.idle model db)).state.session.db
    final = db ∨ (columns = 0 ∧ ∃ rows, db.execText createQuery = .ok (rows, final)) ∨
      (columns = 8 ∧ ∃ rows, db.execText addV6Query = .ok (rows, final)) := by
  by_cases missing : columns = 0
  · subst missing
    exact (db_of_migration createQuery faults model db).imp id fun done => Or.inl ⟨rfl, done⟩
  · by_cases old : columns = 8
    · subst old
      exact (db_of_migration addV6Query faults model db).imp id fun done => Or.inr ⟨rfl, done⟩
    · unfold migrate
      rw [if_neg missing, if_neg old]
      exact Or.inl rfl

/-- The constructor's migrations, cut short or not. -/
theorem db_of_construct (faults : List Bool) (model : Model) (db : Database) :
    let final := (call construct faults model db).db
    final = db ∨ (columnCount db = 0 ∧ ∃ rows, db.execText createQuery = .ok (rows, final)) ∨
      (columnCount db = 8 ∧ ∃ rows, db.execText addV6Query = .ok (rows, final)) := by
  have parts : construct = .op .checkout fun _ => committed columnQuery >>= fun rows =>
      migrate rows.length := by
    unfold construct
    rw [runMigrations_eq]
    rfl
  obtain ⟨names, queried, size⟩ := execText_columnQuery_length db
  unfold call
  rw [parts]
  rcases run_op_cases machine .checkout (fun _ => committed columnQuery >>= fun rows =>
      migrate rows.length) faults (Store.idle model db) with
    ⟨error, later, failed⟩ | ⟨answer, changed, later, stepped, went⟩
  · rw [failed]
    exact Or.inl rfl
  · cases stepped
    rw [went, run_bind]
    rcases run_committed_cases columnQuery later model db with
      ⟨failure, store, rest, ended, same⟩ | ⟨rows, counted, rest, executed, ended⟩
    · rw [ended]
      exact Or.inl same
    · rw [queried] at executed
      cases executed
      rw [ended, ← size]
      exact db_of_migrate names.length rest model db

/-- A constructor that is cut short has committed nothing or all that it commits. -/
theorem call_construct_atomic (faults : List Bool) (model other : Model) (db : Database) :
    (call construct faults model db).db = db ∨
      (call construct faults model db).db = (call construct [] other db).db := by
  rcases db_of_construct faults model db with same | ⟨none, rows, created⟩ | ⟨old, rows, altered⟩
  · exact Or.inl same
  · right
    rw [call_construct other, call_runMigrations, if_pos none, call_migration, created]
  · right
    rw [call_construct other, call_runMigrations, if_neg (by omega), if_pos old, call_migration,
      altered]

/-! ## Any number of start-ups -/

/-- A start-up on what a start-up left does what that one did. -/
theorem startUp_again (model : Model) (db : Database) :
    startUp model [] (startUp model [] db).db = startUp model [] db := by
  rw [db_of_startUp]
  rcases call_construct_cases db with ⟨result, stays⟩ | ⟨changed, many, moves⟩
  · rw [stays model]
  · unfold startUp
    rw [moves model, call_construct_settled many model]

/-- Start-ups as a procedure on the database; every attempt has the model that casbin
read for it. -/
def startUps (model : Model) : Procedure (List Bool × Model) Database Outcome where
  attempt schedule db := (startUp schedule.2 schedule.1 db).db
  whole db := (startUp model [] db, (startUp model [] db).db)

theorem restartable_startUps (model : Model) : (startUps model).Restartable where
  atomic schedule db := by
    simp only [startUps, db_of_startUp]
    exact call_construct_atomic schedule.1 schedule.2 model db
  repeats db := by
    simp only [startUps, startUp_again]

/-- On every catalogue, start-ups that are cut short at any of their database steps, any
number of them, leave the database as it was or as one whole start-up leaves it; and the
first whole start-up after them answers, loads and leaves what it would have on the
database before them. -/
theorem startup_resumes (model : Model) (attempts : List (List Bool × Model)) (db : Database) :
    let left := (startUps model).attempts attempts db
    (left = db ∨ left = (startUp model [] db).db) ∧
      startUp model [] left = startUp model [] db := by
  intro left
  have whole (db : Database) :
      (startUps model).whole db = (startUp model [] db, (startUp model [] db).db) := rfl
  have either := (restartable_startUps model).attempts_cases attempts db
  have same := (restartable_startUps model).whole_attempts attempts db
  simp only [whole, Prod.mk.injEq] at either same
  exact ⟨either, same.1⟩

end Casbinex.Adapter
