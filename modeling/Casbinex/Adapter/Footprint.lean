import Casbinex.Adapter.Atomic
import Casbinex.Adapter.OneRelation
import Casbinex.Sql.Frame

/-!
# What the adapter leaves alone

The texts of the adapter are made of what callers pass in, and the database has other
tables.  Whatever is passed in, nothing but relations named `casbin_rule` changes, and of
these no row is rewritten and no column lost.
-/

namespace Casbinex.Adapter

open Casbinex.Program
open Casbinex.Program.Prog
open Casbinex.Sql

/-- The adapter writes the table, creates it with the nine columns and adds `v6` to it. -/
def tablePrint : Footprint := ⟨tableName, tableColumns, ascii "v6"⟩

/-- What one process does between two steps of the others: an operation, or a migration
that a constructor has come to. -/
inductive Task where
  | operate (operation : PgOperation)
  | createTable
  | addV6Column

def Task.program : Task → AdapterProg Unit
  | .operate operation => operation.program
  | .createTable => Adapter.createTable
  | .addV6Column => Adapter.addV6Column

/-- A task is carried out for some model, under some faults. -/
def WorksOn (db : Database) (act : Task × List Bool × Model) (after : Database) : Prop :=
  (call act.1.program act.2.1 act.2.2 db).db = after

/-! ## Texts that do not depend on an argument -/

/-- The text writes the table alone, whatever it reads as. -/
def WritesTable (query : Bytes) : Prop :=
  ∀ statement ∈ parse (cString query), statement.Writes tablePrint

theorem writesTable_of_parse {query : Bytes} {statement : Statement}
    (parsed : parse (cString query) = some statement)
    (writes : statement.Writes tablePrint) : WritesTable query := by
  intro other reads
  obtain rfl := Option.some.inj (parsed.symm.trans reads)
  exact writes

/-- The step is confined to the table. -/
def Instr.Stays : Instr → Prop
  | .exec query => WritesTable query
  | .openStream table _ => table = tableName
  | _ => True

section

variable {db : Database} {p : AdapterProg Unit} {build : AdapterProg Bytes}

/-- Step: what is committed and what is being done stay confined. -/
theorem confined_of_step {i : Instr} {store after : Store} {answer : i.Answer} (stays : i.Stays)
    (confined : store.session.Confined tablePrint db)
    (done : machine.step i store = .ok (answer, after)) :
    after.session.Confined tablePrint db := by
  have session {result : Except SqlError Session} {answer : Unit}
      (done : store.onSession result = .ok (answer, after)) : result = .ok after.session := by
    cases result with
    | error error => cases done
    | ok session =>
        cases done
        rfl
  cases i with
  | checkout =>
      cases done
      exact confined
  | beginWork => exact confined.beginWork (session done)
  | esc field =>
      cases done
      exact confined
  | exec query =>
      simp only [machine, Store.step] at done
      split at done
      · cases done
      · next executed =>
          cases done
          exact confined.exec stays executed
  | openStream table columns =>
      have named : (TableRef.mk none table).name = tableName := stays
      exact confined.openStream named (session done)
  | write line => exact confined.write (session done)
  | complete => exact confined.complete (session done)
  | commit => exact confined.commit (session done)
  | endWork =>
      cases done
      exact confined.rollback
  | model change =>
      simp only [machine, Store.step] at done
      split at done
      · cases done
      · cases done
        exact confined
  | undefined crash => cases done

theorem confined_of_within (within : Within Instr.Stays p) (faults : List Bool) (model : Model)
    (db : Database) : Confined tablePrint db (call p faults model db).db :=
  (within.run_invariant machine (fun store => store.session.Confined tablePrint db)
    (fun _ _ _ _ stays confined done => confined_of_step stays confined done) faults
    (.idle (.refl db))).db

theorem stays_of_onModel (i : Instr) (step : i.onModel) : i.Stays := by
  cases i with
  | model change => trivial
  | _ => cases step

theorem stays_of_streams (i : Instr) (streams : i.streams = true) : i.Stays := by
  cases i with
  | exec query => cases streams
  | openStream table columns => cases streams
  | _ => trivial

theorem stays_migration {query : Bytes} (writes : WritesTable query) :
    Within Instr.Stays (migration query) :=
  ⟨trivial, fun _ => ⟨writes, fun _ => ⟨trivial, fun _ => ⟨trivial, fun _ => trivial⟩⟩⟩⟩

theorem stays_createTable : Within Instr.Stays (migration createQuery) :=
  stays_migration (writesTable_of_parse parse_createQuery ⟨rfl, rfl⟩)

theorem stays_addV6Column : Within Instr.Stays (migration addV6Query) :=
  stays_migration (writesTable_of_parse parse_addV6Query ⟨rfl, rfl⟩)

theorem stays_migrate (columns : Nat) : Within Instr.Stays (migrate columns) := by
  unfold migrate
  refine Within.bind ?_ fun _ => Within.bind ?_ fun _ => ⟨trivial, fun _ => trivial⟩
  · split
    · exact stays_createTable
    · trivial
  · split
    · exact stays_addV6Column
    · trivial

theorem stays_construct : Within Instr.Stays construct := by
  unfold construct
  rw [runMigrations_eq]
  exact ⟨trivial, fun _ => ⟨trivial, fun _ => ⟨writesTable_of_parse parse_columnQuery trivial,
    fun rows => ⟨trivial, fun _ => stays_migrate rows.length⟩⟩⟩⟩

theorem stays_loadPolicy : Within Instr.Stays loadPolicy :=
  ⟨trivial, fun _ => ⟨trivial, fun _ => ⟨writesTable_of_parse parse_selectQuery trivial,
    fun rows => ⟨trivial, fun _ => (onModel_loadLoop rows).mono stays_of_onModel⟩⟩⟩⟩

theorem stays_savePolicy (model : ModelPtr) : Within Instr.Stays (savePolicy model) := by
  cases model with
  | null => trivial
  | live =>
      have streamed (sec : Bytes) : Within Instr.Stays (saveSection sec) :=
        (streams_saveSection sec).mono stays_of_streams
      refine ⟨trivial, fun _ => ⟨trivial, fun _ =>
        ⟨writesTable_of_parse parse_truncateQuery rfl, fun _ => ⟨rfl, fun _ => ?_⟩⟩⟩⟩
      exact (streamed _).bind fun _ => (streamed _).bind fun _ =>
        ⟨trivial, fun _ => ⟨trivial, fun _ => trivial⟩⟩

/-! ## Texts that an update builds -/

/-- An update is confined if every text that it may build is. -/
theorem confined_transaction (builds : Within (fun i => i.builds = true) build)
    (texts : ∀ query, Builds build query → WritesTable query) (faults : List Bool) (model : Model)
    (db : Database) :
    Confined tablePrint db (call (transaction build) faults model db).db := by
  cases ended : (call (transaction build) faults model db).result with
  | error failure =>
      rw [call_transaction_of_error builds ended]
      exact .refl db
  | ok value =>
      have whole := call_nil_of_ok ended
      obtain ⟨query, rows, built, executed⟩ :=
        text_of_call_transaction builds (congrArg Outcome.result whole)
      have same := congrArg Outcome.db whole
      rw [same] at executed
      exact Database.confined_execText (texts query ⟨_, built⟩) executed

/-- Step: whatever an operation is given and however it ends, it is confined. -/
theorem confined_operation (operation : PgOperation) (faults : List Bool) (model : Model)
    (db : Database) :
    Confined tablePrint db (call operation.program faults model db).db := by
  have removes (ptype : Bytes) {conds : List Cond} (conjuncts : Conjuncts conds) :
      WritesTable (deleteQuery ptype conds) :=
    writesTable_of_parse (read_deleteQuery ptype conjuncts) rfl
  cases operation with
  | construct => exact confined_of_within stays_construct faults model db
  | loadPolicy => exact confined_of_within stays_loadPolicy faults model db
  | savePolicy pointer => exact confined_of_within (stays_savePolicy pointer) faults model db
  | addPolicy sec ptype rule =>
      rw [PgOperation.program, addPolicy_eq]
      refine confined_transaction (within_buildInsert ptype rule) ?_ faults model db
      rintro query ⟨store, built⟩
      rw [run_buildInsert] at built
      cases built
      have reads := (congrArg parse (cString_insertQuery ptype rule)).trans
        (parse_insertQuery ptype rule)
      exact writesTable_of_parse reads rfl
  | removePolicy sec ptype rule =>
      rw [PgOperation.program, removePolicy_eq]
      refine confined_transaction (within_buildMatch ptype rule) ?_ faults model db
      rintro query ⟨store, built⟩
      rw [run_buildMatch] at built
      cases built
      exact removes ptype (conjuncts_matchCond rule _)
  | removeFilteredPolicy sec ptype fieldIndex fieldValues =>
      rw [PgOperation.program, removeFilteredPolicy_eq]
      refine confined_transaction (within_buildFilter ptype fieldIndex fieldValues) ?_ faults
        model db
      intro query built
      obtain ⟨conds, conjuncts, rfl⟩ := buildFilter_text built
      exact removes ptype conjuncts

/-! ## Runs -/

/-- Run: any number of processes carry out any operations, and the migrations of their
constructors between each other's steps, on any arguments and models and under any faults.
Every relation that is not named `casbin_rule` stays as it was; one that is so named keeps
its columns and is never dropped, no row in it is ever rewritten, and one that is created
begins empty and with the columns of the migrator. -/
theorem only_rule_tables {last : Database} (run : Reachable WorksOn db last) :
    Confined tablePrint db last := by
  refine run.invariant (.refl db) fun before act after confined _ carried => confined.trans ?_
  obtain ⟨task, faults, model⟩ := act
  obtain rfl := carried
  cases task with
  | operate operation => exact confined_operation operation faults model before
  | createTable => exact confined_of_within stays_createTable faults model before
  | addV6Column => exact confined_of_within stays_addV6Column faults model before

end

/-- The table and one other, in one schema. -/
def withUsers : Database :=
  (singleTable (ascii "polarity") (Relation.empty tableColumns)).put
    (ascii "polarity", ascii "users") (Relation.empty [⟨ascii "name", false⟩])

/-- A subject that would end the literal and the statement is stored as it is. -/
theorem only_rule_tables_hostile :
    ∃ last, Reachable WorksOn withUsers last ∧
      (last.table (ascii "polarity", tableName)).map content =
        some [ruleCells (ascii "p") [ascii "'); DROP TABLE users; --"]] ∧
      Confined tablePrint withUsers last ∧
      last.table (ascii "polarity", ascii "users") =
        some (Relation.empty [⟨ascii "name", false⟩]) := by
  let adds : Task × List Bool × Model :=
    (.operate (.addPolicy (ascii "p") (ascii "p") [ascii "'); DROP TABLE users; --"]), [], ∅)
  have step : WorksOn withUsers adds (call adds.1.program [] ∅ withUsers).db := rfl
  have run : Reachable WorksOn withUsers (call adds.1.program [] ∅ withUsers).db :=
    .tail .refl trivial step
  have confined := only_rule_tables run
  refine ⟨_, run, by decide +kernel, confined, (confined.others _ (by decide)).trans ?_⟩
  exact Database.table_put_self _ _ _

end Casbinex.Adapter
