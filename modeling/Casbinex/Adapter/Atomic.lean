import Casbinex.Adapter.Enforcer
import Casbinex.Adapter.Pool
import Casbinex.Adapter.Save

/-!
# All or nothing

A fault may strike at any database step of an operation.  `SavePolicy` and the
updates commit as their last step and `LoadPolicy` commits nothing, so an
exception leaves the committed database as it was; `LoadPolicy` clears the model
only after its last database step.
-/

namespace Casbinex.Adapter

open Casbinex.Program
open Casbinex.Program.Prog
open Casbinex.Sql

/-- The failure is an exception; undefined behaviour throws nothing. -/
def Failure.thrownOut : Failure → Prop
  | .thrown => True
  | .sql _ => True
  | .crash _ => False

/-! ## Saving -/

/-- The operations that stream the rules of a model. -/
def Instr.streams : Instr → Bool
  | .model _ => true
  | .esc _ => true
  | .write _ => true
  | _ => false

theorem streams_saveRule (ptype : Bytes) (rule : Rule) :
    Within (fun i => i.streams = true) (saveRule ptype rule) := by
  refine (Within.foldlM (fun row ii => ?_) _ _).bind fun row => ⟨rfl, fun _ => trivial⟩
  unfold saveField
  split
  · exact ⟨rfl, fun _ => trivial⟩
  · trivial

theorem streams_saveRules (ptype : Bytes) (rules : List Rule) :
    Within (fun i => i.streams = true) (saveRules ptype rules) := by
  induction rules with
  | nil => trivial
  | cons rule more ih => exact (streams_saveRule ptype rule).bind fun _ => ih

theorem streams_saveAssertions (entries : List (Σ _ : Bytes, List Rule)) :
    Within (fun i => i.streams = true) (saveAssertions entries) := by
  induction entries with
  | nil => trivial
  | cons entry more ih => exact (streams_saveRules entry.1 entry.2).bind fun _ => ih

theorem streams_saveSection (sec : Bytes) :
    Within (fun i => i.streams = true) (saveSection sec) :=
  ⟨rfl, fun _ => streams_saveAssertions _⟩

theorem commits_of_streams (i : Instr) (streams : i.streams = true) : i.commits = false := by
  cases i with
  | commit => cases streams
  | _ => rfl

/-- `SavePolicy` commits as its last step. -/
theorem publishesLast_savePolicy (model : ModelPtr) :
    PublishesLast Instr.commits (savePolicy model) := by
  cases model with
  | null => trivial
  | live =>
      refine ⟨nofun, fun _ => ⟨nofun, fun _ => ⟨nofun, fun _ => ⟨nofun, fun _ => ?_⟩⟩⟩⟩
      have quiet (sec : Bytes) : Within (fun i => i.commits = false) (saveSection sec) :=
        (streams_saveSection sec).mono commits_of_streams
      refine (quiet _).publishesLast_bind fun _ => ?_
      refine (quiet _).publishesLast_bind fun _ => ?_
      exact ⟨nofun, fun _ => ⟨fun _ answer => ⟨answer, rfl⟩, fun _ => trivial⟩⟩

/-! ## Loading -/

/-- What `LoadPolicy` does once the rows have arrived: steps on the model alone. -/
def Instr.onModel : Instr → Prop
  | .model _ => True
  | _ => False

theorem onModel_loadLoop (rows : List Row) : Within Instr.onModel (loadLoop rows) := by
  induction rows with
  | nil => trivial
  | cons row more ih => exact ⟨trivial, fun _ => ih⟩

theorem quiet_loadPolicy : Within (fun i => i.commits = false) loadPolicy := by
  refine ⟨rfl, fun _ => ⟨rfl, fun _ => ⟨rfl, fun rows => ⟨rfl, fun _ => ?_⟩⟩⟩⟩
  refine (onModel_loadLoop rows).mono fun i step => ?_
  cases i with
  | model change => rfl
  | _ => cases step

/-- Loading does not touch the committed database, however it ends. -/
theorem db_of_loadPolicy (faults : List Bool) (model : Model) (db : Database) :
    (call loadPolicy faults model db).db = db :=
  quiet_loadPolicy.run_invariant machine (fun store => store.session.db = db)
    (fun _ _ _ _ quiet same done => (db_of_step quiet done).trans same) faults rfl

/-- Steps on the model fail by undefined behaviour only. -/
theorem crash_of_onModel {p : AdapterProg Unit} (within : Within Instr.onModel p)
    {faults later : List Bool} {store final : Store} {failure : Failure}
    (ended : run machine p faults store = ⟨.error failure, final, later⟩) :
    ¬ failure.thrownOut := by
  have sure (i : Instr) (step : i.onModel) : machine.fallible i = false := by
    cases i with
    | model change => rfl
    | _ => cases step
  obtain ⟨i, step, ⟨fallible, _⟩ | ⟨before, failed⟩⟩ := within.error_of_run machine ended
  · rw [sure i step] at fallible
    cases fallible
  cases i with
  | model change =>
      simp only [machine, Store.step] at failed
      split at failed
      · cases failed
        exact id
      · cases failed
  | _ => cases step

/-- The database steps of `LoadPolicy`. -/
def fetchRows : AdapterProg (List Row) := do
  issue .checkout
  issue .beginWork
  issue (.exec selectQuery)

/-- An exception strikes `LoadPolicy` before it touches the model. -/
theorem model_of_loadPolicy_thrown {faults : List Bool} {model : Model} {db : Database}
    {failure : Failure} (failed : (call loadPolicy faults model db).result = .error failure)
    (thrown : failure.thrownOut) : (call loadPolicy faults model db).model = model := by
  have split : loadPolicy = fetchRows >>= fun rows =>
    issue (.model fun model => .ok model.clearPolicy) >>= fun _ => loadLoop rows := rfl
  have apart : Within (fun i => ∀ change, i ≠ .model change) fetchRows :=
    ⟨nofun, fun _ => ⟨nofun, fun _ => ⟨nofun, fun _ => trivial⟩⟩⟩
  have kept : (run machine fetchRows faults (Store.idle model db)).state.model = model :=
    apart.run_invariant machine (fun store => store.model = model)
      (fun _ _ _ _ allowed same done => (model_of_step allowed done).trans same)
      faults rfl
  unfold call at failed ⊢
  rw [split, run_bind] at failed ⊢
  rcases fetched : run machine fetchRows faults (Store.idle model db) with ⟨result, store, later⟩
  rw [fetched] at failed kept
  cases result with
  | error error => exact kept
  | ok rows =>
      have refill : Within Instr.onModel (issue (.model fun model => .ok model.clearPolicy) >>=
          fun _ => loadLoop rows) := ⟨trivial, fun _ => onModel_loadLoop rows⟩
      exact absurd thrown (crash_of_onModel refill (Ending.of_result failed))

/-! ## All operations -/

/-- Wherever an operation other than the constructor throws, the committed database is
as it was. -/
theorem db_of_failed {operation : PgOperation} (migrates : operation ≠ .construct)
    {faults : List Bool} {model : Model} {db : Database} {failure : Failure}
    (failed : (call operation.program faults model db).result = .error failure) :
    (call operation.program faults model db).db = db := by
  cases operation with
  | construct => exact absurd rfl migrates
  | loadPolicy => exact db_of_loadPolicy faults model db
  | savePolicy pointer => exact db_of_error (publishesLast_savePolicy pointer) failed
  | addPolicy sec ptype rule => exact Update.call_of_error (u := .add sec ptype rule) failed
  | removePolicy sec ptype rule =>
      exact Update.call_of_error (u := .remove sec ptype rule) failed
  | removeFilteredPolicy sec ptype fieldIndex fieldValues =>
      exact Update.call_of_error (u := .removeFiltered sec ptype fieldIndex fieldValues) failed

/-- The rules of a section, each with its ptype. -/
def sectionRules (model : Model) (sec : Bytes) : List (Bytes × Rule) :=
  ((model.lookup sec).getD ∅).entries.flatMap fun entry => entry.2.map (entry.1, ·)

theorem sectionLines_eq (model : Model) (sec : Bytes) :
    sectionLines model sec = (sectionRules model sec).map fun e => savedCells e.1 e.2 := by
  unfold sectionLines assertionLines sectionRules
  rw [List.map_flatMap]
  simp only [List.map_map]
  rfl

/-- An operation that throws leaves the table, and `LoadPolicy` leaves the model as well;
after a `SavePolicy` that returns, the table has one row for each rule of the sections `p`
and `g` and no other. -/
theorem operations_all_or_nothing (faults : List Bool) (model : Model) (db : Database) :
    (∀ operation : PgOperation, operation ≠ .construct → ∀ failure,
      (call operation.program faults model db).result = .error failure →
      (call operation.program faults model db).db = db) ∧
    (∀ failure, failure.thrownOut →
      (call loadPolicy faults model db).result = .error failure →
      (call loadPolicy faults model db).model = model) ∧
    ∀ key relation, Serves db plainRef key relation →
      (call (savePolicy .live) faults model db).result = .ok () →
      ∃ filled, (call (savePolicy .live) faults model db).db = db.put key filled ∧
        filled.columns = tableColumns ∧
        content filled = (sectionRules model (ascii "p") ++ sectionRules model (ascii "g")).map
          fun e => savedCells e.1 e.2 := by
  refine ⟨fun operation migrates failure failed => db_of_failed migrates failed,
    fun failure thrown failed => model_of_loadPolicy_thrown failed thrown,
    fun key relation serves returns => ?_⟩
  obtain ⟨filled, columns, stored, saved⟩ := call_savePolicy serves model
  refine ⟨filled, ?_, columns, ?_⟩
  · have same := congrArg Outcome.db (call_nil_of_ok returns)
    rw [saved] at same
    exact same.symm
  · rw [stored, List.map_append, sectionLines_eq, sectionLines_eq]

/-- A connection that is lost while the first row is written. -/
theorem operations_all_or_nothing_interrupted :
    (call (savePolicy .live) (List.replicate 7 false ++ [true]) (rbacModel [aliceReads.rule] [])
      (singleTable (ascii "polarity") (withRule (Relation.empty tableColumns)
        aliceReads.ptype aliceReads.rule))).db =
      singleTable (ascii "polarity") (withRule (Relation.empty tableColumns)
        aliceReads.ptype aliceReads.rule) := by
  refine (operations_all_or_nothing _ _ _).1 (.savePolicy .live) nofun .thrown ?_
  decide +kernel

end Casbinex.Adapter
