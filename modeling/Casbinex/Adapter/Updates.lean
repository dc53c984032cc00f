import Casbinex.Adapter.FilterLoop
import Casbinex.Adapter.RuleTable

/-!
# What the updates do to the database

`AddPolicy`, `RemovePolicy` and `RemoveFilteredPolicy` are one shape: take a
connection, open a transaction, build a text, execute it, commit.  A call without
faults executes the text; a call that throws, wherever the fault strikes, leaves
the committed database and the model as they were.
-/

namespace Casbinex.Adapter

open Casbinex.Program
open Casbinex.Program.Prog
open Casbinex.Sql
open Casbinex.Sql.Lexer (literal)
open Casbinex.Sql.Parser (condText)

/-- Build a text and execute it in a transaction of its own. -/
def transaction (build : AdapterProg Bytes) : AdapterProg Unit := do
  issue .checkout
  issue .beginWork
  let query ← build
  let _ ← issue (.exec query)
  issue .commit

def buildInsert (ptype : Bytes) (rule : Rule) : AdapterProg Bytes := do
  let quoted ← quote ptype
  let (columns, values) ← (List.range 7).foldlM (insertField rule) (ascii "ptype", quoted)
  return ascii "INSERT INTO casbin_rule (" ++ columns ++ ascii ") values (" ++ values ++ ascii ");"

def buildMatch (ptype : Bytes) (rule : Rule) : AdapterProg Bytes := do
  let quoted ← quote ptype
  let query ← (List.range 7).foldlM (matchField rule)
    (ascii "DELETE FROM polarity.casbin_rule where " ++ ascii "ptype = " ++ quoted)
  return query ++ ascii ";"

def buildFilter (ptype : Bytes) (fieldIndex : Int32) (fieldValues : List Bytes) :
    AdapterProg Bytes := do
  let quoted ← quote ptype
  let query ← filterLoop fieldIndex fieldValues (fieldValues.length + 1) fieldIndex.toUInt32
    (ascii "DELETE FROM polarity.casbin_rule where " ++ ascii "ptype = " ++ quoted)
  return query ++ ascii ";"

theorem addPolicy_eq (sec ptype : Bytes) (rule : Rule) :
    addPolicy sec ptype rule = transaction (buildInsert ptype rule) := by
  simp only [addPolicy, transaction, buildInsert, bind_assoc, pure_eq, ret_bind]

theorem removePolicy_eq (sec ptype : Bytes) (rule : Rule) :
    removePolicy sec ptype rule = transaction (buildMatch ptype rule) := by
  simp only [removePolicy, transaction, buildMatch, bind_assoc, pure_eq, ret_bind]

theorem removeFilteredPolicy_eq (sec ptype : Bytes) (fieldIndex : Int32)
    (fieldValues : List Bytes) :
    removeFilteredPolicy sec ptype fieldIndex fieldValues =
      transaction (buildFilter ptype fieldIndex fieldValues) := by
  simp only [removeFilteredPolicy, transaction, buildFilter, bind_assoc, pure_eq, ret_bind]

/-! ## Calls without faults -/

/-- A call that returns leaves what the call without faults leaves. -/
theorem call_nil_of_ok {operation : AdapterProg Unit} {faults : List Bool} {model : Model}
    {db : Database} (ok : (call operation faults model db).result = .ok ()) :
    call operation [] model db =
      ⟨.ok (), (call operation faults model db).model,
        (call operation faults model db).db, []⟩ := by
  unfold call at ok ⊢
  have ended : run machine operation faults (Store.idle model db) =
      ⟨.ok (), (run machine operation faults (Store.idle model db)).state,
        (run machine operation faults (Store.idle model db)).faults⟩ := by
    rw [← ok]
  rw [run_nil_of_ok machine ended]

/-- A call meets a fault or ends as the call without faults. -/
theorem call_fault_or_nil (operation : AdapterProg Unit) (faults : List Bool) (model : Model)
    (db : Database) :
    (call operation faults model db).result = .error .thrown ∨
      ∃ later, call operation faults model db =
        { call operation [] model db with faults := later } := by
  rcases run_fault_or_nil machine operation faults (Store.idle model db) with
    struck | ⟨later, same⟩
  · exact Or.inl struck
  · right
    refine ⟨later, ?_⟩
    unfold call
    rw [same]

/-- A transaction takes a connection and works on a copy of the committed database. -/
theorem run_transaction (build : AdapterProg Bytes) (model : Model) (db : Database) :
    run machine (transaction build) [] (Store.idle model db) =
      run machine (build >>= fun query => issue (.exec query) >>= fun _ => issue .commit) []
        ⟨model, ⟨db, some db, none⟩⟩ :=
  rfl

/-- A transaction whose text is built executes it on the committed database. -/
theorem call_transaction {build : AdapterProg Bytes} {query : Bytes}
    {model : Model} {db : Database}
    (yields : run machine build [] ⟨model, ⟨db, some db, none⟩⟩ =
      ⟨.ok query, ⟨model, ⟨db, some db, none⟩⟩, []⟩) :
    call (transaction build) [] model db =
      match db.execText query with
      | .error error => ⟨.error (.sql error), model, db, []⟩
      | .ok (_, changed) => ⟨.ok (), model, changed, []⟩ := by
  unfold call
  rw [run_transaction, run_bind_of_yields machine yields]
  simp only [issue, perform_bind, run_op_nil, machine, Store.step, Session.exec]
  cases db.execText query with
  | error error => rfl
  | ok pair => rfl

/-! ## The texts that are built -/

/-- The text that the operation executes. -/
def Instr.text : Instr → Option Bytes
  | .exec query => some query
  | _ => none

/-- What an update issues that goes right: every field is escaped once, in order, and the
text is executed. -/
def updateOps (fields : List Bytes) (query : Bytes) : List Instr :=
  .checkout :: .beginWork :: (fields.map Instr.esc ++ [.exec query, .commit])

theorem texts_updateOps (fields : List Bytes) (query : Bytes) :
    (updateOps fields query).filterMap Instr.text = [query] := by
  have silent : (fields.map Instr.esc).filterMap Instr.text = [] := by
    rw [List.filterMap_map]
    exact List.filterMap_eq_nil_iff.mpr fun field _ => rfl
  change (fields.map Instr.esc ++ [Instr.exec query, .commit]).filterMap Instr.text = [query]
  rw [List.filterMap_append, silent]
  rfl

theorem crashes_updateOps (fields : List Bytes) (query : Bytes) :
    ∀ i ∈ updateOps fields query, i.crashes = false := by
  intro i member
  simp only [updateOps, List.mem_cons, List.mem_append, List.mem_map, List.not_mem_nil,
    or_false] at member
  rcases member with rfl | rfl | ⟨field, _, rfl⟩ | rfl | rfl <;> rfl

section

variable {answers : (i : Instr) → i.Answer} {ptype : Bytes}

theorem plays_buildInsert {rule : Rule}
    (escaped : ∀ field ∈ ptype :: rule, Escaped answers field) :
    Plays answers (buildInsert ptype rule) ((ptype :: rule.take 7).map Instr.esc)
      (insertQuery ptype rule) := by
  have first := plays_quote (escaped ptype List.mem_cons_self)
  have loop := plays_insertFields
    (fun field member => escaped field (List.mem_cons_of_mem ptype member)) (List.range 7)
    (ascii "ptype") (literal (cString ptype))
  rw [filterMap_fields] at loop
  exact first.bind (loop.bind_ret rfl)

theorem plays_buildMatch {rule : Rule}
    (escaped : ∀ field ∈ ptype :: rule, Escaped answers field) :
    Plays answers (buildMatch ptype rule) ((ptype :: rule.take 7).map Instr.esc)
      (deleteQuery ptype ((List.range 7).map (matchCond rule))) := by
  have first := plays_quote (escaped ptype List.mem_cons_self)
  have loop := plays_matchFields
    (fun field member => escaped field (List.mem_cons_of_mem ptype member)) (List.range 7)
    (ascii "DELETE FROM polarity.casbin_rule where " ++ ascii "ptype = " ++
      literal (cString ptype))
  rw [filterMap_fields] at loop
  exact first.bind (loop.bind_ret rfl)

theorem plays_buildFilter {fieldIndex : Int32} (nonneg : 0 ≤ fieldIndex)
    {fieldValues : List Bytes}
    (escaped : ∀ field ∈ ptype :: fieldValues, Escaped answers field)
    (small : fieldIndex.toNatClampNeg + fieldValues.length < 2 ^ 32) :
    Plays answers (buildFilter ptype fieldIndex fieldValues)
      ((ptype :: fieldValues).map Instr.esc)
      (deleteQuery ptype (filterConds fieldIndex.toNatClampNeg fieldValues)) := by
  have first := plays_quote (escaped ptype List.mem_cons_self)
  have loop := plays_filterLoop nonneg
    (fun value member => escaped value (List.mem_cons_of_mem ptype member)) small
    (ascii "DELETE FROM polarity.casbin_rule where " ++ ascii "ptype = " ++
      literal (cString ptype))
  exact first.bind (loop.bind_ret rfl)

/-- A filter whose bound is above the counters of 32 bits goes wrong. -/
theorem meets_buildFilter {fieldIndex : Int32} {fieldValues : List Bytes}
    (wide : (2 : Int) ^ 32 ≤ (fieldValues.length + fieldIndex.toInt) % 2 ^ 64) (ptype : Bytes) :
    Meets (fun i => i.crashes = true) (buildFilter ptype fieldIndex fieldValues) :=
  Meets.bind_right fun _ => (meets_filterLoop wide _ _ _).bind_left _

/-- A transaction executes the text it has built and nothing else. -/
theorem plays_transaction {build : AdapterProg Bytes} {fields : List Bytes} {query : Bytes}
    (built : Plays answers build (fields.map Instr.esc) query) :
    Plays answers (transaction build) (updateOps fields query) () := by
  have closing : Plays answers (issue (.exec query) >>= fun _ => issue .commit)
      [.exec query, .commit] () := ⟨rfl, rfl⟩
  exact .op (.op (built.bind closing))

theorem plays_addPolicy (sec : Bytes) {rule : Rule}
    (escaped : ∀ field ∈ ptype :: rule, Escaped answers field) :
    Plays answers (addPolicy sec ptype rule)
      (updateOps (ptype :: rule.take 7) (insertQuery ptype rule)) () := by
  rw [addPolicy_eq]
  exact plays_transaction (plays_buildInsert escaped)

theorem plays_removePolicy (sec : Bytes) {rule : Rule}
    (escaped : ∀ field ∈ ptype :: rule, Escaped answers field) :
    Plays answers (removePolicy sec ptype rule)
      (updateOps (ptype :: rule.take 7)
        (deleteQuery ptype ((List.range 7).map (matchCond rule)))) () := by
  rw [removePolicy_eq]
  exact plays_transaction (plays_buildMatch escaped)

theorem plays_removeFilteredPolicy (sec : Bytes) {fieldIndex : Int32} (nonneg : 0 ≤ fieldIndex)
    {fieldValues : List Bytes} (escaped : ∀ field ∈ ptype :: fieldValues, Escaped answers field)
    (small : fieldIndex.toNatClampNeg + fieldValues.length < 2 ^ 32) :
    Plays answers (removeFilteredPolicy sec ptype fieldIndex fieldValues)
      (updateOps (ptype :: fieldValues)
        (deleteQuery ptype (filterConds fieldIndex.toNatClampNeg fieldValues))) () := by
  rw [removeFilteredPolicy_eq]
  exact plays_transaction (plays_buildFilter nonneg escaped small)

/-- A filter whose bound is too wide goes wrong. -/
theorem meets_removeFilteredPolicy {fieldIndex : Int32} {fieldValues : List Bytes}
    (wide : (2 : Int) ^ 32 ≤ (fieldValues.length + fieldIndex.toInt) % 2 ^ 64)
    (sec ptype : Bytes) :
    Meets (fun i => i.crashes = true) (removeFilteredPolicy sec ptype fieldIndex fieldValues) := by
  rw [removeFilteredPolicy_eq]
  exact Or.inr fun _ => Or.inr fun _ => (meets_buildFilter wide ptype).bind_left _

end

theorem run_buildInsert (ptype : Bytes) (rule : Rule) (store : Store) :
    run machine (buildInsert ptype rule) [] store =
      ⟨.ok (insertQuery ptype rule), store, []⟩ :=
  run_of_plays (plays_buildInsert fun field _ => escaped_escaping field) store

theorem run_buildMatch (ptype : Bytes) (rule : Rule) (store : Store) :
    run machine (buildMatch ptype rule) [] store =
      ⟨.ok (deleteQuery ptype ((List.range 7).map (matchCond rule))), store, []⟩ :=
  run_of_plays (plays_buildMatch fun field _ => escaped_escaping field) store

theorem run_buildFilter {fieldIndex : Int32} (nonneg : 0 ≤ fieldIndex) (ptype : Bytes)
    {fieldValues : List Bytes}
    (small : fieldIndex.toNatClampNeg + fieldValues.length < 2 ^ 32) (store : Store) :
    run machine (buildFilter ptype fieldIndex fieldValues) [] store =
      ⟨.ok (deleteQuery ptype (filterConds fieldIndex.toNatClampNeg fieldValues)), store, []⟩ :=
  run_of_plays (plays_buildFilter nonneg (fun field _ => escaped_escaping field) small) store

/-! ## Calls that throw -/

/-- The operations that build a text; only `esc` is one of the client library. -/
def Instr.builds : Instr → Bool
  | .esc _ => true
  | .undefined _ => true
  | _ => false

/-- The operation that changes the committed database. -/
def Instr.commits : Instr → Bool
  | .commit => true
  | _ => false

theorem within_quote (field : Bytes) : Within (fun i => i.builds = true) (quote field) :=
  ⟨rfl, fun _ => trivial⟩

theorem within_buildInsert (ptype : Bytes) (rule : Rule) :
    Within (fun i => i.builds = true) (buildInsert ptype rule) := by
  refine (within_quote ptype).bind fun quoted => ?_
  refine (Within.foldlM (fun built ii => ?_) _ _).bind fun _ => trivial
  unfold insertField
  split
  · exact (within_quote _).bind fun _ => trivial
  · trivial

theorem within_buildMatch (ptype : Bytes) (rule : Rule) :
    Within (fun i => i.builds = true) (buildMatch ptype rule) := by
  refine (within_quote ptype).bind fun quoted => ?_
  refine (Within.foldlM (fun query ii => ?_) _ _).bind fun _ => trivial
  unfold matchField
  split
  · exact (within_quote _).bind fun _ => trivial
  · trivial

theorem within_filterLoop (fieldIndex : Int32) (fieldValues : List Bytes) (turns : Nat)
    (ii : UInt32) (query : Bytes) :
    Within (fun i => i.builds = true) (filterLoop fieldIndex fieldValues turns ii query) := by
  induction turns generalizing ii query with
  | zero => exact ⟨rfl, fun _ => trivial⟩
  | succ turns ih =>
      unfold filterLoop
      split
      · split
        · exact (within_quote _).bind fun quoted => ih _ _
        · exact ⟨rfl, fun _ => trivial⟩
      · trivial

theorem within_buildFilter (ptype : Bytes) (fieldIndex : Int32) (fieldValues : List Bytes) :
    Within (fun i => i.builds = true) (buildFilter ptype fieldIndex fieldValues) := by
  refine (within_quote ptype).bind fun quoted => ?_
  exact (within_filterLoop fieldIndex fieldValues _ _ _).bind fun _ => trivial

/-! ## Undefined behaviour -/

theorem defined_quote (field : Bytes) : Within (fun i => i.crashes = false) (quote field) :=
  ⟨rfl, fun _ => trivial⟩

theorem defined_buildInsert (ptype : Bytes) (rule : Rule) :
    Within (fun i => i.crashes = false) (buildInsert ptype rule) := by
  refine (defined_quote ptype).bind fun quoted => ?_
  refine (Within.foldlM (fun built ii => ?_) _ _).bind fun _ => trivial
  unfold insertField
  split
  · exact (defined_quote _).bind fun _ => trivial
  · trivial

theorem defined_buildMatch (ptype : Bytes) (rule : Rule) :
    Within (fun i => i.crashes = false) (buildMatch ptype rule) := by
  refine (defined_quote ptype).bind fun quoted => ?_
  refine (Within.foldlM (fun query ii => ?_) _ _).bind fun _ => trivial
  unfold matchField
  split
  · exact (defined_quote _).bind fun _ => trivial
  · trivial

/-- A filter stays within its vector if its index is not negative and its counter does not
come round, or if it takes no turn. -/
theorem defined_buildFilter {fieldIndex : Int32} {fieldValues : List Bytes}
    (sound : 0 ≤ fieldIndex ∧ fieldIndex.toNatClampNeg + fieldValues.length < 2 ^ 32 ∨
      (fieldValues.length + fieldIndex.toInt) % 2 ^ 64 ≤ fieldIndex.toInt % 2 ^ 32)
    (ptype : Bytes) :
    Within (fun i => i.crashes = false) (buildFilter ptype fieldIndex fieldValues) := by
  refine (defined_quote ptype).bind fun quoted => Within.bind ?_ fun _ => trivial
  rcases sound with ⟨nonneg, small⟩ | low
  · exact calm_filterLoop_rest nonneg [] fieldIndex.toUInt32 _ small
      (Int32.toNat_toUInt32_of_le nonneg)
  · rw [filterLoop_none low]
    trivial

theorem onSession_ok {store changed : Store} {result : Except SqlError Session} {answer : Unit}
    (done : store.onSession result = .ok (answer, changed)) :
    ∃ session, result = .ok session ∧ changed = { store with session := session } := by
  unfold Store.onSession at done
  split at done
  · cases done
  · next session =>
      cases done
      exact ⟨session, rfl, rfl⟩

theorem model_of_step {i : Instr} {store changed : Store} {answer : i.Answer}
    (apart : ∀ change, i ≠ .model change) (done : Store.step i store = .ok (answer, changed)) :
    changed.model = store.model := by
  cases i with
  | checkout =>
      cases done
      rfl
  | esc field =>
      cases done
      rfl
  | endWork =>
      cases done
      rfl
  | model change => exact absurd rfl (apart change)
  | undefined crash => cases done
  | exec query =>
      simp only [Store.step] at done
      split at done
      · cases done
      · cases done
        rfl
  | beginWork =>
      cases done
      rfl
  | _ =>
      change store.onSession _ = _ at done
      obtain ⟨session, _, rfl⟩ := onSession_ok done
      rfl

/-- Only a step on the model, or a point where the source goes wrong, crashes. -/
theorem crash_of_step {i : Instr} {store : Store} {crash : Crash}
    (apart : ∀ change, i ≠ .model change) (defined : i.crashes = false) :
    Store.step i store ≠ .error (.crash crash) := by
  have session {result : Except SqlError Session} :
      store.onSession result ≠ .error (.crash crash) := by
    unfold Store.onSession
    split <;> exact nofun
  cases i with
  | model change => exact absurd rfl (apart change)
  | undefined crash => cases defined
  | exec query =>
      simp only [Store.step]
      split <;> exact nofun
  | openStream table columns => exact session
  | write line => exact session
  | complete => exact session
  | commit => exact session
  | _ => exact nofun

/-- Only a commit changes the committed database. -/
theorem db_of_step {i : Instr} {store changed : Store} {answer : i.Answer}
    (apart : i.commits = false)
    (done : Store.step i store = .ok (answer, changed)) :
    changed.session.db = store.session.db := by
  cases i with
  | checkout =>
      cases done
      rfl
  | esc field =>
      cases done
      rfl
  | endWork =>
      cases done
      rfl
  | commit => cases apart
  | undefined crash => cases done
  | model change =>
      simp only [Store.step] at done
      split at done <;> cases done
      rfl
  | beginWork =>
      cases done
      rfl
  | exec query =>
      simp only [Store.step] at done
      split at done
      · cases done
      · next ran =>
          cases done
          exact Session.db_of_exec ran
  | openStream table columns =>
      obtain ⟨session, opened, rfl⟩ := onSession_ok done
      exact Session.db_of_openStream opened
  | write line =>
      obtain ⟨session, written, rfl⟩ := onSession_ok done
      exact Session.db_of_write written
  | complete =>
      obtain ⟨session, completed, rfl⟩ := onSession_ok done
      exact Session.db_of_complete completed

section

variable {build : AdapterProg Bytes} {faults : List Bool} {model : Model} {db : Database}

/-- An update has no step on the model. -/
theorem apart_transaction (builds : Within (fun i => i.builds = true) build) :
    Within (fun i => ∀ change, i ≠ .model change) (transaction build) := by
  refine ⟨nofun, fun _ => ⟨nofun, fun _ => ?_⟩⟩
  refine (builds.mono fun i built change same => ?_).bind fun query => ?_
  · rw [same] at built
    cases built
  · exact ⟨nofun, fun _ => ⟨nofun, fun _ => trivial⟩⟩

/-- The updates do not touch the model, however they end. -/
theorem call_transaction_model (builds : Within (fun i => i.builds = true) build)
    (faults : List Bool) (model : Model) (db : Database) :
    (call (transaction build) faults model db).model = model := by
  refine (apart_transaction builds).run_invariant machine (fun store => store.model = model) ?_
    faults rfl
  intro i store answer changed allowed same done
  rw [model_of_step allowed done, same]

theorem defined_transaction (calm : Within (fun i => i.crashes = false) build) :
    Within (fun i => i.crashes = false) (transaction build) :=
  ⟨rfl, fun _ => ⟨rfl, fun _ => calm.bind fun _ => ⟨rfl, fun _ => ⟨rfl, fun _ => trivial⟩⟩⟩⟩

/-- An update of defined behaviour does not crash. -/
theorem not_crash_of_transaction (builds : Within (fun i => i.builds = true) build)
    (calm : Within (fun i => i.crashes = false) build) (faults : List Bool) (model : Model)
    (db : Database) (crash : Crash) :
    (call (transaction build) faults model db).result ≠ .error (.crash crash) := by
  intro crashed
  obtain ⟨i, ⟨apart, defined⟩, ⟨_, thrown⟩ | ⟨store, failed⟩⟩ :=
    ((apart_transaction builds).and (defined_transaction calm)).error_of_run machine
      (Ending.of_result crashed)
  · cases thrown
  · exact crash_of_step apart defined failed

/-- Building a text leaves the store as it is. -/
theorem store_of_builds {i : Instr} (built : i.builds = true) {store changed : Store}
    {answer : i.Answer} (done : Store.step i store = .ok (answer, changed)) : changed = store := by
  cases i with
  | esc field =>
      cases done
      rfl
  | undefined crash => cases done
  | _ => cases built

/-- A transaction that returns has built a text and committed what it does. -/
theorem text_of_call_transaction (builds : Within (fun i => i.builds = true) build)
    (ok : (call (transaction build) [] model db).result = .ok ()) :
    ∃ query rows, run machine build [] ⟨model, ⟨db, some db, none⟩⟩ =
        ⟨.ok query, ⟨model, ⟨db, some db, none⟩⟩, []⟩ ∧
      db.execText query = .ok (rows, (call (transaction build) [] model db).db) := by
  have kept := builds.run_invariant machine (fun store => store = ⟨model, ⟨db, some db, none⟩⟩)
    (fun _ _ _ _ built same done => (store_of_builds built done).trans same) [] rfl
  rcases ran : run machine build [] ⟨model, ⟨db, some db, none⟩⟩ with ⟨result, final, later⟩
  rw [ran] at kept
  dsimp only at kept
  subst kept
  cases result with
  | error failure =>
      unfold call at ok
      rw [run_transaction, run_bind, ran] at ok
      cases ok
  | ok query =>
      have built := run_nil_of_ok machine ran
      rw [call_transaction built] at ok ⊢
      cases executed : db.execText query with
      | error error =>
          rw [executed] at ok
          cases ok
      | ok pair =>
          refine ⟨query, pair.1, ?_, executed⟩
          rw [← ran, built]

/-- Where a program that commits as its last step fails, the committed database is
untouched. -/
theorem db_of_error {p : AdapterProg Unit} (last : PublishesLast Instr.commits p)
    {failure : Failure} (failed : (call p faults model db).result = .error failure) :
    (call p faults model db).db = db :=
  observe_of_error machine (fun store => store.session.db)
    (fun _ _ _ _ quiet done => db_of_step quiet done) last (Ending.of_result failed)

/-- All or nothing: wherever an update throws, the committed database is untouched. -/
theorem call_transaction_of_error (builds : Within (fun i => i.builds = true) build)
    {failure : Failure}
    (failed : (call (transaction build) faults model db).result = .error failure) :
    (call (transaction build) faults model db).db = db := by
  refine db_of_error ⟨nofun, fun _ => ⟨nofun, fun _ => ?_⟩⟩ failed
  refine (builds.mono fun i built => ?_).publishesLast_bind fun query => ?_
  · cases i with
    | commit => cases built
    | _ => rfl
  · exact ⟨nofun, fun _ => ⟨fun _ answer => ⟨answer, rfl⟩, fun _ => trivial⟩⟩

end

/-! ## Effect on the table a name denotes -/

/-- A name denotes a relation with the nine columns of the migrator. -/
structure Serves (db : Database) (ref : TableRef) (key : RelName) (relation : Relation) :
    Prop where
  resolved : db.resolve ref = some key
  stored : db.table key = some relation
  shape : relation.columns = tableColumns

section

variable {db : Database} {ref : TableRef} {key : RelName} {relation changed : Relation}

theorem Serves.put (serves : Serves db ref key relation) (shape : changed.columns = tableColumns) :
    Serves (db.put key changed) ref key changed where
  resolved := by
    rw [Database.resolve_put_of_mem _ (Database.mem_of_resolve serves.resolved)]
    exact serves.resolved
  stored := db.table_put_self key changed
  shape := shape

theorem execText_insertQuery (serves : Serves db plainRef key relation) (ptype : Bytes)
    (rule : Rule) :
    db.execText (insertQuery ptype rule) =
      .ok ([], db.put key (withRule relation ptype rule)) := by
  have updated : db.update plainRef (fun relation => relation.insert
        (ascii "ptype" :: insertColumns rule) ((cString ptype :: insertValues rule).map some)) =
      .ok (db.put key (withRule relation ptype rule)) :=
    Database.update_of_resolve serves.resolved serves.stored (insert_rule serves.shape ptype rule)
  simp only [Database.execText, cString_insertQuery, parse_insertQuery, Database.exec, updated]
  rfl

theorem execText_deleteRule (serves : Serves db polarityRef key relation) (ptype : Bytes)
    (rule : Rule) :
    db.execText (deleteQuery ptype ((List.range 7).map (matchCond rule))) =
      .ok ([], db.put key (withoutRule relation ptype rule)) := by
  have updated : db.update polarityRef (fun relation => relation.delete
        (.eq (ascii "ptype") (cString ptype) :: (List.range 7).map (matchCond rule))) =
      .ok (db.put key (withoutRule relation ptype rule)) :=
    Database.update_of_resolve serves.resolved serves.stored (delete_rule serves.shape ptype rule)
  rw [execText_deleteQuery db ptype (conjuncts_matchCond rule _), updated]
  rfl

theorem execText_deleteMatches (serves : Serves db polarityRef key relation) (ptype : Bytes)
    {first : Nat} {values : List Bytes} (bound : first + values.length ≤ 7) :
    db.execText (deleteQuery ptype (filterConds first values)) =
      .ok ([], db.put key (withoutMatches relation ptype first values)) := by
  have updated : db.update polarityRef (fun relation => relation.delete
        (.eq (ascii "ptype") (cString ptype) :: filterConds first values)) =
      .ok (db.put key (withoutMatches relation ptype first values)) :=
    Database.update_of_resolve serves.resolved serves.stored
      (delete_matches serves.shape ptype bound)
  rw [execText_deleteQuery db ptype (conjuncts_filterConds first values), updated]
  rfl

theorem parse_selectQuery :
    parse (cString selectQuery) = some (.select streamColumns plainRef []) := by
  decide +kernel

theorem parse_truncateQuery : parse (cString truncateQuery) = some (.truncate plainRef) := by
  decide +kernel

theorem execText_selectQuery (serves : Serves db plainRef key relation) :
    db.execText selectQuery = .ok (content relation, db) := by
  have fetched := Database.fetch_of_resolve serves.resolved serves.stored
  have other : plainRef ≠ Database.columnsRef := by decide
  simp only [Database.execText, parse_selectQuery, Database.exec, if_neg other, fetched, bind,
    Except.bind, select_content serves.shape]
  rfl

theorem call_addPolicy (serves : Serves db plainRef key relation) (model : Model)
    (sec ptype : Bytes) (rule : Rule) :
    call (addPolicy sec ptype rule) [] model db =
      ⟨.ok (), model, db.put key (withRule relation ptype rule), []⟩ := by
  rw [addPolicy_eq, call_transaction (run_buildInsert ptype rule _), execText_insertQuery serves]

theorem call_removePolicy (serves : Serves db polarityRef key relation) (model : Model)
    (sec ptype : Bytes) (rule : Rule) :
    call (removePolicy sec ptype rule) [] model db =
      ⟨.ok (), model, db.put key (withoutRule relation ptype rule), []⟩ := by
  rw [removePolicy_eq, call_transaction (run_buildMatch ptype rule _), execText_deleteRule serves]

theorem call_removeFilteredPolicy (serves : Serves db polarityRef key relation) (model : Model)
    (sec ptype : Bytes) {fieldIndex : Int32} {fieldValues : List Bytes}
    (nonneg : 0 ≤ fieldIndex)
    (bound : fieldIndex.toNatClampNeg + fieldValues.length ≤ 7) :
    call (removeFilteredPolicy sec ptype fieldIndex fieldValues) [] model db =
      ⟨.ok (), model,
        db.put key (withoutMatches relation ptype fieldIndex.toNatClampNeg fieldValues), []⟩ := by
  have small : fieldIndex.toNatClampNeg + fieldValues.length < 2 ^ 32 := by omega
  rw [removeFilteredPolicy_eq, call_transaction (run_buildFilter nonneg ptype small _),
    execText_deleteMatches serves ptype bound]

/-! ## Loading -/

theorem run_loadLoop_ok {rows : List Row} {model loaded : Model}
    (ok : loadRows rows model = .ok loaded) (faults : List Bool) (session : Session) :
    run machine (loadLoop rows) faults ⟨model, session⟩ =
      ⟨.ok (), ⟨loaded, session⟩, faults⟩ := by
  induction rows generalizing model with
  | nil =>
      cases ok
      rfl
  | cons row more ih =>
      rw [loadRows] at ok
      cases first : loadPolicyLine (policyLine row) model with
      | error crash => simp [first, Except.bind] at ok
      | ok middle =>
          rw [first] at ok
          have rest := ih ok
          simpa [loadLoop, issue, run, machine, Store.step, first, Instr.databaseStep] using rest

theorem run_loadLoop_error {rows : List Row} {model : Model} {crash : Crash}
    (failed : loadRows rows model = .error crash) (faults : List Bool) (session : Session) :
    ∃ partly, run machine (loadLoop rows) faults ⟨model, session⟩ =
      ⟨.error (.crash crash), ⟨partly, session⟩, faults⟩ := by
  induction rows generalizing model with
  | nil => cases failed
  | cons row more ih =>
      rw [loadRows] at failed
      cases first : loadPolicyLine (policyLine row) model with
      | error other =>
          rw [first] at failed
          cases failed
          exact ⟨model, by simp [loadLoop, issue, run, machine, Store.step, first,
            Instr.databaseStep]⟩
      | ok middle =>
          rw [first] at failed
          obtain ⟨partly, rest⟩ := ih failed
          exact ⟨partly, by simpa [loadLoop, issue, run, machine, Store.step, first,
            Instr.databaseStep] using rest⟩

/-- `LoadPolicy` without faults loads the rows of the table into the cleared model. -/
theorem call_loadPolicy_run (serves : Serves db plainRef key relation) (model : Model) :
    run machine loadPolicy [] (Store.idle model db) =
      run machine (loadLoop (content relation)) [] ⟨model.clearPolicy, ⟨db, some db, none⟩⟩ := by
  have opened : run machine loadPolicy [] (Store.idle model db) =
      run machine (issue (.exec selectQuery) >>= fun r =>
        issue (.model fun model => .ok model.clearPolicy) >>= fun _ => loadLoop r) []
        ⟨model, ⟨db, some db, none⟩⟩ := rfl
  rw [opened]
  simp only [issue, perform_bind, run_op_nil, machine, Store.step, Session.exec,
    execText_selectQuery serves]

theorem call_loadPolicy_ok (serves : Serves db plainRef key relation) {model loaded : Model}
    (ok : loadRows (content relation) model.clearPolicy = .ok loaded) :
    call loadPolicy [] model db = ⟨.ok (), loaded, db, []⟩ := by
  unfold call
  rw [call_loadPolicy_run serves, run_loadLoop_ok ok]

/-- `LoadPolicy` completes exactly when the loader accepts every row. -/
theorem call_loadPolicy_completes_iff (serves : Serves db plainRef key relation)
    (model loaded : Model) :
    (call loadPolicy [] model db).result = .ok () ∧ (call loadPolicy [] model db).model = loaded ↔
      loadRows (content relation) model.clearPolicy = .ok loaded := by
  constructor
  · rintro ⟨completes, rfl⟩
    cases rows : loadRows (content relation) model.clearPolicy with
    | ok built => rw [call_loadPolicy_ok serves rows]
    | error crash =>
        obtain ⟨partly, ended⟩ := run_loadLoop_error rows [] ⟨db, some db, none⟩
        unfold call at completes
        rw [call_loadPolicy_run serves, ended] at completes
        cases completes
  · intro ok
    rw [call_loadPolicy_ok serves ok]
    exact ⟨rfl, rfl⟩

theorem loadRows_of_call (serves : Serves db plainRef key relation) {model loaded : Model}
    (loads : call loadPolicy [] model db = ⟨.ok (), loaded, db, []⟩) :
    loadRows (content relation) model.clearPolicy = .ok loaded := by
  apply (call_loadPolicy_completes_iff serves model loaded).mp
  rw [loads]
  exact ⟨rfl, rfl⟩

theorem loadedFrom_of_call (serves : Serves db plainRef key relation) {model loaded : Model}
    (loads : call loadPolicy [] model db = ⟨.ok (), loaded, db, []⟩) :
    LoadedFrom model.clearPolicy (content relation) loaded :=
  loadedFrom_of_ok (loadRows_of_call serves loads)

end

/-! ## A database with one table -/

/-- A catalogue that holds `casbin_rule` in one schema, which is the search path. -/
def singleTable (schema : Name) (relation : Relation) : Database where
  schemas := [schema]
  searchPath := [schema]
  relations := (∅ : AList fun _ : RelName => Relation).insert (schema, tableName) relation

theorem table_singleTable (schema : Name) (relation : Relation) :
    (singleTable schema relation).table (schema, tableName) = some relation :=
  AList.lookup_insert _

theorem mem_singleTable (schema : Name) (relation : Relation) :
    (schema, tableName) ∈ (singleTable schema relation).relations :=
  (Database.mem_relations_iff _ _).mpr ⟨relation, table_singleTable schema relation⟩

theorem serves_singleTable (schema : Name) {relation : Relation}
    (shape : relation.columns = tableColumns) :
    Serves (singleTable schema relation) plainRef (schema, tableName) relation where
  resolved := by
    have first : (singleTable schema relation).searchPath.find?
        (fun s => decide ((s, tableName) ∈ (singleTable schema relation).relations)) =
          some schema :=
      List.find?_cons_of_pos (decide_eq_true (mem_singleTable schema relation))
    exact congrArg (Option.map fun s => (s, tableName)) first
  stored := table_singleTable schema relation
  shape := shape

theorem serves_polarity {relation : Relation} (shape : relation.columns = tableColumns) :
    Serves (singleTable (ascii "polarity") relation) polarityRef (ascii "polarity", tableName)
      relation where
  resolved := by
    unfold Database.resolve polarityRef
    exact if_pos (mem_singleTable (ascii "polarity") relation)
  stored := table_singleTable _ relation
  shape := shape

/-- A model with one ptype in each of the sections `p` and `g`. -/
def rbacModel (permissions roles : List Rule) : Model :=
  ((∅ : Model).insert (ascii "g") ((∅ : AssertionMap).insert (ascii "g") roles)).insert
    (ascii "p") ((∅ : AssertionMap).insert (ascii "p") permissions)

theorem lookup_insert_empty {β : Type} (key other : Bytes) (value : β) :
    ((∅ : AList fun _ : Bytes => β).insert key value).lookup other =
      if other = key then some value else none := by
  split
  · next same => rw [same, AList.lookup_insert]
  · next different => rw [AList.lookup_insert_ne different, AList.lookup_empty]

theorem assertion_rbacModel (permissions roles : List Rule) (s t : Bytes) :
    (rbacModel permissions roles).assertion s t =
      if s = ascii "p" ∧ t = ascii "p" then some permissions
      else if s = ascii "g" ∧ t = ascii "g" then some roles else none := by
  have different : ascii "g" ≠ ascii "p" := by decide
  unfold rbacModel Model.assertion
  by_cases atP : s = ascii "p"
  · subst atP
    rw [AList.lookup_insert, Option.bind_some, lookup_insert_empty]
    simp [different.symm]
  · rw [AList.lookup_insert_ne atP, lookup_insert_empty]
    by_cases atG : s = ascii "g"
    · subst atG
      rw [if_pos rfl, Option.bind_some, lookup_insert_empty]
      simp [different]
    · simp [atP, atG]

end Casbinex.Adapter
