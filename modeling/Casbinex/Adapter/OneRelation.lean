import Casbinex.Adapter.Atomic
import Casbinex.Adapter.Revocation

/-!
# The relation behind the table's name

The constructor migrates, `LoadPolicy`, `AddPolicy` and `SavePolicy` use the name
`casbin_rule`, and the two removals the name `polarity.casbin_rule`.  Which
relation each text addresses is decided by the catalogue and the search path.
-/

namespace Casbinex.Adapter

open Casbinex.Program
open Casbinex.Program.Prog
open Casbinex.Sql
open Casbinex.Sql.Parser (condText)

/-! ## Migrations -/

/-- Every relation named `casbin_rule` has the columns of the migrator. -/
def Shaped (db : Database) : Prop :=
  ∀ key relation, db.table key = some relation → key.2 = tableName →
    relation.columns = tableColumns

/-- Execute one text in a transaction whose scope ends with it. -/
def migration (query : Bytes) : AdapterProg Unit := do
  issue .beginWork
  let _ ← issue (.exec query)
  issue .commit
  issue .endWork

theorem run_migration (query : Bytes) (model : Model) (db : Database) :
    run machine (migration query) [] (Store.idle model db) =
      match db.execText query with
      | .error error => ⟨.error (.sql error), ⟨model, ⟨db, some db, none⟩⟩, []⟩
      | .ok (_, changed) => ⟨.ok (), Store.idle model changed, []⟩ := by
  have opened : run machine (migration query) [] (Store.idle model db) =
      run machine (issue (.exec query) >>= fun _ => issue .commit >>= fun _ => issue .endWork) []
        ⟨model, ⟨db, some db, none⟩⟩ := rfl
  rw [opened]
  simp only [issue, perform_bind, run_op_nil, machine, Store.step, Session.exec]
  cases db.execText query with
  | error error => rfl
  | ok pair => rfl

theorem parse_columnQuery : parse (cString columnQuery) =
    some (.select [ascii "column_name"] Database.columnsRef
      [.eq (ascii "table_name") tableName]) := by
  decide +kernel

theorem parse_createQuery : parse (cString createQuery) =
    some (.createTable plainRef tableColumns) := by
  decide +kernel

theorem parse_addV6Query : parse (cString addV6Query) =
    some (.addColumn plainRef (ascii "v6")) := by
  decide +kernel

/-- The two migrations that may follow the column query. -/
def migrate (columns : Nat) : AdapterProg Unit :=
  (if columns = 0 then migration createQuery else return ()) >>= fun _ =>
    (if columns = 8 then migration addV6Query else return ()) >>= fun _ => issue .endWork

theorem runMigrations_eq : runMigrations = issue .beginWork >>= fun _ =>
    issue (.exec columnQuery) >>= fun r : List Row => issue .commit >>= fun _ =>
      migrate r.length := by
  unfold runMigrations migrate
  refine congrArg _ (funext fun _ => congrArg _ (funext fun r => congrArg _ (funext fun _ => ?_)))
  by_cases missing : r.length = 0
  · by_cases old : r.length = 8
    · simp only [if_pos missing, if_pos old]
      rfl
    · simp only [if_pos missing, if_neg old]
      rfl
  · by_cases old : r.length = 8
    · simp only [if_neg missing, if_pos old]
      rfl
    · simp only [if_neg missing, if_neg old]
      rfl

/-- After the column query the migrations run on the idle session. -/
theorem run_construct (model : Model) (db : Database) :
    run machine construct [] (Store.idle model db) =
      match db.execText columnQuery with
      | .error error => ⟨.error (.sql error), ⟨model, ⟨db, some db, none⟩⟩, []⟩
      | .ok (rows, changed) => run machine (migrate rows.length) [] (Store.idle model changed) := by
  have opened : run machine construct [] (Store.idle model db) =
      run machine (issue (.exec columnQuery) >>= fun r : List Row => issue .commit >>= fun _ =>
        migrate r.length) [] ⟨model, ⟨db, some db, none⟩⟩ := by
    unfold construct
    rw [runMigrations_eq]
    rfl
  rw [opened]
  simp only [issue, perform_bind, run_op_nil, machine, Store.step, Session.exec]
  cases db.execText columnQuery with
  | error error => rfl
  | ok pair => rfl

theorem run_migrate (columns : Nat) (model : Model) (db : Database) :
    run machine (migrate columns) [] (Store.idle model db) =
      if columns = 0 then run machine (migration createQuery) [] (Store.idle model db)
      else if columns = 8 then run machine (migration addV6Query) [] (Store.idle model db)
      else ⟨.ok (), Store.idle model db, []⟩ := by
  have closing (query : Bytes) :
      run machine (migration query >>= fun _ => issue .endWork) [] (Store.idle model db) =
        run machine (migration query) [] (Store.idle model db) := by
    rw [run_bind, run_migration]
    cases db.execText query with
    | error error => rfl
    | ok pair => rfl
  unfold migrate
  by_cases missing : columns = 0
  · rw [if_pos missing, if_pos missing, if_neg (by omega : ¬ columns = 8)]
    exact closing createQuery
  · rw [if_neg missing, if_neg missing]
    split
    · exact closing addV6Query
    · rfl

theorem execText_columnQuery {db changed : Database} {rows : List Row}
    (ok : db.execText columnQuery = .ok (rows, changed)) : changed = db := by
  simp only [Database.execText, parse_columnQuery, Database.exec, if_true] at ok
  cases found : db.columnsView.select [ascii "column_name"]
      [.eq (ascii "table_name") tableName] with
  | error error =>
      rw [found] at ok
      cases ok
  | ok names =>
      rw [found] at ok
      cases ok
      rfl

/-- What a successful constructor can do: nothing, or create the table, or add `v6`. -/
theorem construct_cases {model : Model} {db : Database}
    (ok : (call construct [] model db).result = .ok ()) :
    (call construct [] model db).db = db ∨
    (∃ rows, db.execText createQuery = .ok (rows, (call construct [] model db).db)) ∨
    (∃ rows, db.execText addV6Query = .ok (rows, (call construct [] model db).db)) := by
  unfold call at ok ⊢
  rw [run_construct] at ok ⊢
  cases queried : db.execText columnQuery with
  | error error =>
      rw [queried] at ok
      cases ok
  | ok pair =>
      obtain ⟨rows, same⟩ := pair
      have unchanged := execText_columnQuery queried
      subst unchanged
      rw [queried] at ok
      simp only [run_migrate, run_migration] at ok ⊢
      by_cases missing : rows.length = 0
      · rw [if_pos missing] at ok ⊢
        right
        left
        cases created : same.execText createQuery with
        | error error =>
            rw [created] at ok
            cases ok
        | ok pair => exact ⟨pair.1, rfl⟩
      · rw [if_neg missing] at ok ⊢
        by_cases old : rows.length = 8
        · rw [if_pos old] at ok ⊢
          right
          right
          cases altered : same.execText addV6Query with
          | error error =>
              rw [altered] at ok
              cases ok
          | ok pair => exact ⟨pair.1, rfl⟩
        · rw [if_neg old]
          exact Or.inl rfl

theorem name_of_resolve {db : Database} {ref : TableRef} {key : RelName}
    (resolved : db.resolve ref = some key) :
    key.2 = ref.name ∧ ∀ schema ∈ ref.schema, key.1 = schema := by
  unfold Database.resolve at resolved
  cases written : ref.schema with
  | some schema =>
      rw [written] at resolved
      dsimp only at resolved
      split at resolved
      · rw [← Option.some.inj resolved]
        exact ⟨rfl, fun other same => Option.some.inj same⟩
      · cases resolved
  | none =>
      rw [written] at resolved
      obtain ⟨schema, _, rfl⟩ := Option.map_eq_some_iff.mp resolved
      exact ⟨rfl, fun other same => by cases same⟩

/-- A table that has the nine columns refuses a second `v6`. -/
theorem execText_addV6Query {db : Database} (shaped : Shaped db) (result : List Row × Database) :
    db.execText addV6Query ≠ .ok result := by
  intro altered
  simp only [Database.execText, parse_addV6Query, Database.exec] at altered
  cases updated : db.update plainRef fun relation => relation.addColumn (ascii "v6") with
  | error error =>
      rw [updated] at altered
      cases altered
  | ok after =>
      obtain ⟨key, relation, changed, resolved, stored, adds, _⟩ := Database.update_cases updated
      have shape := shaped key relation stored (name_of_resolve resolved).1
      have known : relation.knows (ascii "v6") = true := knows_column shape (by omega : 6 < 7)
      rw [Relation.addColumn, if_pos known] at adds
      cases adds

theorem Shaped.put {db : Database} (shaped : Shaped db) (key : RelName) {relation : Relation}
    (shape : relation.columns = tableColumns) : Shaped (db.put key relation) := by
  intro other stored found named
  by_cases same : other = key
  · subst same
    rw [Database.table_put_self, Option.some.injEq] at found
    exact found ▸ shape
  · rw [Database.table_put_of_ne _ _ same] at found
    exact shaped other stored found named

/-- The migrations keep the nine columns of every table that has them. -/
theorem construct_shaped {model : Model} {db : Database} (shaped : Shaped db)
    (ok : (call construct [] model db).result = .ok ()) :
    Shaped (call construct [] model db).db := by
  rcases construct_cases ok with same | ⟨rows, created⟩ | ⟨rows, altered⟩
  · rw [same]
    exact shaped
  · simp only [Database.execText, parse_createQuery, Database.exec] at created
    cases home : db.creationSchema plainRef with
    | none =>
        rw [home] at created
        cases created
    | some schema =>
        rw [home] at created
        dsimp only at created
        split at created
        · rw [← (Prod.mk.inj (Except.ok.inj created)).2]
          exact shaped
        · rw [← (Prod.mk.inj (Except.ok.inj created)).2]
          exact shaped.put _ rfl
  · exact absurd altered (execText_addV6Query shaped _)

/-! ## The texts and their relation -/

/-- The text that an update builds and then executes. -/
def Builds (build : AdapterProg Bytes) (query : Bytes) : Prop :=
  ∃ store, run machine build [] store = ⟨.ok query, store, []⟩

/-- The relation that a step of an operation addresses, if it executes a text or opens a
stream. -/
def Instr.addressed (db : Database) : Instr → Option (Option RelName)
  | .exec query => some (db.target query)
  | .openStream table _ => some (db.resolve ⟨none, table⟩)
  | _ => none

/-- The relations that an operation addresses, one for each text and each stream, whatever
its steps are answered. -/
def Addresses (db : Database) (operation : AdapterProg Unit) (keys : List (Option RelName)) :
    Prop :=
  ∀ answers, (∀ field, Escaped answers field) →
    (trace answers operation).filterMap (Instr.addressed db) = keys

/-- Every text and every stream of the adapter addresses the one relation; `SavePolicy`
truncates it and streams into it. -/
structure OneRelation (db : Database) (key : RelName) : Prop where
  load : Addresses db loadPolicy [some key]
  save : Addresses db (savePolicy .live) [some key, some key]
  add : ∀ sec ptype rule, Addresses db (addPolicy sec ptype rule) [some key]
  remove : ∀ sec ptype rule, Addresses db (removePolicy sec ptype rule) [some key]
  removeFiltered : ∀ sec ptype fieldIndex fieldValues,
    Addresses db (removeFilteredPolicy sec ptype fieldIndex fieldValues) [some key]

section

variable {answers : (i : Instr) → i.Answer}

/-- An update addresses the relation of its text. -/
theorem addressed_transaction {build : AdapterProg Bytes}
    (builds : Within (fun i => i.builds = true) build) (db : Database)
    (answers : (i : Instr) → i.Answer) :
    (trace answers (transaction build)).filterMap (Instr.addressed db) =
      [db.target (eval answers build)] := by
  have silent : (trace answers build).filterMap (Instr.addressed db) = [] := by
    refine builds.filterMap_trace (fun i built => ?_) answers
    cases i with
    | exec query => cases built
    | openStream table columns => cases built
    | _ => rfl
  have parts : trace answers (transaction build) = .checkout :: .beginWork ::
      (trace answers build ++ [.exec (eval answers build), .commit]) :=
    congrArg (fun rest => Instr.checkout :: .beginWork :: rest) (trace_bind answers build _)
  rw [parts]
  change (trace answers build ++ [Instr.exec (eval answers build), .commit]).filterMap
    (Instr.addressed db) = _
  rw [List.filterMap_append, silent]
  rfl

/-- Loading addresses what its one text addresses. -/
theorem addressed_loadPolicy (db : Database) (answers : (i : Instr) → i.Answer) :
    (trace answers loadPolicy).filterMap (Instr.addressed db) = [db.target selectQuery] := by
  have silent : (trace answers (loadLoop (answers (.exec selectQuery)))).filterMap
      (Instr.addressed db) = [] := by
    refine (onModel_loadLoop _).filterMap_trace (fun i step => ?_) answers
    cases i with
    | model change => rfl
    | _ => cases step
  exact congrArg (db.target selectQuery :: ·) silent

/-- Saving addresses what its text addresses, and the table of its stream. -/
theorem addressed_savePolicy (db : Database) (answers : (i : Instr) → i.Answer) :
    (trace answers (savePolicy .live)).filterMap (Instr.addressed db) =
      [db.target truncateQuery, db.resolve plainRef] := by
  have silent (sec : Bytes) :
      (trace answers (saveSection sec)).filterMap (Instr.addressed db) = [] := by
    refine (streams_saveSection sec).filterMap_trace (fun i streams => ?_) answers
    cases i with
    | exec query => cases streams
    | openStream table columns => cases streams
    | _ => rfl
  have rest : (trace answers (saveSection (ascii "p") >>= fun _ => saveSection (ascii "g") >>=
      fun _ => issue .complete >>= fun _ => issue .commit)).filterMap
        (Instr.addressed db) = [] := by
    rw [trace_bind, List.filterMap_append, silent, trace_bind, List.filterMap_append, silent]
    rfl
  exact congrArg (fun more => db.target truncateQuery :: db.resolve plainRef :: more) rest

theorem eval_buildFilter (escaped : ∀ field, Escaped answers field) (ptype : Bytes)
    (fieldIndex : Int32) (fieldValues : List Bytes) :
    ∃ conds, Conjuncts conds ∧
      eval answers (buildFilter ptype fieldIndex fieldValues) = deleteQuery ptype conds := by
  obtain ⟨conds, conjuncts, appended⟩ := eval_filterLoop escaped fieldIndex fieldValues
    (fieldValues.length + 1) fieldIndex.toUInt32
    (ascii "DELETE FROM polarity.casbin_rule where " ++ ascii "ptype = " ++
      Lexer.literal (cString ptype))
  refine ⟨conds, conjuncts, ?_⟩
  rw [buildFilter, eval_bind, (plays_quote (escaped ptype)).eval_eq, eval_bind, appended]
  rfl

theorem buildFilter_text {ptype : Bytes} {fieldIndex : Int32} {fieldValues : List Bytes}
    {query : Bytes} (builds : Builds (buildFilter ptype fieldIndex fieldValues) query) :
    ∃ conds, Conjuncts conds ∧ query = deleteQuery ptype conds := by
  obtain ⟨store, built⟩ := builds
  obtain ⟨conds, conjuncts, text⟩ := eval_buildFilter escaped_escaping ptype fieldIndex fieldValues
  refine ⟨conds, conjuncts, text ▸ ?_⟩
  refine ((within_buildFilter ptype fieldIndex fieldValues).eval_of_run machine ?_ built).symm
  intro i before answer after kind stepped
  cases i with
  | esc field =>
      cases stepped
      rfl
  | undefined crash => cases stepped
  | _ => cases kind

theorem target_deleteQuery (db : Database) (ptype : Bytes) {conds : List Cond}
    (conjuncts : Conjuncts conds) :
    db.target (deleteQuery ptype conds) = db.resolve polarityRef := by
  unfold Database.target
  rw [read_deleteQuery ptype conjuncts]
  rfl

/-- A removal addresses what the qualified name denotes. -/
theorem addressed_removePolicy (escaped : ∀ field, Escaped answers field) (db : Database)
    (sec ptype : Bytes) (rule : Rule) :
    (trace answers (removePolicy sec ptype rule)).filterMap (Instr.addressed db) =
      [db.resolve polarityRef] := by
  rw [removePolicy_eq, addressed_transaction (within_buildMatch ptype rule),
    (plays_buildMatch fun field _ => escaped field).eval_eq,
    target_deleteQuery db ptype (conjuncts_matchCond rule _)]

theorem addressed_removeFilteredPolicy (escaped : ∀ field, Escaped answers field) (db : Database)
    (sec ptype : Bytes) (fieldIndex : Int32) (fieldValues : List Bytes) :
    (trace answers (removeFilteredPolicy sec ptype fieldIndex fieldValues)).filterMap
      (Instr.addressed db) = [db.resolve polarityRef] := by
  obtain ⟨conds, conjuncts, text⟩ := eval_buildFilter escaped ptype fieldIndex fieldValues
  rw [removeFilteredPolicy_eq,
    addressed_transaction (within_buildFilter ptype fieldIndex fieldValues), text,
    target_deleteQuery db ptype conjuncts]

/-- An addition addresses what the plain name denotes. -/
theorem addressed_addPolicy (escaped : ∀ field, Escaped answers field) (db : Database)
    (sec ptype : Bytes) (rule : Rule) :
    (trace answers (addPolicy sec ptype rule)).filterMap (Instr.addressed db) =
      [db.resolve plainRef] := by
  rw [addPolicy_eq, addressed_transaction (within_buildInsert ptype rule),
    (plays_buildInsert fun field _ => escaped field).eval_eq]
  unfold Database.target
  rw [cString_insertQuery, parse_insertQuery]
  rfl

end

/-- The operations agree exactly when both names resolve to one relation. -/
theorem oneRelation_iff {db : Database} {key : RelName}
    (resolved : db.resolve plainRef = some key) :
    OneRelation db key ↔ db.resolve polarityRef = some key := by
  have reads : db.target selectQuery = some key := by
    unfold Database.target
    rw [parse_selectQuery]
    exact resolved
  have truncates : db.target truncateQuery = some key := by
    unfold Database.target
    rw [parse_truncateQuery]
    exact resolved
  constructor
  · intro one
    have removed := one.remove [] [] [] escaping escaped_escaping
    rw [addressed_removePolicy escaped_escaping] at removed
    exact List.singleton_inj.mp removed
  · intro qualified
    constructor
    · intro answers _
      rw [addressed_loadPolicy, reads]
    · intro answers _
      rw [addressed_savePolicy, truncates, resolved]
    · intro sec ptype rule answers escaped
      rw [addressed_addPolicy escaped, resolved]
    · intro sec ptype rule answers escaped
      rw [addressed_removePolicy escaped, qualified]
    · intro sec ptype fieldIndex fieldValues answers escaped
      rw [addressed_removeFilteredPolicy escaped, qualified]

/-! ## Adding and removing a grant -/

def afterAdd (model : Model) (db : Database) (g : Grant) : Outcome :=
  call (addPolicy g.sec g.ptype g.rule) [] model db

def afterRemove (model : Model) (db : Database) (g : Grant) : Outcome :=
  let added := afterAdd model db g
  call (removePolicy g.sec g.ptype g.rule) [] added.model added.db

/-- A grant that is added and removed is gone, and only one schema was written. -/
structure AddThenRemove (model : Model) (db : Database) (key : RelName) (g : Grant) : Prop where
  added : (afterAdd model db g).result = .ok ()
  removed : (afterRemove model db g).result = .ok ()
  absent :
    let reloaded := call loadPolicy [] (afterRemove model db g).model (afterRemove model db g).db
    reloaded.result = .ok () → g.rule ∉ reloaded.model.policy g.sec g.ptype
  confined : ∀ other, other.1 ≠ key.1 → (afterRemove model db g).db.table other = db.table other

section

variable {model : Model} {db : Database} {key : RelName} {relation : Relation}

/-- The table after the grant was added and removed. -/
def passed (relation : Relation) (g : Grant) : Relation :=
  withoutRule (withRule relation g.ptype g.rule) g.ptype g.rule

theorem content_passed (shape : relation.columns = tableColumns) (g : Grant) :
    content (passed relation g) = (content relation).filter (· ≠ g.cells) := by
  have grown : (withRule relation g.ptype g.rule).columns = tableColumns := shape
  have stored : ruleCells (cString g.ptype) (g.rule.map cString) = g.cells :=
    congrArg₂ ruleCells g.cString_ptype g.map_cString_rule
  unfold passed
  rw [content_withoutRule grown, content_withRule shape, stored, List.filter_append]
  simp

/-- The calls on a table that both names denote. -/
theorem afterRemove_eq (named : Serves db plainRef key relation)
    (qualified : Serves db polarityRef key relation) (model : Model) (g : Grant) :
    afterAdd model db g = ⟨.ok (), model, db.put key (withRule relation g.ptype g.rule), []⟩ ∧
    afterRemove model db g = ⟨.ok (), model,
      (db.put key (withRule relation g.ptype g.rule)).put key (passed relation g), []⟩ := by
  have grown : (withRule relation g.ptype g.rule).columns = tableColumns := named.shape
  have added : afterAdd model db g =
      ⟨.ok (), model, db.put key (withRule relation g.ptype g.rule), []⟩ :=
    call_addPolicy named model g.sec g.ptype g.rule
  refine ⟨added, ?_⟩
  unfold afterRemove
  rw [added]
  exact call_removePolicy (qualified.put grown) model g.sec g.ptype g.rule

/-- The row of the grant loads, so it does not matter to loading whether it is there. -/
theorem loadable_passed_iff (shape : relation.columns = tableColumns) {g : Grant}
    (declared : model.Declares g.sec g.ptype) :
    Loadable model.clearPolicy (content (passed relation g)) ↔
      Loadable model (content relation) := by
  rw [content_passed shape]
  constructor
  · intro loadable row member
    by_cases own : row = g.cells
    · subst own
      exact ⟨g.ptype, g.rule, g.entryOf_cells, declared⟩
    · obtain ⟨k, r, reads, known⟩ := loadable row (by simp [member, own])
      exact ⟨k, r, reads, (model.declares_clearPolicy _ _).mp known⟩
  · intro loadable row member
    obtain ⟨k, r, reads, known⟩ := loadable row (List.mem_filter.mp member).1
    exact ⟨k, r, reads, (model.declares_clearPolicy _ _).mpr known⟩

theorem addThenRemove_iff (named : Serves db plainRef key relation)
    (qualified : Serves db polarityRef key relation) {g : Grant}
    (declared : model.Declares g.sec g.ptype) :
    AddThenRemove model db key g ↔
      (Loadable model (content relation) → Tidy (content relation) g.ptype g.rule) := by
  obtain ⟨added, removed⟩ := afterRemove_eq named qualified model g
  have grown : (withRule relation g.ptype g.rule).columns = tableColumns := named.shape
  have shrunk : (passed relation g).columns = tableColumns := named.shape
  have served := (named.put grown).put shrunk
  have tidyIff : g.rule ∉ rulesUnder g.ptype (content (passed relation g)) ↔
      Tidy (content relation) g.ptype g.rule := by
    rw [content_passed named.shape]
    exact notMem_rulesUnder_filter (content relation) g.ptype g.rule
  constructor
  · intro done loadable
    obtain ⟨loaded, ok, spec⟩ :=
      loadRows_spec ((loadable_passed_iff named.shape declared).mpr loadable)
    have absent := done.absent
    rw [removed] at absent
    dsimp only at absent
    rw [call_loadPolicy_ok served ok] at absent
    apply tidyIff.mp
    have missing := absent rfl
    rwa [spec.policy_of_clear, Grant.sec, if_pos rfl] at missing
  · intro tidy
    refine ⟨congrArg Outcome.result added, congrArg Outcome.result removed, ?_, ?_⟩
    · rw [removed]
      intro reloaded completes
      have ok := (call_loadPolicy_completes_iff served model reloaded.model).mp ⟨completes, rfl⟩
      have loadable := (loadable_passed_iff named.shape declared).mp (loadable_of_loadRows ok)
      rw [(loadedFrom_of_ok ok).policy_of_clear]
      split
      · exact tidyIff.mpr (tidy loadable)
      · exact List.not_mem_nil
    · intro other elsewhere
      have different : other ≠ key := fun same => elsewhere (congrArg Prod.fst same)
      rw [removed]
      simp only [Database.table_put_of_ne _ _ different]

end

/-- After a successful constructor all texts address one relation, and a grant that
is added and removed is gone, exactly when that relation lies in `polarity` and no
other row of it denotes the grant. -/
theorem constructed_oneRelation_iff {start model : Model} {catalogue : Database}
    (shaped : Shaped catalogue) (constructed : (call construct [] start catalogue).result = .ok ())
    {key : RelName} {relation : Relation}
    (resolved : (call construct [] start catalogue).db.resolve plainRef = some key)
    (stored : (call construct [] start catalogue).db.table key = some relation)
    {g : Grant} (declared : model.Declares g.sec g.ptype) :
    let db := (call construct [] start catalogue).db
    (OneRelation db key ∧ AddThenRemove model db key g) ↔
      key.1 = ascii "polarity" ∧
        (Loadable model (content relation) → Tidy (content relation) g.ptype g.rule) := by
  intro db
  have name : key.2 = tableName := (name_of_resolve resolved).1
  have shape := construct_shaped shaped constructed key relation stored name
  have named : Serves db plainRef key relation := ⟨resolved, stored, shape⟩
  constructor
  · rintro ⟨one, done⟩
    have qualified : db.resolve polarityRef = some key := (oneRelation_iff resolved).mp one
    refine ⟨?_, (addThenRemove_iff named ⟨qualified, stored, shape⟩ declared).mp done⟩
    exact (name_of_resolve qualified).2 (ascii "polarity") rfl
  · rintro ⟨schema, tidy⟩
    have qualified : db.resolve polarityRef = some key := by
      have here : (ascii "polarity", tableName) ∈ db.relations := by
        rw [← schema, ← name]
        exact Database.mem_of_resolve resolved
      unfold Database.resolve polarityRef
      dsimp only
      rw [if_pos here, ← schema, ← name]
    exact ⟨(oneRelation_iff resolved).mpr qualified,
      (addThenRemove_iff named ⟨qualified, stored, shape⟩ declared).mpr tidy⟩

/-- The table in `polarity` alone. -/
theorem constructed_oneRelation_polarity :
    let catalogue := singleTable (ascii "polarity") (Relation.empty tableColumns)
    let db := (call construct [] (rbacModel [] []) catalogue).db
    OneRelation db (ascii "polarity", tableName) ∧
      AddThenRemove (rbacModel [] []) db (ascii "polarity", tableName) aliceReads := by
  intro catalogue db
  have bare : Shaped ⟨[ascii "polarity"], [ascii "polarity"], ∅⟩ := fun _ _ found _ => by
    cases found
  have shaped : Shaped catalogue := bare.put (ascii "polarity", tableName) rfl
  have constructed : (call construct [] (rbacModel [] []) catalogue).result = .ok () := by
    decide +kernel
  have resolved : db.resolve plainRef = some (ascii "polarity", tableName) := by decide +kernel
  have stored : db.table (ascii "polarity", tableName) = some (Relation.empty tableColumns) := by
    decide +kernel
  apply (constructed_oneRelation_iff shaped constructed resolved stored (by decide)).mpr
  refine ⟨rfl, fun _ cells member _ => ?_⟩
  cases member

/-- On a database with the schema `public` alone the migrator creates the table
there, a grant is stored, and its removal fails. -/
theorem removal_misses_public :
    let catalogue : Database := ⟨[ascii "public"], [ascii "public"], ∅⟩
    let constructed := call construct [] (rbacModel [] []) catalogue
    constructed.result = .ok () ∧
      constructed.db.resolve plainRef = some (ascii "public", tableName) ∧
      (afterAdd (rbacModel [] []) constructed.db aliceReads).result = .ok () ∧
      (afterRemove (rbacModel [] []) constructed.db aliceReads).result =
        .error (.sql .undefinedTable) := by
  decide +kernel

end Casbinex.Adapter
