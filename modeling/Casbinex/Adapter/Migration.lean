import Casbinex.Adapter.OneRelation

/-!
# What the migrations reach

The column query counts the columns of every relation named `casbin_rule`, in
whatever schema, while `CREATE` and `ALTER` act on the one the name resolves to.
The count is 0 if there is none and 8 if there is just one and it is an old one; in
all other cases the migrator leaves the catalogue as it is.
-/

namespace Casbinex.Adapter

open Casbinex.Program
open Casbinex.Program.Prog
open Casbinex.Sql

/-- The columns before `v6` was added. -/
def oldColumns : List Column := tableColumns.take 8

/-- Every relation named `casbin_rule` is an old one or a current one. -/
def Versioned (db : Database) : Prop :=
  ∀ key relation, db.table key = some relation → key.2 = tableName →
    relation.columns = oldColumns ∨ relation.columns = tableColumns

/-! ## The count -/

/-- The relations named `casbin_rule`, in whatever schema. -/
def ruleTables (db : Database) : List (Σ _ : RelName, Relation) :=
  db.relations.entries.filter fun entry => entry.1.2 == tableName

theorem mem_ruleTables {db : Database} {key : RelName} {relation : Relation} :
    ⟨key, relation⟩ ∈ ruleTables db ↔ db.table key = some relation ∧ key.2 = tableName := by
  unfold ruleTables
  rw [List.mem_filter, beq_iff_eq]
  exact and_congr_left fun _ => AList.mem_lookup_iff.symm

theorem ruleTables_eq_nil_iff (db : Database) :
    ruleTables db = [] ↔ ∀ key ∈ db.relations, key.2 ≠ tableName := by
  rw [List.eq_nil_iff_forall_not_mem]
  constructor
  · intro none key present named
    obtain ⟨relation, stored⟩ := (db.mem_relations_iff key).mp present
    exact none ⟨key, relation⟩ (mem_ruleTables.mpr ⟨stored, named⟩)
  · rintro absent ⟨key, relation⟩ member
    obtain ⟨stored, named⟩ := mem_ruleTables.mp member
    exact absent key ((db.mem_relations_iff key).mpr ⟨relation, stored⟩) named

/-- The only relation of that name is a given one. -/
theorem ruleTables_eq_singleton_iff {db : Database} {key : RelName} {relation : Relation} :
    ruleTables db = [⟨key, relation⟩] ↔ db.table key = some relation ∧ key.2 = tableName ∧
      ∀ other ∈ db.relations, other.2 = tableName → other = key := by
  constructor
  · intro one
    have member : ⟨key, relation⟩ ∈ ruleTables db := one ▸ List.mem_singleton_self _
    obtain ⟨stored, named⟩ := mem_ruleTables.mp member
    refine ⟨stored, named, fun other present also => ?_⟩
    obtain ⟨second, found⟩ := (db.mem_relations_iff other).mp present
    have inside := mem_ruleTables.mpr ⟨found, also⟩
    rw [one, List.mem_singleton] at inside
    exact congrArg Sigma.fst inside
  · rintro ⟨stored, named, only⟩
    have member : ⟨key, relation⟩ ∈ ruleTables db := mem_ruleTables.mpr ⟨stored, named⟩
    have distinct : (ruleTables db).Nodup := db.relations.nodupKeys.nodup.filter _
    refine List.perm_singleton.mp ((List.perm_ext_iff_of_nodup distinct
      (List.nodup_singleton _)).mpr fun entry => ?_)
    obtain ⟨other, second⟩ := entry
    rw [List.mem_singleton]
    constructor
    · intro inside
      obtain ⟨found, also⟩ := mem_ruleTables.mp inside
      obtain rfl := only other ((db.mem_relations_iff other).mpr ⟨second, found⟩) also
      rw [stored, Option.some.injEq] at found
      rw [found]
    · rintro same
      exact same ▸ member

/-- How many columns the relations of that name have between them. -/
def columnCount (db : Database) : Nat :=
  ((ruleTables db).map fun entry => entry.2.columns.length).sum

/-- The rows of `information_schema.columns` that belong to one relation. -/
def columnRows (entry : Σ _ : RelName, Relation) : List Row :=
  entry.2.columns.map fun column => [some entry.1.1, some entry.1.2, some column.name]

theorem selects_columnRow (names : List Name) (schema table name : Name)
    (known : cell names [some schema, some table, some name] (ascii "table_name") = some table) :
    Cond.selects names [.eq (ascii "table_name") tableName] [some schema, some table, some name] =
      (table == tableName) := by
  have exact := Cond.selects_iff names [.eq (ascii "table_name") tableName]
    [some schema, some table, some name]
  rw [List.forall_mem_singleton, Cond.truth_eq_iff, known, Option.some.injEq] at exact
  exact Bool.eq_iff_iff.mpr (exact.trans beq_iff_eq.symm)

theorem length_filter_columnRows (db : Database) (entries : List (Σ _ : RelName, Relation)) :
    ((entries.flatMap columnRows).filter
        (Cond.selects db.columnsView.names [.eq (ascii "table_name") tableName])).length =
      ((entries.filter fun entry => entry.1.2 == tableName).map
        fun entry => entry.2.columns.length).sum := by
  induction entries with
  | nil => rfl
  | cons entry more ih =>
      have own : (columnRows entry).filter
            (Cond.selects db.columnsView.names [.eq (ascii "table_name") tableName]) =
          if entry.1.2 == tableName then columnRows entry else [] := by
        have each (row : Row) (member : row ∈ columnRows entry) :
            Cond.selects db.columnsView.names [.eq (ascii "table_name") tableName] row =
              (entry.1.2 == tableName) := by
          obtain ⟨column, _, rfl⟩ := List.mem_map.mp member
          exact selects_columnRow _ _ _ _ rfl
        rw [List.filter_congr each]
        cases entry.1.2 == tableName <;> simp
      rw [List.flatMap_cons, List.filter_append, List.length_append, ih, own, List.filter_cons]
      cases entry.1.2 == tableName with
      | true => simp [columnRows]
      | false => simp

/-- The column query answers one row for each column of these relations. -/
theorem execText_columnQuery_length (db : Database) :
    ∃ rows, db.execText columnQuery = .ok (rows, db) ∧ rows.length = columnCount db := by
  have known : [ascii "column_name"].all db.columnsView.knows = true := rfl
  have tested : [Cond.eq (ascii "table_name") tableName].all
      (fun cond => db.columnsView.knows cond.column) = true := rfl
  simp only [Database.execText, parse_columnQuery, Database.exec, if_true, Relation.select, known,
    tested, Bool.and_self]
  refine ⟨_, rfl, ?_⟩
  rw [List.length_map]
  exact length_filter_columnRows db db.relations.entries

/-- The count tells no table and one old table from everything else. -/
theorem columns_count_cases {db : Database} (versioned : Versioned db) :
    (ruleTables db = [] ∧ columnCount db = 0) ∨
    (∃ key relation, ruleTables db = [⟨key, relation⟩] ∧ relation.columns = oldColumns ∧
      columnCount db = 8) ∨
    8 < columnCount db := by
  unfold columnCount
  have sizes : ∀ entry ∈ ruleTables db, entry.2.columns.length = 8 ∨
      entry.2.columns.length = 9 := by
    rintro ⟨key, relation⟩ member
    obtain ⟨stored, named⟩ := mem_ruleTables.mp member
    rcases versioned key relation stored named with old | current
    · exact Or.inl (congrArg List.length old)
    · exact Or.inr (congrArg List.length current)
  rcases tables : ruleTables db with _ | ⟨first, _ | ⟨second, more⟩⟩
  · exact Or.inl ⟨rfl, rfl⟩
  · obtain ⟨key, relation⟩ := first
    right
    have member : ⟨key, relation⟩ ∈ ruleTables db := tables ▸ List.mem_singleton_self _
    obtain ⟨stored, named⟩ := mem_ruleTables.mp member
    rcases versioned key relation stored named with old | current
    · exact Or.inl ⟨key, relation, rfl, old, by simp [old, oldColumns, tableColumns]⟩
    · exact Or.inr (by simp [current, tableColumns])
  · right
    right
    have one := sizes first (tables ▸ List.mem_cons_self)
    have two := sizes second (tables ▸ List.mem_cons_of_mem _ List.mem_cons_self)
    simp only [List.map_cons, List.sum_cons]
    omega

/-! ## The three outcomes -/

theorem call_migration (query : Bytes) (model : Model) (db : Database) :
    call (migration query) [] model db =
      match db.execText query with
      | .error error => ⟨.error (.sql error), model, db, []⟩
      | .ok (_, changed) => ⟨.ok (), model, changed, []⟩ := by
  unfold call
  rw [run_migration]
  cases db.execText query <;> rfl

/-- The count decides which of the two texts is executed. -/
theorem call_runMigrations (model : Model) (db : Database) :
    call runMigrations [] model db =
      if columnCount db = 0 then call (migration createQuery) [] model db
      else if columnCount db = 8 then call (migration addV6Query) [] model db
      else ⟨.ok (), model, db, []⟩ := by
  obtain ⟨rows, queried, size⟩ := execText_columnQuery_length db
  have checkout : run machine runMigrations [] (Store.idle model db) =
      run machine construct [] (Store.idle model db) := by
    unfold construct
    rw [issue, perform_bind, run_op_nil]
    rfl
  unfold call
  rw [checkout, run_construct, queried]
  dsimp only
  rw [run_migrate, size]
  split
  · rfl
  · split <;> rfl

/-- The old table with its new column. -/
theorem addColumn_v6 {relation : Relation} (old : relation.columns = oldColumns) :
    ∃ altered, relation.addColumn (ascii "v6") = .ok altered ∧
      altered.columns = tableColumns ∧ altered.rows = relation.rows.map (· ++ [none]) := by
  have unknown : relation.knows (ascii "v6") = false := by
    unfold Relation.knows Relation.names
    rw [old]
    decide
  unfold Relation.addColumn
  rw [if_neg (by rw [unknown]; exact Bool.false_ne_true)]
  exact ⟨_, rfl, congrArg (· ++ [⟨ascii "v6", false⟩]) old, rfl⟩

/-- The relation holds the rows that were there, with NULL in a new column, and the
loader reads the same tokens off them. -/
structure Keeps (before : Option Relation) (relation : Relation) : Prop where
  fresh : before = none → relation.rows = []
  rows : ∀ old ∈ before, relation.rows =
    if old.columns = oldColumns then old.rows.map (· ++ [none]) else old.rows
  lines : ∀ old ∈ before, (content relation).map policyLine = (content old).map policyLine

theorem keeps_of_none {relation : Relation} (empty : relation.rows = []) :
    Keeps none relation where
  fresh _ := empty
  rows old none := by cases none
  lines old none := by cases none

theorem policyLine_append_none (row : Row) : policyLine (row ++ [none]) = policyLine row := by
  simp [policyLine, List.reduceOption_append]

theorem keeps_of_widened {old relation : Relation} (columns : old.columns = oldColumns)
    (rows : relation.rows = old.rows.map (· ++ [none])) : Keeps (some old) relation where
  fresh none := by cases none
  rows other same := by
    cases same
    rw [if_pos columns, rows]
  lines other same := by
    cases same
    unfold content
    rw [rows, List.map_map, List.map_map, List.map_map]
    apply List.map_congr_left
    intro row member
    have eight : row.length = 8 := (old.aligned row member).trans (congrArg List.length columns)
    cases row with
    | nil => cases eight
    | cons id cells => exact policyLine_append_none cells

theorem keeps_of_same {relation : Relation} (columns : relation.columns = tableColumns) :
    Keeps (some relation) relation where
  fresh none := by cases none
  rows other same := by
    cases same
    rw [if_neg (by rw [columns]; decide)]
  lines other same := by
    cases same
    rfl

section

variable {model : Model} {db : Database}

/-- A run of the migrations alone reaches the current schema and keeps the policy. -/
structure Migrated (model : Model) (db : Database) : Prop where
  returns : (call runMigrations [] model db).result = .ok ()
  current : ∃ key relation,
    Serves (call runMigrations [] model db).db plainRef key relation ∧
    Keeps (db.table key) relation ∧
    ∀ other, other ≠ key → (call runMigrations [] model db).db.table other = db.table other
  again : ∀ other, call runMigrations [] other (call runMigrations [] model db).db =
    ⟨.ok (), other, (call runMigrations [] model db).db, []⟩

/-- Where a current table is, the migrator changes nothing. -/
theorem call_runMigrations_current (versioned : Versioned db) {key : RelName}
    {relation : Relation} (stored : db.table key = some relation) (named : key.2 = tableName)
    (current : relation.columns = tableColumns) (model : Model) :
    call runMigrations [] model db = ⟨.ok (), model, db, []⟩ := by
  have member : ⟨key, relation⟩ ∈ ruleTables db := mem_ruleTables.mpr ⟨stored, named⟩
  rw [call_runMigrations]
  rcases columns_count_cases versioned with
    ⟨none, _⟩ | ⟨other, second, one, old, _⟩ | many
  · rw [none] at member
    cases member
  · rw [one, List.mem_singleton] at member
    cases member
    exact absurd (old.symm.trans current) (by decide)
  · rw [if_neg (by omega), if_neg (by omega)]

theorem Versioned.put (versioned : Versioned db) (key : RelName) {relation : Relation}
    (current : relation.columns = tableColumns) : Versioned (db.put key relation) := by
  intro other second found named
  by_cases same : other = key
  · subst same
    rw [Database.table_put_self, Option.some.injEq] at found
    exact Or.inr (found ▸ current)
  · rw [Database.table_put_of_ne _ _ same] at found
    exact versioned other second found named

/-- `CREATE` makes the table where its schema has none. -/
theorem execText_createQuery_absent {schema : Name}
    (home : db.creationSchema plainRef = some schema)
    (absent : (schema, tableName) ∉ db.relations) :
    db.execText createQuery =
      .ok ([], db.put (schema, tableName) (Relation.empty tableColumns)) := by
  simp only [Database.execText, parse_createQuery, Database.exec, home]
  exact if_neg absent

/-- `ALTER` adds the column to the old table that the name resolves to. -/
theorem execText_addV6Query_old {key : RelName} {relation : Relation}
    (resolved : db.resolve plainRef = some key) (stored : db.table key = some relation)
    (old : relation.columns = oldColumns) :
    ∃ altered, db.execText addV6Query = .ok ([], db.put key altered) ∧
      altered.columns = tableColumns ∧ Keeps (some relation) altered := by
  obtain ⟨altered, adds, current, rows⟩ := addColumn_v6 old
  have updated : db.update plainRef (fun relation => relation.addColumn (ascii "v6")) =
      .ok (db.put key altered) := Database.update_of_resolve resolved stored adds
  refine ⟨altered, ?_, current, keeps_of_widened old rows⟩
  simp only [Database.execText, parse_addV6Query, Database.exec, updated]
  rfl

/-- Without any table of that name the name resolves to the one that is created. -/
theorem resolve_created {schema : Name} (home : db.creationSchema plainRef = some schema)
    (absent : ∀ key ∈ db.relations, key.2 ≠ tableName) (relation : Relation) :
    (db.put (schema, tableName) relation).resolve plainRef = some (schema, tableName) := by
  have inPath : schema ∈ db.searchPath := List.mem_of_find?_eq_some home
  have only (other : Name) :
      (other, tableName) ∈ (db.put (schema, tableName) relation).relations ↔ other = schema := by
    change _ ∈ db.relations.insert _ _ ↔ _
    rw [AList.mem_insert, Prod.mk.injEq]
    exact ⟨fun present => present.elim And.left fun old => absurd rfl (absent _ old),
      fun same => Or.inl ⟨same, rfl⟩⟩
  exact Database.resolve_of_only inPath only

/-- Without a table the migrator creates one. -/
theorem migrated_of_absent (creatable : db.creationSchema plainRef ≠ none)
    (absent : ∀ key ∈ db.relations, key.2 ≠ tableName) (model : Model) : Migrated model db := by
  obtain ⟨schema, home⟩ := Option.ne_none_iff_exists'.mp creatable
  have count : columnCount db = 0 := by
    rw [columnCount, (ruleTables_eq_nil_iff db).mpr absent]
    rfl
  have missing : (schema, tableName) ∉ db.relations := fun present => absent _ present rfl
  have created := execText_createQuery_absent home missing
  have ended : call runMigrations [] model db =
      ⟨.ok (), model, db.put (schema, tableName) (Relation.empty tableColumns), []⟩ := by
    rw [call_runMigrations, if_pos count, call_migration, created]
  have versioned : Versioned db := fun key relation stored named =>
    absurd named (absent key ((db.mem_relations_iff key).mpr ⟨relation, stored⟩))
  have stored := db.table_put_self (schema, tableName) (Relation.empty tableColumns)
  refine ⟨congrArg Outcome.result ended, ?_, fun other => ?_⟩
  · rw [ended]
    refine ⟨(schema, tableName), _, ⟨resolve_created home absent _, stored, rfl⟩, ?_,
      fun other away => db.table_put_of_ne _ away⟩
    have nothing : db.table (schema, tableName) = none := AList.lookup_eq_none.mpr missing
    rw [nothing]
    exact keeps_of_none rfl
  · rw [ended]
    exact call_runMigrations_current (versioned.put _ rfl) stored rfl rfl other

/-- A single old table that the name resolves to gets its new column. -/
theorem migrated_of_old {key : RelName} {relation : Relation}
    (one : ruleTables db = [⟨key, relation⟩]) (old : relation.columns = oldColumns)
    (resolved : db.resolve plainRef = some key) (model : Model) : Migrated model db := by
  obtain ⟨stored, named, only⟩ := ruleTables_eq_singleton_iff.mp one
  obtain ⟨altered, executed, current, keeps⟩ := execText_addV6Query_old resolved stored old
  have count : columnCount db = 8 := by
    rw [columnCount, one, List.map_singleton, List.sum_singleton, old]
    rfl
  have ended : call runMigrations [] model db = ⟨.ok (), model, db.put key altered, []⟩ := by
    rw [call_runMigrations, if_neg (by omega), if_pos count, call_migration, executed]
  have versioned : Versioned db := by
    intro other second found also
    obtain rfl := only other ((db.mem_relations_iff other).mpr ⟨second, found⟩) also
    rw [stored, Option.some.injEq] at found
    exact Or.inl (found ▸ old)
  refine ⟨congrArg Outcome.result ended, ?_, fun other => ?_⟩
  · rw [ended]
    refine ⟨key, altered, ⟨?_, db.table_put_self key altered, current⟩, ?_,
      fun other away => db.table_put_of_ne _ away⟩
    · rw [Database.resolve_put_of_mem _ (Database.mem_of_resolve resolved)]
      exact resolved
    · rw [stored]
      exact keeps
  · rw [ended]
    exact call_runMigrations_current (versioned.put _ current) (db.table_put_self key altered)
      named current other

/-- A current table that the name resolves to stays as it is. -/
theorem migrated_of_current (versioned : Versioned db) {key : RelName} {relation : Relation}
    (resolved : db.resolve plainRef = some key) (stored : db.table key = some relation)
    (current : relation.columns = tableColumns) (model : Model) : Migrated model db := by
  have ended (other : Model) : call runMigrations [] other db = ⟨.ok (), other, db, []⟩ :=
    call_runMigrations_current versioned stored (name_of_resolve resolved).1 current other
  refine ⟨congrArg Outcome.result (ended model), ?_, fun other => ?_⟩
  · rw [ended]
    refine ⟨key, relation, ⟨resolved, stored, current⟩, ?_, fun other _ => rfl⟩
    rw [stored]
    exact keeps_of_same current
  · rw [ended]
    exact ended other

/-- A single old table out of reach of the name makes `ALTER` fail. -/
theorem not_migrated_of_unresolved (unresolved : db.resolve plainRef = none)
    (count : columnCount db = 8) (model : Model) : ¬ Migrated model db := by
  have failing : db.execText addV6Query = .error .undefinedTable := by
    simp only [Database.execText, parse_addV6Query, Database.exec, Database.update,
      Database.fetch, unresolved]
    rfl
  intro migrated
  have returns := migrated.returns
  rw [call_runMigrations, if_neg (by omega), if_pos count, call_migration, failing] at returns
  cases returns

/-- Where the migrator counts more than eight columns and the name resolves to the only
table or to a current one, it is a current one. -/
theorem current_of_many (versioned : Versioned db) (many : 8 < columnCount db) {key : RelName}
    {relation : Relation} (stored : db.table key = some relation) (named : key.2 = tableName)
    (fits : relation.columns = tableColumns ∨
      ∀ other ∈ db.relations, other.2 = tableName → other = key) :
    relation.columns = tableColumns := by
  rcases fits with current | only
  · exact current
  · rcases versioned key relation stored named with old | current
    · have one := ruleTables_eq_singleton_iff.mpr ⟨stored, named, only⟩
      rw [columnCount, one, List.map_singleton, List.sum_singleton, old] at many
      exact absurd many (by decide)
    · exact current

/-- A run of the migrations reaches the current schema exactly when no schema holds a
table of that name, or the name resolves to a current one, or it resolves to an old one
and no other schema holds one. -/
theorem migrated_iff (versioned : Versioned db) (creatable : db.creationSchema plainRef ≠ none)
    (model : Model) :
    Migrated model db ↔
      (∀ key ∈ db.relations, key.2 ≠ tableName) ∨
      ∃ key relation, db.resolve plainRef = some key ∧ db.table key = some relation ∧
        (relation.columns = tableColumns ∨
          ∀ other ∈ db.relations, other.2 = tableName → other = key) := by
  rcases columns_count_cases versioned with
    ⟨none, _⟩ | ⟨key, relation, one, old, count⟩ | many
  · have absent := (ruleTables_eq_nil_iff db).mp none
    exact iff_of_true (migrated_of_absent creatable absent model) (Or.inl absent)
  · obtain ⟨stored, named, only⟩ := ruleTables_eq_singleton_iff.mp one
    have present : key ∈ db.relations := (db.mem_relations_iff key).mpr ⟨relation, stored⟩
    by_cases resolved : db.resolve plainRef = some key
    · exact iff_of_true (migrated_of_old one old resolved model)
        (Or.inr ⟨key, relation, resolved, stored, Or.inr only⟩)
    · -- the only table is out of reach of the name
      have unresolved : db.resolve plainRef = none := by
        cases found : db.resolve plainRef with
        | none => rfl
        | some other =>
            have same := only other (Database.mem_of_resolve found) (name_of_resolve found).1
            exact absurd (same ▸ found) resolved
      refine iff_of_false (not_migrated_of_unresolved unresolved count model) ?_
      rintro (absent | ⟨other, second, found, _⟩)
      · exact absent key present named
      · rw [unresolved] at found
        cases found
  · constructor
    · intro migrated
      have ended : call runMigrations [] model db = ⟨.ok (), model, db, []⟩ := by
        rw [call_runMigrations, if_neg (by omega), if_neg (by omega)]
      obtain ⟨key, relation, serves, _⟩ := migrated.current
      rw [ended] at serves
      exact Or.inr ⟨key, relation, serves.resolved, serves.stored, Or.inl serves.shape⟩
    · rintro (absent | ⟨key, relation, resolved, stored, fits⟩)
      · rw [columnCount, (ruleTables_eq_nil_iff db).mpr absent] at many
        cases many
      · have current := current_of_many versioned many stored (name_of_resolve resolved).1 fits
        exact migrated_of_current versioned resolved stored current model

end

/-- An old table with the row of one grant. -/
def oldTable : Relation :=
  (Relation.empty oldColumns).append (oldColumns.tail.map Column.name)
    ((some aliceReads.ptype :: (List.range 6).map (aliceReads.rule[·]?)))

/-- The old table in `polarity` alone. -/
theorem migrated_singleTable :
    Migrated (rbacModel [] []) (singleTable (ascii "polarity") oldTable) := by
  have only (key : RelName) (present : key ∈ (singleTable (ascii "polarity") oldTable).relations) :
      key = (ascii "polarity", tableName) := by
    rcases (AList.mem_insert _).mp present with same | old
    · exact same
    · cases old
  have versioned : Versioned (singleTable (ascii "polarity") oldTable) := by
    intro key relation stored named
    obtain rfl := only key ((Database.mem_relations_iff _ _).mpr ⟨relation, stored⟩)
    rw [table_singleTable, Option.some.injEq] at stored
    exact Or.inl (stored ▸ rfl)
  refine (migrated_iff versioned (by decide +kernel) _).mpr (Or.inr ?_)
  exact ⟨_, oldTable, by decide +kernel, table_singleTable _ _,
    Or.inr fun other present _ => only other present⟩

/-- A current table in a schema off the search path: no table is created, and the name
resolves to nothing. -/
theorem migration_misled_by_other_schema :
    let catalogue : Database := ⟨[ascii "public", ascii "archive"], [ascii "public"],
      (∅ : AList fun _ : RelName => Relation).insert (ascii "archive", tableName)
        (Relation.empty tableColumns)⟩
    catalogue.creationSchema plainRef = some (ascii "public") ∧
      (call runMigrations [] (rbacModel [] []) catalogue).result = .ok () ∧
      (call runMigrations [] (rbacModel [] []) catalogue).db.resolve plainRef = none ∧
      ¬ Migrated (rbacModel [] []) catalogue := by
  intro catalogue
  have nowhere :
      (call runMigrations [] (rbacModel [] []) catalogue).db.resolve plainRef = none := by
    decide +kernel
  refine ⟨by decide +kernel, by decide +kernel, nowhere, fun migrated => ?_⟩
  obtain ⟨key, relation, serves, _⟩ := migrated.current
  exact absurd (nowhere.symm.trans serves.resolved) nofun

end Casbinex.Adapter
