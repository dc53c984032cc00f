import Casbinex.Adapter.Migration
import Casbinex.Program.Threads

/-!
# Concurrent migrations

Many processes construct an adapter on one database.  Each runs its column query, and
then perhaps its `CREATE` or its `ALTER`, in transactions of their own.  A table that was
just created does no harm to a late `CREATE IF NOT EXISTS`; a column that was just added
makes a late `ALTER` fail.
-/

namespace Casbinex.Adapter

open Casbinex.Program
open Casbinex.Program.Prog
open Casbinex.Sql

/-- A process that constructs an adapter, between its transactions. -/
inductive Node where
  | starting
  | migrating (rest : AdapterProg Unit)
  | ended (result : Except Failure Unit)

namespace Node

def isStarting : Node → Bool
  | .starting => true
  | _ => false

def isMigrating : Node → Bool
  | .migrating _ => true
  | _ => false

def hasThrown : Node → Bool
  | .ended (.error _) => true
  | _ => false

end Node

/-- The next transaction of a constructor on the committed database; one that throws
is rolled back and ends the constructor. -/
def transact (rest : AdapterProg Unit) (db : Database) : Database × Node :=
  match runTo machine Instr.commits rest (Store.idle ∅ db) with
  | .error failure => (db, .ended (.error failure))
  | .ok (.ret (), store) => (store.session.db, .ended (.ok ()))
  | .ok (rest, store) => (store.session.db, .migrating rest)

/-- Any number of processes, a transaction in each step. -/
def migrators : System Database Node Unit Unit where
  spawn _ := .starting
  advance _ db
    | .starting => some (transact construct db)
    | .migrating rest => some (transact rest db)
    | .ended _ => none

/-- Whether the name resolves to a table without `v6`. -/
def holdsOld (db : Database) : Bool :=
  match db.fetch plainRef with
  | .ok (_, relation) => relation.columns == oldColumns
  | .error _ => false

/-- A process that finds the old table finds no other one in the middle of its migration. -/
def InTurn (config : Config Database Node) : Act Unit Unit → Prop
  | .start _ => True
  | .step index _ => config.threads[index]?.any Node.isStarting = true →
      holdsOld config.shared = true → ∀ node ∈ config.threads, node.isMigrating = false

/-! ## The transactions of one process -/

/-- What is left after the `CREATE` or the `ALTER`: two scopes end. -/
def closing : AdapterProg Unit := issue .endWork >>= fun _ => issue .endWork

/-- The scope of the column query's transaction is always left to end. -/
theorem migrate_unfinished (columns : Nat) : ∃ i next, migrate columns = .op i next := by
  unfold migrate
  split <;> split <;> exact ⟨_, _, rfl⟩

theorem transact_construct (db : Database) :
    transact construct db = (db, .migrating (migrate (columnCount db))) := by
  obtain ⟨rows, queried, size⟩ := execText_columnQuery_length db
  unfold transact construct
  rw [runMigrations_eq]
  simp only [issue, perform_bind, runTo, machine, Store.step, Session.beginWork, Store.onSession,
    Store.idle, Session.idle, Session.exec, queried, Session.commit, Instr.commits,
    if_neg Bool.false_ne_true, if_true, size]
  obtain ⟨i, next, form⟩ := migrate_unfinished (columnCount db)
  rw [form]

theorem transact_migrate {columns : Nat} {query : Bytes}
    (next : migrate columns = migration query >>= fun _ => issue .endWork) (db : Database) :
    transact (migrate columns) db =
      match db.execText query with
      | .error error => (db, .ended (.error (.sql error)))
      | .ok (_, changed) => (changed, .migrating closing) := by
  unfold transact
  rw [next]
  unfold migration
  simp only [issue, perform_bind, op_bind, runTo, machine, Store.step, Session.beginWork,
    Store.onSession, Store.idle, Session.idle, Session.exec, Session.commit, Instr.commits,
    if_neg Bool.false_ne_true]
  cases db.execText query with
  | error error => rfl
  | ok pair => rfl

theorem migrate_zero : migrate 0 = migration createQuery >>= fun _ => issue .endWork := rfl

theorem migrate_eight : migrate 8 = migration addV6Query >>= fun _ => issue .endWork := rfl

theorem transact_pass {columns : Nat} (some : columns ≠ 0) (other : columns ≠ 8) (db : Database) :
    transact (migrate columns) db = (db, .ended (.ok ())) := by
  unfold migrate
  rw [if_neg some, if_neg other]
  rfl

theorem transact_closing (db : Database) : transact closing db = (db, .ended (.ok ())) := rfl

/-! ## A database with one schema -/

/-- One schema, on the search path, holds all relations. -/
structure OneSchema (db : Database) (schema : Name) : Prop where
  only : db.schemas = [schema]
  onPath : schema ∈ db.searchPath
  inside : ∀ key ∈ db.relations, key.1 = schema

namespace OneSchema

variable {db : Database} {schema : Name} {relation : Relation}

theorem creationSchema (one : OneSchema db schema) :
    db.creationSchema plainRef = some schema := by
  refine Database.find?_of_only one.onPath ?_ fun other passes => ?_
  · rw [one.only]
    exact decide_eq_true (List.mem_singleton_self schema)
  · have member := of_decide_eq_true passes
    rw [one.only] at member
    exact List.mem_singleton.mp member

theorem put (one : OneSchema db schema) (relation : Relation) :
    OneSchema (db.put (schema, tableName) relation) schema where
  only := one.only
  onPath := one.onPath
  inside key present := by
    rcases (AList.mem_insert _).mp present with rfl | old
    · rfl
    · exact one.inside key old

theorem only_key (one : OneSchema db schema) {key : RelName} (present : key ∈ db.relations)
    (named : key.2 = tableName) : key = (schema, tableName) :=
  Prod.ext (one.inside key present) named

theorem count_of_absent (one : OneSchema db schema)
    (absent : db.table (schema, tableName) = none) : columnCount db = 0 := by
  have nothing : ruleTables db = [] := by
    refine (ruleTables_eq_nil_iff db).mpr fun key present named => ?_
    rw [one.only_key present named] at present
    exact AList.lookup_eq_none.mp absent present
  rw [columnCount, nothing]
  rfl

theorem count_of_table (one : OneSchema db schema)
    (stored : db.table (schema, tableName) = some relation) :
    columnCount db = relation.columns.length := by
  have single := ruleTables_eq_singleton_iff.mpr
    ⟨stored, rfl, fun other present named => one.only_key present named⟩
  rw [columnCount, single, List.map_singleton, List.sum_singleton]

theorem resolve_of_table (one : OneSchema db schema)
    (stored : db.table (schema, tableName) = some relation) :
    db.resolve plainRef = some (schema, tableName) := by
  refine Database.resolve_of_only one.onPath fun other => ⟨one.inside _, ?_⟩
  rintro rfl
  exact (db.mem_relations_iff _).mpr ⟨relation, stored⟩

theorem holdsOld_of_table (one : OneSchema db schema)
    (stored : db.table (schema, tableName) = some relation) (old : relation.columns = oldColumns) :
    holdsOld db = true := by
  unfold holdsOld
  rw [Database.fetch_of_resolve (one.resolve_of_table stored) stored]
  exact beq_iff_eq.mpr old

/-- `CREATE` changes nothing where the table is. -/
theorem execText_create_present (one : OneSchema db schema)
    (stored : db.table (schema, tableName) = some relation) :
    db.execText createQuery = .ok ([], db) := by
  simp only [Database.execText, parse_createQuery, Database.exec, one.creationSchema]
  exact if_pos ((db.mem_relations_iff _).mpr ⟨relation, stored⟩)

end OneSchema

/-! ## The three stages of the table -/

/-- There is no table and nobody has found one. -/
structure Absent (first : Option Relation) (schema : Name) (config : Config Database Node) :
    Prop where
  initial : first = none
  table : config.shared.table (schema, tableName) = none
  nodes : ∀ node ∈ config.threads, node = .starting ∨ node = .migrating (migrate 0)

/-- The table is the old one and at most one process has found it. -/
structure Old (first : Option Relation) (schema : Name) (config : Config Database Node) :
    Prop where
  table : config.shared.table (schema, tableName) = first
  columns : ∃ relation, first = some relation ∧ relation.columns = oldColumns
  nodes : ∀ node ∈ config.threads, node = .starting ∨ node = .migrating (migrate 8)
  alone : config.threads.countP Node.isMigrating ≤ 1

/-- A process that finds its work done, or does no harm. -/
inductive Harmless : Node → Prop
  | starting : Harmless .starting
  | creating : Harmless (.migrating (migrate 0))
  | passing : Harmless (.migrating (migrate 9))
  | closing : Harmless (.migrating closing)
  | returned : Harmless (.ended (.ok ()))

/-- The table is the current one. -/
structure Current (first : Option Relation) (schema : Name) (config : Config Database Node) :
    Prop where
  table : ∃ relation, config.shared.table (schema, tableName) = some relation ∧
    relation.columns = tableColumns ∧ Keeps first relation
  nodes : ∀ node ∈ config.threads, Harmless node

/-- The invariant: one of the three stages. -/
structure Staged (first : Option Relation) (schema : Name) (config : Config Database Node) :
    Prop where
  one : OneSchema config.shared schema
  stage : Absent first schema config ∨ Old first schema config ∨ Current first schema config

/-- Without a table at the start, none is ever found old. -/
theorem Staged.of_none {schema : Name} {config : Config Database Node}
    (staged : Staged none schema config) :
    OneSchema config.shared schema ∧ (Absent none schema config ∨ Current none schema config) := by
  rcases staged with ⟨one, absent | old | current⟩
  · exact ⟨one, Or.inl absent⟩
  · obtain ⟨_, initial, _⟩ := old.columns
    cases initial
  · exact ⟨one, Or.inr current⟩

section

variable {first : Option Relation} {schema : Name} {db changed : Database}
  {front back : List Node} {node moved : Node}

/-- Step: while there is no table a process counts no columns or creates the table. -/
theorem step_absent (one : OneSchema db schema)
    (absent : Absent first schema ⟨db, front ++ node :: back⟩)
    (advanced : migrators.advance () db node = some (changed, moved)) :
    Staged first schema ⟨changed, front ++ moved :: back⟩ := by
  have table : db.table (schema, tableName) = none := absent.table
  rcases absent.nodes node (by simp) with rfl | rfl
  · simp only [migrators, transact_construct, one.count_of_absent table] at advanced
    cases advanced
    exact ⟨one, Or.inl ⟨absent.initial, table, forall_replaced absent.nodes (Or.inr rfl)⟩⟩
  · have created := execText_createQuery_absent one.creationSchema (AList.lookup_eq_none.mp table)
    simp only [migrators, transact_migrate migrate_zero, created] at advanced
    cases advanced
    refine ⟨one.put _, Or.inr (Or.inr ⟨⟨_, db.table_put_self _ _, rfl, ?_⟩, ?_⟩)⟩
    · rw [absent.initial]
      exact keeps_of_none rfl
    · have before : ∀ other ∈ front ++ .migrating (migrate 0) :: back, Harmless other := by
        intro other member
        rcases absent.nodes other member with rfl | rfl
        · exact .starting
        · exact .creating
      exact forall_replaced before .closing

/-- A process counts eight columns while nobody else is in the middle of its migration. -/
theorem count_old (old : Old first schema ⟨db, front ++ .starting :: back⟩)
    (alone : ∀ other ∈ front ++ .starting :: back, other.isMigrating = false) :
    Old first schema ⟨db, front ++ .migrating (migrate 8) :: back⟩ := by
  have nobody : (front ++ Node.starting :: back).countP Node.isMigrating = 0 :=
    List.countP_eq_zero.mpr fun other member => Bool.eq_false_iff.mp (alone other member)
  refine ⟨old.table, old.columns, forall_replaced old.nodes (Or.inr rfl), ?_⟩
  rw [List.countP_append, List.countP_cons] at nobody ⊢
  simp only [Node.isMigrating, if_true] at nobody ⊢
  omega

/-- The process that altered the table was the only one in the middle of its migration. -/
theorem harmless_altered (old : Old first schema ⟨db, front ++ .migrating (migrate 8) :: back⟩) :
    ∀ other ∈ front ++ .migrating closing :: back, Harmless other := by
  have others : (front ++ back).countP Node.isMigrating = 0 := by
    have alone := old.alone
    rw [List.countP_append, List.countP_cons] at alone
    rw [List.countP_append]
    simp only [Node.isMigrating, if_true] at alone
    omega
  have quiet := List.countP_eq_zero.mp others
  intro other member
  have cases : other = .migrating closing ∨ other ∈ front ++ back := by
    simpa [or_left_comm, or_comm, or_assoc] using member
  rcases cases with rfl | away
  · exact .closing
  · rcases old.nodes other (by simp at away ⊢; tauto) with rfl | rfl
    · exact .starting
    · exact absurd rfl (quiet _ away)

/-- Step: on the old table a process counts eight columns or adds the ninth. -/
theorem step_old (one : OneSchema db schema)
    (old : Old first schema ⟨db, front ++ node :: back⟩)
    (inTurn : InTurn ⟨db, front ++ node :: back⟩ (.step front.length ()))
    (advanced : migrators.advance () db node = some (changed, moved)) :
    Staged first schema ⟨changed, front ++ moved :: back⟩ := by
  obtain ⟨relation, initial, columns⟩ := old.columns
  have table : db.table (schema, tableName) = some relation := old.table.trans initial
  have count : columnCount db = 8 := by
    rw [one.count_of_table table, columns]
    rfl
  rcases old.nodes node (by simp) with rfl | rfl
  · simp only [migrators, transact_construct, count] at advanced
    cases advanced
    have found : (front ++ Node.starting :: back)[front.length]? = some .starting := by simp
    have alone := inTurn (by rw [found]; rfl) (one.holdsOld_of_table table columns)
    exact ⟨one, Or.inr (Or.inl (count_old old alone))⟩
  · obtain ⟨altered, adds, current, keeps⟩ :=
      execText_addV6Query_old (one.resolve_of_table table) table columns
    simp only [migrators, transact_migrate migrate_eight, adds] at advanced
    cases advanced
    rw [← initial] at keeps
    exact ⟨one.put _, Or.inr (Or.inr
      ⟨⟨altered, db.table_put_self _ _, current, keeps⟩, harmless_altered old⟩)⟩

/-- Step: the current table stays as it is. -/
theorem step_current (one : OneSchema db schema)
    (current : Current first schema ⟨db, front ++ node :: back⟩)
    (advanced : migrators.advance () db node = some (changed, moved)) :
    Staged first schema ⟨changed, front ++ moved :: back⟩ := by
  obtain ⟨relation, table, columns, keeps⟩ := current.table
  have stays {next : Node} (harmless : Harmless next)
      (same : some (db, next) = some (changed, moved)) :
      Staged first schema ⟨changed, front ++ moved :: back⟩ := by
    cases same
    exact ⟨one, Or.inr (Or.inr ⟨⟨relation, table, columns, keeps⟩,
      forall_replaced current.nodes harmless⟩)⟩
  cases current.nodes node (by simp) with
  | starting =>
      have count : columnCount db = 9 := by
        rw [one.count_of_table table, columns]
        rfl
      simp only [migrators, transact_construct, count] at advanced
      exact stays .passing advanced
  | creating =>
      simp only [migrators, transact_migrate migrate_zero,
        one.execText_create_present table] at advanced
      exact stays .closing advanced
  | passing =>
      simp only [migrators, transact_pass (by decide : 9 ≠ 0) (by decide : 9 ≠ 8)] at advanced
      exact stays .returned advanced
  | closing =>
      simp only [migrators, transact_closing] at advanced
      exact stays .returned advanced
  | returned => cases advanced

/-! ## New processes -/

section

variable {threads : List Node}

theorem Absent.start (absent : Absent first schema ⟨db, threads⟩) :
    Absent first schema ⟨db, threads ++ [.starting]⟩ :=
  ⟨absent.initial, absent.table, forall_started absent.nodes (Or.inl rfl)⟩

theorem Old.start (old : Old first schema ⟨db, threads⟩) :
    Old first schema ⟨db, threads ++ [.starting]⟩ := by
  refine ⟨old.table, old.columns, forall_started old.nodes (Or.inl rfl), ?_⟩
  rw [List.countP_append]
  exact old.alone

theorem Current.start (current : Current first schema ⟨db, threads⟩) :
    Current first schema ⟨db, threads ++ [.starting]⟩ :=
  ⟨current.table, forall_started current.nodes .starting⟩

theorem staged_start (one : OneSchema db schema)
    (initial : ∀ relation, db.table (schema, tableName) = some relation →
      relation.columns = oldColumns) :
    Staged (db.table (schema, tableName)) schema ⟨db, []⟩ := by
  refine ⟨one, ?_⟩
  cases stored : db.table (schema, tableName) with
  | none => exact Or.inl ⟨rfl, stored, nofun⟩
  | some relation =>
      exact Or.inr (Or.inl ⟨stored, ⟨relation, rfl, initial relation stored⟩, nofun, by simp⟩)

end

end

section

variable {first : Option Relation} {schema : Name} {config : Config Database Node}

theorem Absent.quiet (absent : Absent first schema config) :
    ∀ node ∈ config.threads, node.hasThrown = false := by
  intro node member
  rcases absent.nodes node member with rfl | rfl <;> rfl

theorem Old.quiet (old : Old first schema config) :
    ∀ node ∈ config.threads, node.hasThrown = false := by
  intro node member
  rcases old.nodes node member with rfl | rfl <;> rfl

theorem Current.quiet (current : Current first schema config) :
    ∀ node ∈ config.threads, node.hasThrown = false := by
  intro node member
  cases current.nodes node member <;> rfl

end

/-- Run: processes that start without a table migrate in any order. -/
theorem concurrent_creations_return {start : Database} {schema : Name}
    (one : OneSchema start schema) (absent : start.table (schema, tableName) = none)
    {last : Config Database Node} (run : Reachable migrators.Step ⟨start, []⟩ last) :
    ∀ node ∈ last.threads, node.hasThrown = false := by
  have staged : OneSchema last.shared schema ∧
      (Absent none schema last ∨ Current none schema last) := by
    refine migrators.run_invariant (fun config => OneSchema config.shared schema ∧
      (Absent none schema config ∨ Current none schema config)) ?_ ?_ ?_ run
    · rintro db threads _ ⟨one, stage⟩ _
      exact ⟨one, stage.imp Absent.start Current.start⟩
    · rintro db front node back _ changed moved ⟨one, absent | current⟩ _ advanced
      · exact (step_absent one absent advanced).of_none
      · exact (step_current one current advanced).of_none
    · exact ⟨one, Or.inl ⟨rfl, absent, nofun⟩⟩
  exact staged.2.elim Absent.quiet Current.quiet

/-- Run: if processes that find the old table migrate one after the other, no constructor
throws, and when all have returned the table is the current one with all its rows. -/
theorem concurrent_migrations_return {start : Database} {schema : Name}
    (one : OneSchema start schema)
    (initial : ∀ relation, start.table (schema, tableName) = some relation →
      relation.columns = oldColumns)
    {last : Config Database Node} (run : RunFrom migrators.Step InTurn ⟨start, []⟩ last) :
    (∀ node ∈ last.threads, node.hasThrown = false) ∧
    (last.threads ≠ [] → (∀ node ∈ last.threads, node = .ended (.ok ())) →
      ∃ relation, last.shared.table (schema, tableName) = some relation ∧
        relation.columns = tableColumns ∧ Keeps (start.table (schema, tableName)) relation) := by
  have staged : Staged (start.table (schema, tableName)) schema last := by
    refine migrators.run_invariant (Staged (start.table (schema, tableName)) schema) ?_ ?_ ?_ run
    · rintro db threads _ ⟨one, stage⟩ _
      exact ⟨one, stage.imp Absent.start (Or.imp Old.start Current.start)⟩
    · rintro db front node back _ changed moved ⟨one, absent | old | current⟩ inTurn advanced
      · exact step_absent one absent advanced
      · exact step_old one old inTurn advanced
      · exact step_current one current advanced
    · exact staged_start one initial
  constructor
  · exact staged.stage.elim Absent.quiet fun stage => stage.elim Old.quiet Current.quiet
  · intro some returned
    obtain ⟨node, member⟩ := List.exists_mem_of_ne_nil _ some
    have ended := returned node member
    rcases staged.stage with absent | old | current
    · rcases absent.nodes node member with same | same <;> cases same.symm.trans ended
    · rcases old.nodes node member with same | same <;> cases same.symm.trans ended
    · exact current.table

/-! ## Two processes on the old table -/

instance (config : Config Database Node) : DecidablePred (InTurn config)
  | .start _ => inferInstanceAs (Decidable True)
  | .step index _ => inferInstanceAs (Decidable (config.threads[index]?.any Node.isStarting = true →
      holdsOld config.shared = true → ∀ node ∈ config.threads, node.isMigrating = false))

def oldDatabase : Database := singleTable (ascii "polarity") oldTable

theorem oneSchema_oldDatabase : OneSchema oldDatabase (ascii "polarity") where
  only := rfl
  onPath := List.mem_singleton_self _
  inside key present := by
    rcases (AList.mem_insert _).mp present with rfl | old
    · rfl
    · cases old

/-- The second process counts the columns when the first has added the ninth. -/
theorem concurrent_migrations_return_inTurn :
    ∃ last, RunFrom migrators.Step InTurn ⟨oldDatabase, []⟩ last ∧
      last.threads.length = 2 ∧ ∀ node ∈ last.threads, node.hasThrown = false := by
  have computed : (follow (fun config act => decide (InTurn config act)) migrators.next
      ⟨oldDatabase, []⟩ [.start (), .start (), .step 0 (), .step 0 (), .step 1 (), .step 0 (),
        .step 1 ()]).any (fun last => decide (last.threads.length = 2)) = true := by
    decide +kernel
  obtain ⟨last, run, two⟩ := exists_run_of_follow (fun config act => of_decide_eq_true) computed
  have initial : ∀ relation, oldDatabase.table (ascii "polarity", tableName) = some relation →
      relation.columns = oldColumns := by
    intro relation stored
    rw [oldDatabase, table_singleTable, Option.some.injEq] at stored
    exact stored ▸ rfl
  exact ⟨last, run, two,
    (concurrent_migrations_return oneSchema_oldDatabase initial run).1⟩

/-- Both processes count eight columns; the second `ALTER` fails. -/
theorem second_alter_throws :
    OneSchema oldDatabase (ascii "polarity") ∧ oldTable.columns = oldColumns ∧
      ∃ last, Reachable migrators.Step ⟨oldDatabase, []⟩ last ∧
        ∃ node ∈ last.threads, node.hasThrown = true := by
  have computed : (follow (fun _ _ => true) migrators.next ⟨oldDatabase, []⟩
      [.start (), .start (), .step 0 (), .step 1 (), .step 0 (), .step 1 ()]).any
      (fun last => decide (∃ node ∈ last.threads, node.hasThrown = true)) = true := by
    decide +kernel
  exact ⟨oneSchema_oldDatabase, rfl, exists_run_of_follow (fun _ _ _ => trivial) computed⟩

end Casbinex.Adapter
