import Casbinex.Sql.Statement
import Mathlib.Data.List.AList

/-!
# Catalogue, name resolution and transactions

A database holds relations under a schema and a table name.  A name written
without its schema denotes the first relation of that name along the search
path; `CREATE TABLE` goes to the first schema of the path that exists.  A
session works on a private copy of the database until it commits.
-/

namespace Casbinex.Sql

/-- Schema and table name. -/
abbrev RelName := Name × Name

structure Database where
  schemas : List Name
  searchPath : List Name
  relations : AList (fun _ : RelName => Relation)
  deriving DecidableEq

namespace Database

def table (db : Database) (key : RelName) : Option Relation := db.relations.lookup key

def put (db : Database) (key : RelName) (relation : Relation) : Database :=
  { db with relations := db.relations.insert key relation }

def resolve (db : Database) (ref : TableRef) : Option RelName :=
  match ref.schema with
  | some schema => if (schema, ref.name) ∈ db.relations then some (schema, ref.name) else none
  | none =>
      (db.searchPath.find? fun schema => decide ((schema, ref.name) ∈ db.relations)).map
        fun schema => (schema, ref.name)

def creationSchema (db : Database) (ref : TableRef) : Option Name :=
  match ref.schema with
  | some schema => if schema ∈ db.schemas then some schema else none
  | none => db.searchPath.find? fun schema => decide (schema ∈ db.schemas)

/-- `information_schema.columns`: one row for each column of each relation. -/
def columnsView (db : Database) : Relation where
  columns := [⟨ascii "table_schema", false⟩, ⟨ascii "table_name", false⟩,
    ⟨ascii "column_name", false⟩]
  rows := db.relations.entries.flatMap fun entry =>
    entry.2.columns.map fun column => [some entry.1.1, some entry.1.2, some column.name]
  next := 0
  aligned := by
    intro row member
    obtain ⟨entry, _, inColumns⟩ := List.mem_flatMap.mp member
    obtain ⟨column, _, rfl⟩ := List.mem_map.mp inColumns
    rfl

def columnsRef : TableRef := ⟨some (ascii "information_schema"), ascii "columns"⟩

/-- The relation a name denotes, with its place in the catalogue. -/
def fetch (db : Database) (ref : TableRef) : Except SqlError (RelName × Relation) :=
  match db.resolve ref with
  | none => .error .undefinedTable
  | some key =>
      match db.table key with
      | none => .error .undefinedTable
      | some relation => .ok (key, relation)

/-- Replace the relation a name denotes. -/
def update (db : Database) (ref : TableRef) (change : Relation → Except SqlError Relation) :
    Except SqlError Database := do
  let (key, relation) ← db.fetch ref
  let changed ← change relation
  return db.put key changed

/-- Effect and result rows of one statement. -/
def exec (db : Database) : Statement → Except SqlError (List Row × Database)
  | .select columns ref conds => do
      if ref = columnsRef then
        let rows ← db.columnsView.select columns conds
        return (rows, db)
      else
        let (_, relation) ← db.fetch ref
        let rows ← relation.select columns conds
        return (rows, db)
  | .insert ref columns values => do
      let changed ← db.update ref fun relation => relation.insert columns (values.map some)
      return ([], changed)
  | .delete ref conds => do
      let changed ← db.update ref fun relation => relation.delete conds
      return ([], changed)
  | .truncate ref => do
      let changed ← db.update ref fun relation => .ok relation.truncate
      return ([], changed)
  | .createTable ref columns =>
      match db.creationSchema ref with
      | none => .error .noSchema
      | some schema =>
          if (schema, ref.name) ∈ db.relations then .ok ([], db)
          else .ok ([], db.put (schema, ref.name) (Relation.empty columns))
  | .addColumn ref column => do
      let changed ← db.update ref fun relation => relation.addColumn column
      return ([], changed)

/-- Effect and result rows of a query text. -/
def execText (db : Database) (query : Bytes) : Except SqlError (List Row × Database) :=
  match parse (cString query) with
  | none => .error .syntaxError
  | some statement => db.exec statement

/-- The relation a query text addresses. -/
def target (db : Database) (query : Bytes) : Option RelName :=
  (parse (cString query)).bind fun statement => db.resolve statement.table

/-! ## Frame facts -/

@[simp]
theorem table_put_self (db : Database) (key : RelName) (relation : Relation) :
    (db.put key relation).table key = some relation :=
  AList.lookup_insert db.relations

@[simp]
theorem table_put_of_ne (db : Database) {key other : RelName} (relation : Relation)
    (different : other ≠ key) : (db.put key relation).table other = db.table other :=
  AList.lookup_insert_ne different

@[simp]
theorem put_put (db : Database) (key : RelName) (relation changed : Relation) :
    (db.put key relation).put key changed = db.put key changed := by
  simp [put, AList.insert_insert]

theorem mem_relations_iff (db : Database) (key : RelName) :
    key ∈ db.relations ↔ ∃ relation, db.table key = some relation := by
  rw [← AList.lookup_isSome, Option.isSome_iff_exists]
  rfl

theorem mem_put_of_mem {db : Database} {key : RelName} (relation : Relation)
    (present : key ∈ db.relations) (other : RelName) :
    other ∈ (db.put key relation).relations ↔ other ∈ db.relations := by
  change other ∈ db.relations.insert key relation ↔ _
  rw [AList.mem_insert]
  constructor
  · rintro (rfl | old)
    · exact present
    · exact old
  · exact Or.inr

/-- Rewriting a relation that is there leaves every name where it was. -/
theorem resolve_put_of_mem {db : Database} {key : RelName} (relation : Relation)
    (present : key ∈ db.relations) (ref : TableRef) :
    (db.put key relation).resolve ref = db.resolve ref := by
  unfold resolve
  cases ref.schema with
  | some schema => simp only [mem_put_of_mem relation present]
  | none => simp only [mem_put_of_mem relation present]; rfl

theorem mem_of_resolve {db : Database} {ref : TableRef} {key : RelName}
    (resolved : db.resolve ref = some key) : key ∈ db.relations := by
  unfold resolve at resolved
  cases schemaEq : ref.schema with
  | some schema =>
      rw [schemaEq] at resolved
      dsimp only at resolved
      split at resolved
      · next present => exact Option.some.inj resolved ▸ present
      · cases resolved
  | none =>
      rw [schemaEq] at resolved
      obtain ⟨schema, found, rfl⟩ := Option.map_eq_some_iff.mp resolved
      simpa using List.find?_some found

/-- The search finds an element that alone passes the test. -/
theorem find?_of_only {α : Type} {test : α → Bool} {a : α} {l : List α} (member : a ∈ l)
    (passes : test a = true) (only : ∀ b, test b = true → b = a) : l.find? test = some a := by
  cases found : l.find? test with
  | none => exact absurd passes (List.find?_eq_none.mp found a member)
  | some b => rw [only b (List.find?_some found)]

/-- A name that one schema alone holds denotes the relation there. -/
theorem resolve_of_only {db : Database} {schema name : Name} (onPath : schema ∈ db.searchPath)
    (only : ∀ other, (other, name) ∈ db.relations ↔ other = schema) :
    db.resolve ⟨none, name⟩ = some (schema, name) := by
  have found : db.searchPath.find? (fun other => decide ((other, name) ∈ db.relations)) =
      some schema :=
    find?_of_only onPath (decide_eq_true ((only schema).mpr rfl))
      fun other passes => (only other).mp (of_decide_eq_true passes)
  exact congrArg (Option.map fun s => (s, name)) found

theorem fetch_of_resolve {db : Database} {ref : TableRef} {key : RelName} {relation : Relation}
    (resolved : db.resolve ref = some key) (stored : db.table key = some relation) :
    db.fetch ref = .ok (key, relation) := by
  simp [fetch, resolved, stored]

theorem update_of_resolve {db : Database} {ref : TableRef} {key : RelName}
    {relation changed : Relation} {change : Relation → Except SqlError Relation}
    (resolved : db.resolve ref = some key) (stored : db.table key = some relation)
    (ok : change relation = .ok changed) : db.update ref change = .ok (db.put key changed) := by
  simp [update, fetch_of_resolve resolved stored, ok, bind, Except.bind, pure, Except.pure]

/-- What a successful update did: it replaced the relation that the name denotes. -/
theorem update_cases {db changed : Database} {ref : TableRef}
    {change : Relation → Except SqlError Relation} (ok : db.update ref change = .ok changed) :
    ∃ key relation after, db.resolve ref = some key ∧ db.table key = some relation ∧
      change relation = .ok after ∧ changed = db.put key after := by
  unfold update fetch at ok
  cases resolved : db.resolve ref with
  | none =>
      rw [resolved] at ok
      cases ok
  | some key =>
      rw [resolved] at ok
      dsimp only at ok
      cases stored : db.table key with
      | none =>
          rw [stored] at ok
          cases ok
      | some relation =>
          rw [stored] at ok
          simp only [bind, Except.bind] at ok
          cases applied : change relation with
          | error error =>
              rw [applied] at ok
              cases ok
          | ok after =>
              rw [applied] at ok
              exact ⟨key, relation, after, rfl, stored, applied, (Except.ok.inj ok).symm⟩

end Database

/-! ## Sessions -/

/-- A COPY into a table that has been opened and not yet completed. -/
structure CopyStream where
  ref : TableRef
  columns : List Name
  lines : List (List Cell)
  deriving DecidableEq

structure Session where
  /-- The committed database. -/
  db : Database
  /-- The working copy of the open transaction. -/
  work : Option Database
  stream : Option CopyStream
  deriving DecidableEq

namespace Session

def idle (db : Database) : Session := ⟨db, none, none⟩

/-- Append the lines of a completed stream, one row each. -/
def appendLines (columns : List Name) :
    List (List Cell) → Relation → Except SqlError Relation
  | [], relation => .ok relation
  | line :: more, relation => (relation.insert columns line).bind (appendLines columns more)

def beginWork (session : Session) : Except SqlError Session :=
  .ok { session with work := some session.db }

def exec (session : Session) (query : Bytes) : Except SqlError (List Row × Session) :=
  match session.work with
  | none => .error .noTransaction
  | some db =>
      match db.execText query with
      | .error error => .error error
      | .ok (rows, changed) => .ok (rows, { session with work := some changed })

def openStream (session : Session) (ref : TableRef) (columns : List Name) :
    Except SqlError Session :=
  match session.work with
  | none => .error .noTransaction
  | some db =>
      match db.fetch ref with
      | .error error => .error error
      | .ok (_, relation) =>
          if columns.all relation.knows then
            .ok { session with stream := some ⟨ref, columns, []⟩ }
          else .error .undefinedColumn

def write (session : Session) (line : List Cell) : Except SqlError Session :=
  match session.stream with
  | none => .error .noTransaction
  | some stream =>
      .ok { session with stream := some { stream with lines := stream.lines ++ [line] } }

def complete (session : Session) : Except SqlError Session :=
  match session.work, session.stream with
  | some db, some stream =>
      match db.update stream.ref (appendLines stream.columns stream.lines) with
      | .error error => .error error
      | .ok changed => .ok { session with work := some changed, stream := none }
  | _, _ => .error .noTransaction

def commit (session : Session) : Except SqlError Session :=
  match session.work with
  | none => .error .noTransaction
  | some db => .ok { session with db := db, work := none }

/-- Whatever was not committed is lost when the transaction is destroyed. -/
def rollback (session : Session) : Session := idle session.db

/-! ## Only a commit changes the committed database -/

section

variable {session after : Session}

theorem db_of_exec {query : Bytes} {rows : List Row}
    (done : session.exec query = .ok (rows, after)) : after.db = session.db := by
  unfold exec at done
  split at done
  · cases done
  · split at done <;> cases done
    rfl

theorem db_of_openStream {ref : TableRef} {columns : List Name}
    (done : session.openStream ref columns = .ok after) : after.db = session.db := by
  unfold openStream at done
  split at done
  · cases done
  · split at done
    · cases done
    · split at done <;> cases done
      rfl

theorem db_of_write {line : List Cell} (done : session.write line = .ok after) :
    after.db = session.db := by
  unfold write at done
  split at done <;> cases done
  rfl

theorem db_of_complete (done : session.complete = .ok after) : after.db = session.db := by
  unfold complete at done
  split at done
  · split at done <;> cases done
    rfl
  · cases done

end

end Session

end Casbinex.Sql
