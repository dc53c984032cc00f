import Casbinex.Adapter.Model
import Casbinex.Program.Prog
import Casbinex.Sql.Database

/-!
# The operations of `PgAdapter`

Every operation is a program over the calls it makes: taking a pooled
connection, opening a `pqxx::work`, escaping, executing a text, streaming rows,
committing, and the steps on the casbin model between them.  The machine at the
end gives these calls their sequential meaning on one store.
-/

namespace Casbinex.Adapter

open Casbinex.Program
open Casbinex.Program.Prog
open Casbinex.Sql

/-- The shared pointer handed to `SavePolicy`. -/
inductive ModelPtr where
  | null
  | live
  deriving DecidableEq, Repr

inductive Instr where
  /-- `PoolConnection c{_pgPool};` -/
  | checkout
  /-- `pqxx::work txn{ c.connection() };` -/
  | beginWork
  /-- `c.ptr()->esc(field)` -/
  | esc (field : Bytes)
  /-- `txn.exec(query)` -/
  | exec (query : Bytes)
  /-- `pqxx::stream_to::table(txn, {table}, columns)` -/
  | openStream (table : Name) (columns : List Name)
  /-- `stream << line` -/
  | write (line : List Cell)
  /-- `stream.complete()` -/
  | complete
  /-- `txn.commit()` -/
  | commit
  /-- The scope of the innermost `pqxx::work` ends. -/
  | endWork
  /-- A step on the casbin model, answered by the model after it. -/
  | model (change : Model → Except Crash Model)
  /-- Undefined behaviour. -/
  | undefined (crash : Crash)

abbrev Instr.Answer : Instr → Type
  | .esc _ => Bytes
  | .exec _ => List Row
  | .model _ => Model
  | _ => Unit

abbrev AdapterProg := Prog Instr Instr.Answer

abbrev issue (i : Instr) : AdapterProg i.Answer := perform i

/-- The lambda `quote` of the three updates. -/
def quote (field : Bytes) : AdapterProg Bytes := do
  let escaped ← issue (.esc field)
  return ascii "'" ++ escaped ++ ascii "'"

/-! ## Migrations -/

def columnQuery : Bytes :=
  ascii "select column_name from information_schema.columns " ++
    ascii "where table_name = 'casbin_rule';"

/-- The raw literal of `createTable`, line by line. -/
def createQuery : Bytes :=
  ascii "\n    CREATE TABLE IF NOT EXISTS casbin_rule (\n" ++
    ascii "      id serial NOT NULL,\n" ++
    ascii "      ptype character varying,\n" ++
    ascii "      v0 character varying,\n" ++
    ascii "      v1 character varying,\n" ++
    ascii "      v2 character varying,\n" ++
    ascii "      v3 character varying,\n" ++
    ascii "      v4 character varying,\n" ++
    ascii "      v5 character varying,\n" ++
    ascii "      v6 character varying\n" ++
    ascii "    ) WITH ( OIDS=FALSE );\n  "

def addV6Query : Bytes := ascii "ALTER TABLE casbin_rule ADD COLUMN v6 character varying;"

def createTable : AdapterProg Unit := do
  issue .beginWork
  let _ ← issue (.exec createQuery)
  issue .commit
  issue .endWork

def addV6Column : AdapterProg Unit := do
  issue .beginWork
  let _ ← issue (.exec addV6Query)
  issue .commit
  issue .endWork

/-- `Migrator::RunMigrations`; `r` is read once, before either branch. -/
def runMigrations : AdapterProg Unit := do
  issue .beginWork
  let r : List Row ← issue (.exec columnQuery)
  issue .commit
  if r.length = 0 then createTable
  if r.length = 8 then addV6Column
  issue .endWork

/-- The body of the constructor `PgAdapter::PgAdapter`. -/
def construct : AdapterProg Unit := do
  issue .checkout
  runMigrations

/-! ## Loading and saving -/

def selectQuery : Bytes := ascii "select ptype, v0, v1, v2, v3, v4, v5, v6 from casbin_rule"

def loadLoop : List Row → AdapterProg Unit
  | [] => return ()
  | row :: more => do
      let _ ← issue (.model (loadPolicyLine (policyLine row)))
      loadLoop more

/-- `PgAdapter::LoadPolicy`: the model is cleared only after the rows have arrived. -/
def loadPolicy : AdapterProg Unit := do
  issue .checkout
  issue .beginWork
  let r : List Row ← issue (.exec selectQuery)
  let _ ← issue (.model fun model => .ok model.clearPolicy)
  loadLoop r

def truncateQuery : Bytes := ascii "truncate table casbin_rule;"

def streamColumns : List Name :=
  [ascii "ptype", ascii "v0", ascii "v1", ascii "v2", ascii "v3", ascii "v4", ascii "v5",
    ascii "v6"]

/-- One field of a saved row: escaped if the rule has it, NULL otherwise. -/
def saveField (rule : Rule) (row : List Cell) (ii : Nat) : AdapterProg (List Cell) :=
  match rule[ii]? with
  | some field => do
      let escaped ← issue (.esc field)
      return row ++ [some escaped]
  | none => return row ++ [none]

/-- Stream one rule: the ptype as it is, then the seven fields. -/
def saveRule (ptype : Bytes) (rule : Rule) : AdapterProg Unit := do
  let row ← (List.range 7).foldlM (saveField rule) [some ptype]
  issue (.write row)

def saveRules (ptype : Bytes) : List Rule → AdapterProg Unit
  | [] => return ()
  | rule :: more => do
      saveRule ptype rule
      saveRules ptype more

def saveAssertions : List (Σ _ : Bytes, List Rule) → AdapterProg Unit
  | [] => return ()
  | entry :: more => do
      saveRules entry.1 entry.2
      saveAssertions more

/-- The block `{ astMap = model->m[sec]; ... }` of one section. -/
def saveSection (sec : Bytes) : AdapterProg Unit := do
  let model ← issue (.model fun model => .ok (model.touch sec))
  saveAssertions ((model.lookup sec).getD ∅).entries

/-- `PgAdapter::SavePolicy`. -/
def savePolicy (model : ModelPtr) : AdapterProg Unit :=
  match model with
  | .null => return ()
  | .live => do
      issue .checkout
      issue .beginWork
      let _ ← issue (.exec truncateQuery)
      issue (.openStream (ascii "casbin_rule") streamColumns)
      saveSection (ascii "p")
      saveSection (ascii "g")
      issue .complete
      issue .commit

/-! ## Updates -/

/-- One size guard of `AddPolicy`: extend the column list and the value list. -/
def insertField (rule : Rule) (built : Bytes × Bytes) (ii : Nat) : AdapterProg (Bytes × Bytes) :=
  match rule[ii]? with
  | some field => do
      let quoted ← quote field
      return (built.1 ++ ascii ",v" ++ decimal ii, built.2 ++ ascii ", " ++ quoted)
  | none => return built

/-- `PgAdapter::AddPolicy`; `sec` is not used. -/
def addPolicy (_sec ptype : Bytes) (rule : Rule) : AdapterProg Unit := do
  issue .checkout
  issue .beginWork
  let quoted ← quote ptype
  let (columns, values) ← (List.range 7).foldlM (insertField rule) (ascii "ptype", quoted)
  let _ ← issue (.exec
    (ascii "INSERT INTO casbin_rule (" ++ columns ++ ascii ") values (" ++ values ++ ascii ");"))
  issue .commit

/-- One conjunct of `RemovePolicy`: equality if the rule has the field, IS NULL otherwise. -/
def matchField (rule : Rule) (query : Bytes) (ii : Nat) : AdapterProg Bytes :=
  match rule[ii]? with
  | some field => do
      let quoted ← quote field
      return query ++ ascii " AND v" ++ decimal ii ++ ascii " = " ++ quoted
  | none => return query ++ ascii " AND v" ++ decimal ii ++ ascii " is NULL "

/-- `PgAdapter::RemovePolicy`; the table carries a schema here. -/
def removePolicy (_sec ptype : Bytes) (rule : Rule) : AdapterProg Unit := do
  issue .checkout
  issue .beginWork
  let quoted ← quote ptype
  let query ← (List.range 7).foldlM (matchField rule)
    (ascii "DELETE FROM polarity.casbin_rule where " ++ ascii "ptype = " ++ quoted)
  let _ ← issue (.exec (query ++ ascii ";"))
  issue .commit

/-- The loop of `RemoveFilteredPolicy` in the arithmetic of a 64-bit platform: a
32-bit unsigned counter against a 64-bit unsigned bound, both offset by the
signed index.  It reads one value per turn, and the turn after the last value reads
past the vector; more turns than `field_values.size() + 1` are taken only where the
counter has come round, and then the loop goes on for ever. -/
def filterLoop (fieldIndex : Int32) (fieldValues : List Bytes) :
    Nat → UInt32 → Bytes → AdapterProg Bytes
  | 0, _, query => do
      issue (.undefined .neverEnds)
      return query
  | turns + 1, ii, query =>
      if ii.toUInt64 < UInt64.ofNat fieldValues.length + fieldIndex.toInt64.toUInt64 then
        match fieldValues[(ii - fieldIndex.toUInt32).toNat]? with
        | some value => do
            let quoted ← quote value
            filterLoop fieldIndex fieldValues turns (ii + 1)
              (query ++ ascii " AND v" ++ decimal ii.toNat ++ ascii " = " ++ quoted)
        | none => do
            issue (.undefined .outOfBounds)
            return query
      else return query

/-- `PgAdapter::RemoveFilteredPolicy`. -/
def removeFilteredPolicy (_sec ptype : Bytes) (fieldIndex : Int32) (fieldValues : List Bytes) :
    AdapterProg Unit := do
  issue .checkout
  issue .beginWork
  let quoted ← quote ptype
  let query ← filterLoop fieldIndex fieldValues (fieldValues.length + 1) fieldIndex.toUInt32
    (ascii "DELETE FROM polarity.casbin_rule where " ++ ascii "ptype = " ++ quoted)
  let _ ← issue (.exec (query ++ ascii ";"))
  issue .commit

/-! ## Sequential meaning -/

inductive Failure where
  /-- A database step threw: connection lost, commit refused, text rejected. -/
  | thrown
  | sql (error : SqlError)
  | crash (crash : Crash)
  deriving DecidableEq, Repr

/-- The casbin model and the database session an operation works on. -/
structure Store where
  model : Model
  session : Session
  deriving DecidableEq

namespace Store

def idle (model : Model) (db : Database) : Store := ⟨model, Session.idle db⟩

def onSession (store : Store) (result : Except SqlError Session) :
    Except Failure (Unit × Store) :=
  match result with
  | .error error => .error (.sql error)
  | .ok session => .ok ((), { store with session := session })

def step : (i : Instr) → Store → Except Failure (i.Answer × Store)
  | .checkout, store => .ok ((), store)
  | .beginWork, store => store.onSession store.session.beginWork
  | .esc field, store => .ok (Lexer.doubleQuotes (cString field), store)
  | .exec query, store =>
      match store.session.exec query with
      | .error error => .error (.sql error)
      | .ok (rows, session) => .ok (rows, { store with session := session })
  | .openStream table columns, store =>
      store.onSession (store.session.openStream ⟨none, table⟩ columns)
  | .write line, store => store.onSession (store.session.write line)
  | .complete, store => store.onSession store.session.complete
  | .commit, store => store.onSession store.session.commit
  | .endWork, store => .ok ((), { store with session := store.session.rollback })
  | .model change, store =>
      match change store.model with
      | .error crash => .error (.crash crash)
      | .ok model => .ok (model, { store with model := model })
  | .undefined crash, _ => .error (.crash crash)

end Store

/-- The calls that reach the database or the client library. -/
def Instr.databaseStep : Instr → Bool
  | .endWork => false
  | .model _ => false
  | .undefined _ => false
  | _ => true

def machine : Machine Instr Instr.Answer Store Failure where
  step := Store.step
  fallible := Instr.databaseStep
  fault := .thrown

/-- What one call of an operation leaves: its result, the model, the committed
database and the rest of the fault schedule. -/
structure Outcome where
  result : Except Failure Unit
  model : Model
  db : Database
  faults : List Bool

/-- Run an operation on an idle store; its locals are destroyed on every exit, so
a transaction that was not committed is gone. -/
def call (operation : AdapterProg Unit) (faults : List Bool) (model : Model) (db : Database) :
    Outcome :=
  let ending := run machine operation faults (Store.idle model db)
  ⟨ending.result, ending.state.model, ending.state.session.db, ending.faults⟩

end Casbinex.Adapter
