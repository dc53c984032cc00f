import Casbinex.Sql.Lexer
import Casbinex.Sql.Relation

/-!
# Statements

The fragment of SQL the program sends: one statement with an optional closing
semicolon.  The parser is a function of the tokens alone.
-/

namespace Casbinex.Sql

/-- A table name as written, with or without its schema. -/
structure TableRef where
  schema : Option Name
  name : Name
  deriving DecidableEq, Repr

inductive Statement where
  | select (columns : List Name) (table : TableRef) (conds : List Cond)
  | insert (table : TableRef) (columns : List Name) (values : List Bytes)
  | delete (table : TableRef) (conds : List Cond)
  | truncate (table : TableRef)
  /-- `CREATE TABLE IF NOT EXISTS`. -/
  | createTable (table : TableRef) (columns : List Column)
  | addColumn (table : TableRef) (column : Name)
  deriving DecidableEq, Repr

/-- The name a statement addresses. -/
def Statement.table : Statement → TableRef
  | .select _ table _ => table
  | .insert table _ _ => table
  | .delete table _ => table
  | .truncate table => table
  | .createTable table _ => table
  | .addColumn table _ => table

namespace Parser

def kw (text : String) : Token := .word (ascii text)

/-- Remove a fixed sequence of tokens. -/
def skip : List Token → List Token → Option (List Token)
  | [], tokens => some tokens
  | wanted :: more, token :: rest => if wanted = token then skip more rest else none
  | _ :: _, [] => none

def atEnd (tokens : List Token) : Bool := tokens == [] || tokens == [.sym 59]

def nameList : List Token → Option (List Name × List Token)
  | .word name :: .sym byte :: rest =>
      if byte = 44 then (nameList rest).map fun more => (name :: more.1, more.2)
      else some ([name], .sym byte :: rest)
  | .word name :: rest => some ([name], rest)
  | _ => none

def valueList : List Token → Option (List Bytes × List Token)
  | .str value :: .sym byte :: rest =>
      if byte = 44 then (valueList rest).map fun more => (value :: more.1, more.2)
      else some ([value], .sym byte :: rest)
  | .str value :: rest => some ([value], rest)
  | _ => none

def tableRef : List Token → Option (TableRef × List Token)
  | .word schema :: .sym byte :: .word name :: rest =>
      if byte = 46 then some (⟨some schema, name⟩, rest)
      else some (⟨none, schema⟩, .sym byte :: .word name :: rest)
  | .word name :: rest => some (⟨none, name⟩, rest)
  | _ => none

/-- Conditions `c = 'v'` and `c IS NULL`, joined by AND. -/
def conjunction : List Token → Option (List Cond × List Token)
  | .word column :: .sym byte :: .str value :: .word joint :: rest =>
      if byte = 61 ∧ joint = ascii "and" then
        (conjunction rest).map fun more => (.eq column value :: more.1, more.2)
      else none
  | .word column :: .sym byte :: .str value :: rest =>
      if byte = 61 then some ([.eq column value], rest) else none
  | .word column :: .word verb :: .word object :: .word joint :: rest =>
      if verb = ascii "is" ∧ object = ascii "null" ∧ joint = ascii "and" then
        (conjunction rest).map fun more => (.isNull column :: more.1, more.2)
      else none
  | .word column :: .word verb :: .word object :: rest =>
      if verb = ascii "is" ∧ object = ascii "null" then some ([.isNull column], rest) else none
  | _ => none

/-- `name serial NOT NULL` and `name character varying`, separated by commas. -/
def columnDefs : List Token → Option (List Column × List Token)
  | .word name :: .word first :: .word second :: .sym byte :: rest =>
      if first = ascii "character" ∧ second = ascii "varying" then
        if byte = 44 then (columnDefs rest).map fun more => (⟨name, false⟩ :: more.1, more.2)
        else some ([⟨name, false⟩], .sym byte :: rest)
      else none
  | .word name :: .word first :: .word second :: .word third :: .sym byte :: rest =>
      if first = ascii "serial" ∧ second = ascii "not" ∧ third = ascii "null" then
        if byte = 44 then (columnDefs rest).map fun more => (⟨name, true⟩ :: more.1, more.2)
        else some ([⟨name, true⟩], .sym byte :: rest)
      else none
  | _ => none

def whereClause : List Token → Option (List Cond × List Token)
  | .word verb :: rest =>
      if verb = ascii "where" then conjunction rest else some ([], .word verb :: rest)
  | tokens => some ([], tokens)

def close (statement : Statement) (tokens : List Token) : Option Statement :=
  if atEnd tokens then some statement else none

def selectTail (tokens : List Token) : Option Statement := do
  let (columns, tokens) ← nameList tokens
  let tokens ← skip [kw "from"] tokens
  let (table, tokens) ← tableRef tokens
  let (conds, tokens) ← whereClause tokens
  close (.select columns table conds) tokens

def insertTail (tokens : List Token) : Option Statement := do
  let tokens ← skip [kw "into"] tokens
  let (table, tokens) ← tableRef tokens
  let tokens ← skip [.sym 40] tokens
  let (columns, tokens) ← nameList tokens
  let tokens ← skip [.sym 41, kw "values", .sym 40] tokens
  let (values, tokens) ← valueList tokens
  let tokens ← skip [.sym 41] tokens
  close (.insert table columns values) tokens

def deleteTail (tokens : List Token) : Option Statement := do
  let tokens ← skip [kw "from"] tokens
  let (table, tokens) ← tableRef tokens
  let (conds, tokens) ← whereClause tokens
  close (.delete table conds) tokens

def truncateTail (tokens : List Token) : Option Statement := do
  let tokens ← skip [kw "table"] tokens
  let (table, tokens) ← tableRef tokens
  close (.truncate table) tokens

def createTail (tokens : List Token) : Option Statement := do
  let tokens ← skip [kw "table", kw "if", kw "not", kw "exists"] tokens
  let (table, tokens) ← tableRef tokens
  let tokens ← skip [.sym 40] tokens
  let (columns, tokens) ← columnDefs tokens
  let tokens ← skip
    [.sym 41, kw "with", .sym 40, kw "oids", .sym 61, kw "false", .sym 41] tokens
  close (.createTable table columns) tokens

def alterTail (tokens : List Token) : Option Statement := do
  let tokens ← skip [kw "table"] tokens
  let (table, tokens) ← tableRef tokens
  let tokens ← skip [kw "add", kw "column"] tokens
  let (columns, tokens) ← nameList tokens
  let tokens ← skip [kw "character", kw "varying"] tokens
  match columns with
  | [column] => close (.addColumn table column) tokens
  | _ => none

def statement : List Token → Option Statement
  | .word verb :: rest =>
      if verb = ascii "select" then selectTail rest
      else if verb = ascii "insert" then insertTail rest
      else if verb = ascii "delete" then deleteTail rest
      else if verb = ascii "truncate" then truncateTail rest
      else if verb = ascii "create" then createTail rest
      else if verb = ascii "alter" then alterTail rest
      else none
  | _ => none

end Parser

/-- The statement a text denotes, if it is one statement of the fragment. -/
def parse (text : Bytes) : Option Statement := (lex text).bind Parser.statement

namespace Parser

/-! ## The lists of the fragment are read back -/

theorem nameList_tokens (first : Name) (more : List Name) (rest : List Token) :
    nameList (.word first :: more.flatMap (fun name => [.sym 44, .word name]) ++ .sym 41 :: rest) =
      some (first :: more, .sym 41 :: rest) := by
  induction more generalizing first with
  | nil => simp [nameList]
  | cons name more ih =>
      have inner := ih name
      simp only [List.cons_append] at inner
      simp [nameList, inner]

theorem valueList_tokens (first : Bytes) (more : List Bytes) (rest : List Token) :
    valueList (.str first :: more.flatMap (fun value => [.sym 44, .str value]) ++ .sym 41 :: rest) =
      some (first :: more, .sym 41 :: rest) := by
  induction more generalizing first with
  | nil => simp [valueList]
  | cons value more ih =>
      have inner := ih value
      simp only [List.cons_append] at inner
      simp [valueList, inner]

def condTokens : Cond → List Token
  | .eq column value => [.word column, .sym 61, .str value]
  | .isNull column => [.word column, kw "is", kw "null"]

/-- The tokens of further conjuncts. -/
def conjTokens (conds : List Cond) : List Token :=
  conds.flatMap fun cond => kw "and" :: condTokens cond

@[simp] theorem condTokens_eq (column : Name) (value : Bytes) :
    condTokens (.eq column value) = [.word column, .sym 61, .str value] := rfl

@[simp] theorem condTokens_isNull (column : Name) :
    condTokens (.isNull column) = [.word column, kw "is", kw "null"] := rfl

theorem conjunction_tokens (first : Cond) (more : List Cond) (byte : UInt8) (rest : List Token) :
    conjunction (condTokens first ++ conjTokens more ++ .sym byte :: rest) =
      some (first :: more, .sym byte :: rest) := by
  induction more generalizing first with
  | nil => cases first <;> simp [conjunction, conjTokens, kw]
  | cons cond more ih =>
      have inner := ih cond
      simp only [List.append_assoc] at inner
      cases first <;> simp [conjunction, conjTokens, kw] <;> simpa [conjTokens, kw] using inner

/-! ## The tokens of an INSERT and of a DELETE are read back -/

theorem insertTail_tokens (table column : Name) (columns : List Name) (value : Bytes)
    (values : List Bytes) :
    insertTail (kw "into" :: .word table :: .sym 40 ::
        (.word column :: columns.flatMap (fun name => [.sym 44, .word name]) ++
          .sym 41 :: kw "values" :: .sym 40 ::
            (.str value :: values.flatMap (fun value => [.sym 44, .str value]) ++
              .sym 41 :: [.sym 59]))) =
      some (.insert ⟨none, table⟩ (column :: columns) (value :: values)) := by
  have name (rest : List Token) :
      tableRef (.word table :: .sym 40 :: .word column :: rest) =
        some (⟨none, table⟩, .sym 40 :: .word column :: rest) := rfl
  have columnsRead := nameList_tokens column columns
  have valuesRead := valueList_tokens value values
  simp only [List.cons_append] at columnsRead valuesRead
  simp [insertTail, skip, name, columnsRead, valuesRead, close, atEnd]

theorem deleteTail_tokens (schema table : Name) (first : Cond) (more : List Cond) :
    deleteTail (kw "from" :: .word schema :: .sym 46 :: .word table :: kw "where" ::
        (condTokens first ++ conjTokens more ++ [.sym 59])) =
      some (.delete ⟨some schema, table⟩ (first :: more)) := by
  have name (rest : List Token) :
      tableRef (.word schema :: .sym 46 :: .word table :: rest) =
        some (⟨some schema, table⟩, rest) := rfl
  have clause (rest : List Token) : whereClause (kw "where" :: rest) = conjunction rest := rfl
  have condsRead := conjunction_tokens first more 59 []
  simp [deleteTail, skip, name, clause, condsRead, close, atEnd, -List.append_assoc]

theorem statement_insert (rest : List Token) :
    statement (kw "insert" :: rest) = insertTail rest := rfl

theorem statement_delete (rest : List Token) :
    statement (kw "delete" :: rest) = deleteTail rest := rfl

end Parser

/-! ## What the literals say, and what is left of them -/

/-- The text that a token denotes, if it is a string literal. -/
def Token.literal : Token → Option Bytes
  | .str value => some value
  | .word _ => none
  | .sym _ => none

/-- The token with the text of a string literal left out. -/
def Token.masked : Token → Token
  | .str _ => .str []
  | .word name => .word name
  | .sym byte => .sym byte

/-- The value a condition compares with. -/
def Cond.value : Cond → Option Bytes
  | .eq _ value => some value
  | .isNull _ => none

def Cond.masked : Cond → Cond
  | .eq column _ => .eq column []
  | .isNull column => .isNull column

namespace Parser

theorem conjTokens_cons (cond : Cond) (more : List Cond) :
    conjTokens (cond :: more) = kw "and" :: condTokens cond ++ conjTokens more := rfl

theorem conjTokens_literals (conds : List Cond) :
    (conjTokens conds).filterMap Token.literal = conds.filterMap Cond.value := by
  induction conds with
  | nil => rfl
  | cons cond more ih =>
      rw [conjTokens_cons, List.filterMap_append, ih]
      cases cond <;> rfl

theorem conjTokens_masked (conds : List Cond) :
    (conjTokens conds).map Token.masked = conjTokens (conds.map Cond.masked) := by
  induction conds with
  | nil => rfl
  | cons cond more ih =>
      rw [List.map_cons, conjTokens_cons, conjTokens_cons, List.map_append, ih]
      cases cond <;> rfl

/-! ## Texts of conditions -/

/-- The text of one more conjunct. -/
def condText : Cond → Bytes
  | .eq column value => ascii " AND " ++ column ++ ascii " = " ++ Lexer.literal value
  | .isNull column => ascii " AND " ++ column ++ ascii " is NULL "

/-- Where the scanner stands before a conjunct: after a literal, or between tokens. -/
inductive Joint : Lexer.Mode → List Token → Prop where
  | closing (value : Bytes) : Joint (.closing value) [.str value]
  | start : Joint .start []

open Lexer in
theorem Joint.lexFrom_and {mode : Lexer.Mode} {held : List Token} (joint : Joint mode held)
    (rest : Bytes) :
    lexFrom mode (ascii " AND " ++ rest) =
      (lexFrom .start rest).map fun tokens => held ++ kw "and" :: tokens := by
  have read : run .start (ascii "AND ") = some ([kw "and"], .start) := by decide
  cases joint with
  | closing value =>
      have split : ascii " AND " ++ rest = 32 :: 65 :: (ascii "ND " ++ rest) := rfl
      have joined : 65 :: (ascii "ND " ++ rest) = ascii "AND " ++ rest := rfl
      rw [split, lexFrom_closing_blank _ (by decide) (by decide), joined, lexFrom_append read]
      cases lexFrom .start rest <;> rfl
  | start =>
      have spaced : run .start (ascii " AND ") = some ([kw "and"], .start) := by decide
      rw [lexFrom_append spaced]
      cases lexFrom .start rest <;> rfl

theorem Joint.lexFrom_semicolon {mode : Lexer.Mode} {held : List Token} (joint : Joint mode held) :
    Lexer.lexFrom mode [59] = some (held ++ [.sym 59]) := by
  cases joint <;> rfl

open Lexer in
/-- Conjuncts are scanned one by one, whatever stands in their literals. -/
theorem lexFrom_conds (conds : List Cond) (plain : ∀ cond ∈ conds, PlainName cond.column)
    {mode : Mode} {held : List Token} (joint : Joint mode held) :
    lexFrom mode (conds.flatMap condText ++ [59]) =
      some (held ++ conjTokens conds ++ [.sym 59]) := by
  induction conds generalizing mode held with
  | nil => simpa [conjTokens] using joint.lexFrom_semicolon
  | cons cond more ih =>
      have rest := fun other member => plain other (List.mem_cons_of_mem cond member)
      cases cond with
      | eq column value =>
          have name : run .start column = some ([], .word column) :=
            run_name (plain _ List.mem_cons_self)
          have split : (Cond.eq column value :: more).flatMap condText ++ [59] =
              ascii " AND " ++ (column ++ (ascii " = " ++
                (literal value ++ (more.flatMap condText ++ [59])))) := by
            simp [condText]
          have equals : run (.word column) (ascii " = ") =
              some ([.word column, .sym 61], .start) := rfl
          rw [split, joint.lexFrom_and, lexFrom_append name, lexFrom_append equals,
            lexFrom_append (run_literal value), ih rest (.closing value)]
          simp [conjTokens]
      | isNull column =>
          have name : run .start column = some ([], .word column) :=
            run_name (plain _ List.mem_cons_self)
          have split : (Cond.isNull column :: more).flatMap condText ++ [59] =
              ascii " AND " ++ (column ++ (ascii " is NULL " ++
                (more.flatMap condText ++ [59]))) := by
            simp [condText]
          have test : run (.word column) (ascii " is NULL ") =
              some ([.word column, kw "is", kw "null"], .start) := rfl
          rw [split, joint.lexFrom_and, lexFrom_append name, lexFrom_append test, ih rest .start]
          simp [conjTokens]

end Parser

end Casbinex.Sql
