import Casbinex.Sql.Text

/-!
# Relations with nullable text cells

A cell is the text form of a stored value, or nothing for NULL.  Conditions are
evaluated in three-valued logic; a row is selected when the conjunction is true,
not merely when it is not false.
-/

namespace Casbinex.Sql

abbrev Name := Bytes
abbrev Cell := Option Bytes
abbrev Row := List Cell

inductive SqlError where
  | syntaxError
  | undefinedTable
  | undefinedColumn
  | duplicateColumn
  | noSchema
  | wrongArity
  | noTransaction
  deriving DecidableEq, Repr

structure Column where
  name : Name
  /-- A `serial` column draws its default from a sequence, any other column is NULL. -/
  serial : Bool
  deriving DecidableEq, Repr

/-- A table: every row has one cell for each column. -/
structure Relation where
  columns : List Column
  rows : List Row
  /-- The sequence behind the `serial` columns. -/
  next : Nat
  aligned : ∀ row ∈ rows, row.length = columns.length
  deriving DecidableEq

namespace Relation

def names (relation : Relation) : List Name := relation.columns.map Column.name

end Relation

/-- The cell of a row under a column name. -/
def cell (names : List Name) (row : Row) (column : Name) : Cell :=
  ((names.zip row).lookup column).join

/-! ## Conditions -/

inductive Cond where
  | eq (column : Name) (value : Bytes)
  | isNull (column : Name)
  deriving DecidableEq, Repr

namespace Cond

def column : Cond → Name
  | .eq column _ => column
  | .isNull column => column

/-- Truth of one condition; `none` is the unknown of a comparison with NULL. -/
def truth (names : List Name) (row : Row) : Cond → Option Bool
  | .eq column value => (cell names row column).map (· == value)
  | .isNull column => some (cell names row column).isNone

/-- Three-valued conjunction. -/
def and3 : Option Bool → Option Bool → Option Bool
  | some false, _ => some false
  | _, some false => some false
  | some true, some true => some true
  | _, _ => none

def conj (names : List Name) (row : Row) (conds : List Cond) : Option Bool :=
  (conds.map (truth names row)).foldr and3 (some true)

/-- A row is selected by a WHERE clause that is true on it. -/
def selects (names : List Name) (conds : List Cond) (row : Row) : Bool :=
  conj names row conds == some true

theorem and3_eq_true (first second : Option Bool) :
    and3 first second = some true ↔ first = some true ∧ second = some true := by
  rcases first with _ | _ | _ <;> rcases second with _ | _ | _ <;> simp [and3]

theorem selects_iff (names : List Name) (conds : List Cond) (row : Row) :
    selects names conds row = true ↔ ∀ cond ∈ conds, truth names row cond = some true := by
  unfold selects conj
  rw [beq_iff_eq]
  induction conds with
  | nil => simp
  | cons cond rest ih => simp [and3_eq_true, ih]

theorem truth_eq_iff (names : List Name) (row : Row) (column : Name) (value : Bytes) :
    truth names row (.eq column value) = some true ↔ cell names row column = some value := by
  simp [truth]

theorem truth_isNull_iff (names : List Name) (row : Row) (column : Name) :
    truth names row (.isNull column) = some true ↔ cell names row column = none := by
  simp [truth]

end Cond

/-! ## Statements on one relation -/

namespace Relation

def knows (relation : Relation) (column : Name) : Bool := relation.names.contains column

/-- The row an INSERT builds: given cells by name, defaults elsewhere. -/
def newRow (relation : Relation) (columns : List Name) (values : List Cell) : Row :=
  relation.columns.map fun column =>
    match (columns.zip values).lookup column.name with
    | some value => value
    | none => if column.serial then some (decimal relation.next) else none

@[simp]
theorem length_newRow (relation : Relation) (columns : List Name) (values : List Cell) :
    (relation.newRow columns values).length = relation.columns.length := by
  simp [newRow]

def append (relation : Relation) (columns : List Name) (values : List Cell) : Relation where
  columns := relation.columns
  rows := relation.rows ++ [relation.newRow columns values]
  next := relation.next + 1
  aligned row member := by
    rcases List.mem_append.mp member with old | new
    · exact relation.aligned row old
    · rw [List.mem_singleton.mp new, length_newRow]

def insert (relation : Relation) (columns : List Name) (values : List Cell) :
    Except SqlError Relation :=
  if columns.all relation.knows then
    if columns.length = values.length then .ok (relation.append columns values)
    else .error .wrongArity
  else .error .undefinedColumn

/-- Keep the rows that satisfy a test. -/
def restrict (relation : Relation) (keep : Row → Bool) : Relation where
  columns := relation.columns
  rows := relation.rows.filter keep
  next := relation.next
  aligned row member := relation.aligned row (List.mem_of_mem_filter member)

def delete (relation : Relation) (conds : List Cond) : Except SqlError Relation :=
  if conds.all (fun cond => relation.knows cond.column) then
    .ok (relation.restrict fun row => !Cond.selects relation.names conds row)
  else .error .undefinedColumn

def select (relation : Relation) (columns : List Name) (conds : List Cond) :
    Except SqlError (List Row) :=
  if columns.all relation.knows && conds.all (fun cond => relation.knows cond.column) then
    .ok ((relation.rows.filter (Cond.selects relation.names conds)).map fun row =>
      columns.map (cell relation.names row))
  else .error .undefinedColumn

def truncate (relation : Relation) : Relation := relation.restrict fun _ => false

/-- A fresh column is NULL in the rows that are already there. -/
def addColumn (relation : Relation) (column : Name) : Except SqlError Relation :=
  if relation.knows column then .error .duplicateColumn
  else .ok {
    columns := relation.columns ++ [⟨column, false⟩]
    rows := relation.rows.map (· ++ [none])
    next := relation.next
    aligned := by
      intro row member
      obtain ⟨old, inRows, rfl⟩ := List.mem_map.mp member
      simp [relation.aligned old inRows] }

def empty (columns : List Column) : Relation where
  columns := columns
  rows := []
  next := 1
  aligned := by simp

theorem delete_cases {relation left : Relation} {conds : List Cond}
    (ok : relation.delete conds = .ok left) : ∃ keep, left = relation.restrict keep := by
  unfold delete at ok
  split at ok
  · exact ⟨_, (Except.ok.inj ok).symm⟩
  · cases ok

@[simp] theorem append_rows (relation : Relation) (columns : List Name) (values : List Cell) :
    (relation.append columns values).rows =
      relation.rows ++ [relation.newRow columns values] := rfl

@[simp] theorem restrict_rows (relation : Relation) (keep : Row → Bool) :
    (relation.restrict keep).rows = relation.rows.filter keep := rfl

@[simp] theorem truncate_rows (relation : Relation) : relation.truncate.rows = [] := by
  simp [truncate]

end Relation

end Casbinex.Sql
