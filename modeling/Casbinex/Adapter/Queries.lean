import Casbinex.Adapter.PgAdapter

/-!
# The texts of the updates and the statements they denote

The loops of the three updates are run without faults; what they build is a
closed text.  Scanning and parsing that text gives back one statement whose
literals are the given fields.
-/

namespace Casbinex.Adapter

open Casbinex.Program
open Casbinex.Program.Prog
open Casbinex.Sql
open Casbinex.Sql.Lexer
open Casbinex.Sql.Parser

def tableName : Name := ascii "casbin_rule"

/-- The name `casbin_rule`, resolved along the search path. -/
def plainRef : TableRef := ⟨none, tableName⟩

/-- The name `polarity.casbin_rule`. -/
def polarityRef : TableRef := ⟨some (ascii "polarity"), tableName⟩

/-- The column `v<ii>`. -/
def column (ii : Nat) : Name := ascii "v" ++ decimal ii

theorem plainName_column (ii : Nat) : PlainName (column ii) where
  head := ⟨118, decimal ii, rfl, rfl, rfl⟩
  tail byte member := by
    rcases List.mem_cons.mp member with rfl | inDigits
    · exact ⟨rfl, rfl⟩
    · exact plainPart_decimal inDigits

/-! ## Pieces of the texts -/

def insertColumns (rule : Rule) : List Name :=
  (List.range 7).filterMap fun ii => (rule[ii]?).map fun _ => column ii

def insertValues (rule : Rule) : List Bytes :=
  (List.range 7).filterMap fun ii => (rule[ii]?).map cString

/-- Reading the seven positions gives the first seven fields with their positions. -/
theorem filterMap_positions {β : Type} (f : Nat → Bytes → β) (rule : Rule) :
    ((List.range 7).filterMap fun ii => (rule[ii]?).map (f ii)) = (rule.take 7).mapIdx f := by
  match rule with
  | [] => rfl
  | [_] => rfl
  | [_, _] => rfl
  | [_, _, _] => rfl
  | [_, _, _, _] => rfl
  | [_, _, _, _, _] => rfl
  | [_, _, _, _, _, _] => rfl
  | _ :: _ :: _ :: _ :: _ :: _ :: _ :: _ => rfl

theorem filterMap_fields {β : Type} (f : Bytes → β) (rule : Rule) :
    ((List.range 7).filterMap fun ii => (rule[ii]?).map f) = (rule.take 7).map f := by
  rw [filterMap_positions fun _ => f]
  apply List.ext_getElem <;> simp

def insertQuery (ptype : Bytes) (rule : Rule) : Bytes :=
  ascii "INSERT INTO casbin_rule (" ++
    (ascii "ptype" ++ (insertColumns rule).flatMap (44 :: ·)) ++
    ascii ") values (" ++
    (literal (cString ptype) ++
      (insertValues rule).flatMap fun value => 44 :: 32 :: literal value) ++
    ascii ");"

/-- The conjunct of `RemovePolicy` on `v<ii>`. -/
def matchCond (rule : Rule) (ii : Nat) : Cond :=
  match rule[ii]? with
  | some field => .eq (column ii) (cString field)
  | none => .isNull (column ii)

/-- The conjuncts of `RemoveFilteredPolicy`, one for each value. -/
def filterConds (first : Nat) (fieldValues : List Bytes) : List Cond :=
  fieldValues.mapIdx fun offset value => .eq (column (first + offset)) (cString value)

def deleteQuery (ptype : Bytes) (conds : List Cond) : Bytes :=
  ascii "DELETE FROM polarity.casbin_rule where " ++ ascii "ptype = " ++ literal (cString ptype) ++
    conds.flatMap condText ++ ascii ";"

/-- One turn of the loop of `RemoveFilteredPolicy` appends one conjunct. -/
theorem append_condText (query : Bytes) (ii : Nat) (value : Bytes) :
    query ++ ascii " AND v" ++ decimal ii ++ ascii " = " ++ literal value =
      query ++ condText (.eq (column ii) value) := by
  have joint : ascii " AND v" = ascii " AND " ++ ascii "v" := rfl
  simp [condText, column, joint]

/-! ## The loops build the texts -/

/-- The client library escapes the field: cut at its first zero byte, quotes doubled. -/
def Escaped (answers : (i : Instr) → i.Answer) (field : Bytes) : Prop :=
  answers (.esc field) = doubleQuotes (cString field)

section

variable {answers : (i : Instr) → i.Answer}

theorem plays_quote {field : Bytes} (escaped : Escaped answers field) :
    Plays answers (quote field) [Instr.esc field] (literal (cString field)) := by
  have text : ascii "'" ++ answers (.esc field) ++ ascii "'" = literal (cString field) := by
    rw [escaped]
    rfl
  rw [← text]
  exact (Plays.perform (Instr.esc field)).bind_ret rfl

theorem plays_insertFields {rule : Rule} (escaped : ∀ field ∈ rule, Escaped answers field)
    (indices : List Nat) (columns values : Bytes) :
    Plays answers (indices.foldlM (insertField rule) (columns, values))
      (indices.filterMap fun ii => (rule[ii]?).map Instr.esc)
      (columns ++ (indices.filterMap fun ii => (rule[ii]?).map fun _ => column ii).flatMap
          (44 :: ·),
        values ++ (indices.filterMap fun ii => (rule[ii]?).map cString).flatMap
          fun value => 44 :: 32 :: literal value) := by
  induction indices generalizing columns values with
  | nil => simpa using Plays.ret (columns, values)
  | cons ii more ih =>
      cases field : rule[ii]? with
      | none =>
          have turn : Plays answers (insertField rule (columns, values) ii) []
              (columns, values) := by
            rw [insertField, field]
            exact .ret _
          simpa [field] using turn.foldlM_cons (ih columns values)
      | some text =>
          have turn : Plays answers (insertField rule (columns, values) ii) [Instr.esc text]
              (columns ++ ascii ",v" ++ decimal ii,
                values ++ ascii ", " ++ literal (cString text)) := by
            rw [insertField, field]
            exact (plays_quote (escaped text (List.mem_of_getElem? field))).bind_ret rfl
          have comma : ascii ",v" = 44 :: ascii "v" := rfl
          have blank : ascii ", " = [44, 32] := rfl
          have whole := turn.foldlM_cons (ih _ _)
          simpa [field, column, comma, blank] using whole

theorem plays_matchField {rule : Rule} (escaped : ∀ field ∈ rule, Escaped answers field)
    (query : Bytes) (ii : Nat) :
    Plays answers (matchField rule query ii) ((rule[ii]?).map Instr.esc).toList
      (query ++ condText (matchCond rule ii)) := by
  have joint : ascii " AND v" = ascii " AND " ++ ascii "v" := rfl
  cases field : rule[ii]? with
  | none =>
      have text : query ++ condText (matchCond rule ii) =
          query ++ ascii " AND v" ++ decimal ii ++ ascii " is NULL " := by
        simp [matchCond, field, condText, column, joint]
      rw [matchField, field, text]
      exact .ret _
  | some value =>
      rw [matchField, field, matchCond, field, ← append_condText]
      exact (plays_quote (escaped value (List.mem_of_getElem? field))).bind_ret rfl

theorem plays_matchFields {rule : Rule} (escaped : ∀ field ∈ rule, Escaped answers field)
    (indices : List Nat) (query : Bytes) :
    Plays answers (indices.foldlM (matchField rule) query)
      (indices.filterMap fun ii => (rule[ii]?).map Instr.esc)
      (query ++ (indices.map (matchCond rule)).flatMap condText) := by
  induction indices generalizing query with
  | nil => simpa using Plays.ret query
  | cons ii more ih =>
      have whole := (plays_matchField escaped query ii).foldlM_cons (ih _)
      cases field : rule[ii]? <;> simpa [field] using whole

end

/-- A client library that escapes every field; the other answers carry nothing. -/
def escaping : (i : Instr) → i.Answer
  | .esc field => doubleQuotes (cString field)
  | .exec _ => []
  | .model _ => (∅ : Model)
  | .checkout => ()
  | .beginWork => ()
  | .openStream _ _ => ()
  | .write _ => ()
  | .complete => ()
  | .commit => ()
  | .endWork => ()
  | .undefined _ => ()

theorem escaped_escaping (field : Bytes) : Escaped escaping field := rfl

/-- What a program plays that only escapes, it returns on every store. -/
theorem run_of_plays {p : AdapterProg Bytes} {fields : List Bytes} {text : Bytes}
    (plays : Plays escaping p (fields.map Instr.esc) text) (store : Store) :
    run machine p [] store = ⟨.ok text, store, []⟩ := by
  refine plays.run machine fun i member => ?_
  obtain ⟨field, _, rfl⟩ := List.mem_map.mp member
  rfl

/-! ## No text holds a zero byte -/

theorem zero_notMem_doubleQuotes {field : Bytes} (clean : (0 : UInt8) ∉ field) :
    (0 : UInt8) ∉ doubleQuotes field := by
  intro member
  obtain ⟨byte, inField, inPiece⟩ := List.mem_flatMap.mp member
  split at inPiece
  · simp at inPiece
  · rw [List.mem_singleton] at inPiece
    exact clean (inPiece ▸ inField)

theorem zero_notMem_literal (field : Bytes) : (0 : UInt8) ∉ literal (cString field) := by
  have inner := zero_notMem_doubleQuotes (zero_notMem_cString field)
  simp [literal, inner]

theorem zero_notMem_column (ii : Nat) : (0 : UInt8) ∉ column ii := by
  intro member
  have plain := (plainName_column ii).tail 0 member
  exact absurd plain.1 (by decide)

theorem zero_notMem_condText {cond : Cond} (name : ∃ ii, cond.column = column ii)
    (value : ∀ c v, cond = .eq c v → ∃ field, v = cString field) :
    (0 : UInt8) ∉ condText cond := by
  obtain ⟨ii, named⟩ := name
  have joint : (0 : UInt8) ∉ ascii " AND " := by decide
  have equals : (0 : UInt8) ∉ ascii " = " := by decide
  have test : (0 : UInt8) ∉ ascii " is NULL " := by decide
  have clean := zero_notMem_column ii
  cases cond with
  | eq c v =>
      obtain ⟨field, rfl⟩ := value c v rfl
      change c = column ii at named
      subst named
      simp [condText, joint, equals, clean, zero_notMem_literal]
  | isNull c =>
      change c = column ii at named
      subst named
      simp [condText, joint, test, clean]

/-- Conditions on the `v` columns with fields as values. -/
def Conjuncts (conds : List Cond) : Prop :=
  ∀ cond ∈ conds, (∃ ii, cond.column = column ii) ∧
    ∀ c v, cond = .eq c v → ∃ field, v = cString field

theorem Conjuncts.nil : Conjuncts [] := fun _ member => absurd member List.not_mem_nil

theorem Conjuncts.cons {conds : List Cond} (conjuncts : Conjuncts conds) (ii : Nat)
    (field : Bytes) : Conjuncts (.eq (column ii) (cString field) :: conds) := by
  refine List.forall_mem_cons.mpr ⟨⟨⟨ii, rfl⟩, fun c v same => ?_⟩, conjuncts⟩
  cases same
  exact ⟨field, rfl⟩

theorem conjuncts_matchCond (rule : Rule) (indices : List Nat) :
    Conjuncts (indices.map (matchCond rule)) := by
  intro cond member
  obtain ⟨ii, _, rfl⟩ := List.mem_map.mp member
  unfold matchCond
  cases rule[ii]? with
  | none => exact ⟨⟨ii, rfl⟩, fun c v same => by cases same⟩
  | some field => exact ⟨⟨ii, rfl⟩, fun c v same => by cases same; exact ⟨field, rfl⟩⟩

theorem conjuncts_filterConds (first : Nat) (fieldValues : List Bytes) :
    Conjuncts (filterConds first fieldValues) := by
  intro cond member
  obtain ⟨offset, bound, rfl⟩ := List.mem_mapIdx.mp member
  exact ⟨⟨first + offset, rfl⟩, fun c v same => by cases same; exact ⟨_, rfl⟩⟩

theorem cString_insertQuery (ptype : Bytes) (rule : Rule) :
    cString (insertQuery ptype rule) = insertQuery ptype rule := by
  apply cString_of_notMem
  have columns : (0 : UInt8) ∉ (insertColumns rule).flatMap (44 :: ·) := by
    intro member
    obtain ⟨name, inColumns, inName⟩ := List.mem_flatMap.mp member
    obtain ⟨ii, _, found⟩ := List.mem_filterMap.mp inColumns
    obtain ⟨field, _, rfl⟩ := Option.map_eq_some_iff.mp found
    rcases List.mem_cons.mp inName with zero | inside
    · cases zero
    · exact zero_notMem_column ii inside
  have values : (0 : UInt8) ∉
      (insertValues rule).flatMap fun value => 44 :: 32 :: literal value := by
    intro member
    obtain ⟨value, inValues, inText⟩ := List.mem_flatMap.mp member
    obtain ⟨ii, _, found⟩ := List.mem_filterMap.mp inValues
    obtain ⟨field, _, rfl⟩ := Option.map_eq_some_iff.mp found
    simp only [List.mem_cons, zero_notMem_literal] at inText
    revert inText
    decide
  have opening : (0 : UInt8) ∉ ascii "INSERT INTO casbin_rule (" := by decide
  have first : (0 : UInt8) ∉ ascii "ptype" := by decide
  have middle : (0 : UInt8) ∉ ascii ") values (" := by decide
  have closing : (0 : UInt8) ∉ ascii ");" := by decide
  simp only [insertQuery, List.mem_append, opening, first, columns, middle, values, closing,
    zero_notMem_literal, or_self, not_false_eq_true]

theorem cString_deleteQuery (ptype : Bytes) {conds : List Cond} (conjuncts : Conjuncts conds) :
    cString (deleteQuery ptype conds) = deleteQuery ptype conds := by
  apply cString_of_notMem
  have inner : (0 : UInt8) ∉ conds.flatMap condText := by
    intro member
    obtain ⟨cond, inConds, inText⟩ := List.mem_flatMap.mp member
    exact zero_notMem_condText (conjuncts cond inConds).1 (conjuncts cond inConds).2 inText
  have opening : (0 : UInt8) ∉ ascii "DELETE FROM polarity.casbin_rule where " := by decide
  have first : (0 : UInt8) ∉ ascii "ptype = " := by decide
  have closing : (0 : UInt8) ∉ ascii ";" := by decide
  simp only [deleteQuery, List.mem_append, opening, first, inner, closing, zero_notMem_literal,
    or_self, not_false_eq_true]

/-! ## Parsing gives back the statement -/

def insertTokens (ptype : Bytes) (rule : Rule) : List Token :=
  kw "insert" :: kw "into" :: .word tableName :: .sym 40 ::
    (.word (ascii "ptype") :: (insertColumns rule).flatMap (fun name => [.sym 44, .word name]) ++
      .sym 41 :: kw "values" :: .sym 40 ::
        (.str (cString ptype) ::
          (insertValues rule).flatMap (fun value => [.sym 44, .str value]) ++
          .sym 41 :: [.sym 59]))

def deleteTokens (ptype : Bytes) (conds : List Cond) : List Token :=
  kw "delete" :: kw "from" :: .word (ascii "polarity") :: .sym 46 :: .word tableName ::
    kw "where" :: (condTokens (.eq (ascii "ptype") (cString ptype)) ++ conjTokens conds ++
      [.sym 59])

theorem lex_insertQuery (ptype : Bytes) (rule : Rule) :
    lex (insertQuery ptype rule) = some (insertTokens ptype rule) := by
  have names : ∀ name ∈ insertColumns rule, PlainName name := by
    intro name member
    obtain ⟨ii, _, found⟩ := List.mem_filterMap.mp member
    obtain ⟨_, _, rfl⟩ := Option.map_eq_some_iff.mp found
    exact plainName_column ii
  have opening : run .start (ascii "INSERT INTO casbin_rule (ptype") =
      some ([kw "insert", kw "into", .word tableName, .sym 40], .word (ascii "ptype")) := by
    decide
  have middle : run .start (ascii " values (") = some ([kw "values", .sym 40], .start) := by
    decide
  have closing : lexFrom .start [59] = some [.sym 59] := by decide
  have split : insertQuery ptype rule =
      ascii "INSERT INTO casbin_rule (ptype" ++ ((insertColumns rule).flatMap (44 :: ·) ++
        41 :: (ascii " values (" ++ (literal (cString ptype) ++
          ((insertValues rule).flatMap (fun value => 44 :: 32 :: literal value) ++
            41 :: [59])))) := by
    have joined : ascii "INSERT INTO casbin_rule (ptype" =
        ascii "INSERT INTO casbin_rule (" ++ ascii "ptype" := rfl
    have paren : ascii ") values (" = 41 :: ascii " values (" := rfl
    have final : ascii ");" = [41, 59] := rfl
    simp [insertQuery, joined, paren, final]
  unfold lex insertTokens
  rw [split, lexFrom_append opening, lexFrom_names _ names, lexFrom_append middle,
    lexFrom_append (run_literal _), lexFrom_literals, closing]
  simp

theorem statement_insertTokens (ptype : Bytes) (rule : Rule) :
    statement (insertTokens ptype rule) =
      some (.insert plainRef (ascii "ptype" :: insertColumns rule)
        (cString ptype :: insertValues rule)) := by
  rw [insertTokens, statement_insert, insertTail_tokens]
  rfl

theorem parse_insertQuery (ptype : Bytes) (rule : Rule) :
    parse (insertQuery ptype rule) =
      some (.insert plainRef (ascii "ptype" :: insertColumns rule)
        (cString ptype :: insertValues rule)) := by
  rw [parse, lex_insertQuery, Option.bind_some, statement_insertTokens]

theorem lex_deleteQuery (ptype : Bytes) {conds : List Cond} (conjuncts : Conjuncts conds) :
    lex (deleteQuery ptype conds) = some (deleteTokens ptype conds) := by
  have names : ∀ cond ∈ conds, PlainName cond.column := by
    intro cond member
    obtain ⟨ii, named⟩ := (conjuncts cond member).1
    exact named ▸ plainName_column ii
  have opening : run .start
        (ascii "DELETE FROM polarity.casbin_rule where " ++ ascii "ptype = ") =
      some ([kw "delete", kw "from", .word (ascii "polarity"), .sym 46, .word tableName,
        kw "where", .word (ascii "ptype"), .sym 61], .start) := by
    decide
  have split : deleteQuery ptype conds =
      (ascii "DELETE FROM polarity.casbin_rule where " ++ ascii "ptype = ") ++
        (literal (cString ptype) ++ (conds.flatMap condText ++ [59])) := by
    have final : ascii ";" = [59] := rfl
    simp [deleteQuery, final]
  unfold lex deleteTokens
  rw [split, lexFrom_append opening, lexFrom_append (run_literal _),
    lexFrom_conds conds names (.closing _)]
  simp

theorem statement_deleteTokens (ptype : Bytes) (conds : List Cond) :
    statement (deleteTokens ptype conds) =
      some (.delete polarityRef (.eq (ascii "ptype") (cString ptype) :: conds)) := by
  rw [deleteTokens, statement_delete, deleteTail_tokens]
  rfl

theorem parse_deleteQuery (ptype : Bytes) {conds : List Cond} (conjuncts : Conjuncts conds) :
    parse (deleteQuery ptype conds) =
      some (.delete polarityRef (.eq (ascii "ptype") (cString ptype) :: conds)) := by
  rw [parse, lex_deleteQuery ptype conjuncts, Option.bind_some, statement_deleteTokens]

/-- What PostgreSQL reads in the text of a DELETE. -/
theorem read_deleteQuery (ptype : Bytes) {conds : List Cond} (conjuncts : Conjuncts conds) :
    parse (cString (deleteQuery ptype conds)) =
      some (.delete polarityRef (.eq (ascii "ptype") (cString ptype) :: conds)) := by
  rw [cString_deleteQuery ptype conjuncts, parse_deleteQuery ptype conjuncts]

theorem execText_deleteQuery (db : Database) (ptype : Bytes) {conds : List Cond}
    (conjuncts : Conjuncts conds) :
    db.execText (deleteQuery ptype conds) =
      (db.update polarityRef fun relation =>
        relation.delete (.eq (ascii "ptype") (cString ptype) :: conds)).map ([], ·) := by
  simp only [Database.execText, read_deleteQuery ptype conjuncts, Database.exec]
  cases db.update polarityRef fun relation =>
      relation.delete (.eq (ascii "ptype") (cString ptype) :: conds) with
  | error error => rfl
  | ok changed => rfl

end Casbinex.Adapter
