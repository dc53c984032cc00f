import Casbinex.Adapter.Enforcer

/-!
# Policy text is data

Every text of an update stands between quotes of its own, with its quotes doubled.
The scanner is back between tokens after each of them, whatever the texts are: the
update executes one statement, its string literals denote the texts in order, and
everything else depends on the number of texts and the index alone.
-/

namespace Casbinex.Adapter

open Casbinex.Program
open Casbinex.Program.Prog
open Casbinex.Sql
open Casbinex.Sql.Lexer (doubleQuotes)
open Casbinex.Sql.Parser (conjTokens_masked conjTokens_literals)

inductive UpdateKind where
  | add
  | remove
  | removeFiltered
  deriving DecidableEq, Repr

namespace Update

def kind : Update → UpdateKind
  | .add _ _ _ => .add
  | .remove _ _ _ => .remove
  | .removeFiltered _ _ _ _ => .removeFiltered

def fields : Update → List Bytes
  | .add _ _ rule => rule
  | .remove _ _ rule => rule
  | .removeFiltered _ _ _ fieldValues => fieldValues

/-- The index of the column that faces the first field. -/
def index : Update → Int32
  | .removeFiltered _ _ fieldIndex _ => fieldIndex
  | _ => 0

/-- The fields that reach the text: the first seven of a rule, all values of a filter. -/
def quoted : Update → List Bytes
  | .add _ _ rule => rule.take 7
  | .remove _ _ rule => rule.take 7
  | .removeFiltered _ _ _ fieldValues => fieldValues

/-- The columns asked for end before this index. -/
def reach (u : Update) : Nat := u.index.toNatClampNeg + u.quoted.length

/-- The statement an update stands for: the ptype faces `ptype` and the field `j` faces
`v<index + j>`. -/
def statement : Update → Statement
  | .add _ ptype rule =>
      .insert plainRef (ascii "ptype" :: (rule.take 7).mapIdx fun j _ => column j)
        (ptype :: rule.take 7)
  | .remove _ ptype rule =>
      .delete polarityRef (.eq (ascii "ptype") ptype :: (List.range 7).map fun j =>
        ((rule[j]?).map (.eq (column j))).getD (.isNull (column j)))
  | .removeFiltered _ ptype fieldIndex fieldValues =>
      .delete polarityRef (.eq (ascii "ptype") ptype :: fieldValues.mapIdx fun j value =>
        .eq (column (fieldIndex.toNatClampNeg + j)) value)

def query : Update → Bytes
  | .add _ ptype rule => insertQuery ptype rule
  | .remove _ ptype rule => deleteQuery ptype ((List.range 7).map (matchCond rule))
  | .removeFiltered _ ptype fieldIndex fieldValues =>
      deleteQuery ptype (filterConds fieldIndex.toNatClampNeg fieldValues)

def tokens : Update → List Token
  | .add _ ptype rule => insertTokens ptype rule
  | .remove _ ptype rule => deleteTokens ptype ((List.range 7).map (matchCond rule))
  | .removeFiltered _ ptype fieldIndex fieldValues =>
      deleteTokens ptype (filterConds fieldIndex.toNatClampNeg fieldValues)

/-- The update with the empty text for every text. -/
def blank : Update → Update
  | .add _ _ rule => .add [] [] (rule.map fun _ => [])
  | .remove _ _ rule => .remove [] [] (rule.map fun _ => [])
  | .removeFiltered _ _ fieldIndex fieldValues =>
      .removeFiltered [] [] fieldIndex (fieldValues.map fun _ => [])

/-- No text holds a zero byte. -/
def Clean (u : Update) : Prop := ∀ text ∈ u.ptype :: u.fields, (0 : UInt8) ∉ text

/-! ## The tokens of an update -/

theorem cString_query (u : Update) : cString u.query = u.query := by
  cases u with
  | add sec ptype rule => exact cString_insertQuery ptype rule
  | remove sec ptype rule => exact cString_deleteQuery ptype (conjuncts_matchCond rule _)
  | removeFiltered sec ptype fieldIndex fieldValues =>
      exact cString_deleteQuery ptype (conjuncts_filterConds _ fieldValues)

theorem lex_query (u : Update) : lex u.query = some u.tokens := by
  cases u with
  | add sec ptype rule => exact lex_insertQuery ptype rule
  | remove sec ptype rule => exact lex_deleteQuery ptype (conjuncts_matchCond rule _)
  | removeFiltered sec ptype fieldIndex fieldValues =>
      exact lex_deleteQuery ptype (conjuncts_filterConds _ fieldValues)

theorem Clean.ptype {u : Update} (clean : u.Clean) : cString u.ptype = u.ptype :=
  cString_of_notMem (clean u.ptype List.mem_cons_self)

theorem Clean.fields {u : Update} (clean : u.Clean) : u.fields.map cString = u.fields :=
  map_cString_of_notMem fun field member => clean field (List.mem_cons_of_mem u.ptype member)

theorem Clean.quoted {u : Update} (clean : u.Clean) : u.quoted.map cString = u.quoted := by
  have whole := clean.fields
  cases u with
  | removeFiltered sec ptype fieldIndex fieldValues => exact whole
  | _ => exact List.map_take.trans (congrArg (List.take 7) whole)

theorem matchCond_eq (rule : Rule) (j : Nat) :
    matchCond rule j =
      (((rule.map cString)[j]?).map (Cond.eq (column j))).getD (.isNull (column j)) := by
  rw [matchCond, List.getElem?_map]
  cases rule[j]? <;> rfl

theorem filterConds_eq (first : Nat) (fieldValues : List Bytes) :
    filterConds first fieldValues =
      (fieldValues.map cString).mapIdx fun j value => .eq (column (first + j)) value := by
  apply List.ext_getElem <;> simp [filterConds]

/-- The tokens form one statement. -/
theorem statement_tokens {u : Update} (clean : u.Clean) :
    Parser.statement u.tokens = some u.statement := by
  have whole := clean.ptype
  have fields := clean.fields
  have values := clean.quoted
  cases u with
  | add sec ptype rule =>
      change cString ptype = ptype at whole
      change (rule.take 7).map cString = rule.take 7 at values
      have columns : insertColumns rule = (rule.take 7).mapIdx fun j _ => column j :=
        filterMap_positions (fun j _ => column j) rule
      rw [tokens, statement_insertTokens, insertValues, filterMap_fields, columns, whole, values]
      rfl
  | remove sec ptype rule =>
      change cString ptype = ptype at whole
      change rule.map cString = rule at fields
      rw [tokens, statement_deleteTokens, funext (matchCond_eq rule), whole, fields]
      rfl
  | removeFiltered sec ptype fieldIndex fieldValues =>
      change cString ptype = ptype at whole
      change fieldValues.map cString = fieldValues at fields
      rw [tokens, statement_deleteTokens, filterConds_eq, whole, fields]
      rfl

theorem literals_insertTokens (ptype : Bytes) (rule : Rule) :
    (insertTokens ptype rule).filterMap Token.literal = cString ptype :: insertValues rule := by
  simp [insertTokens, Parser.kw, Token.literal, List.filterMap_cons, List.filterMap_flatMap]

theorem literals_deleteTokens (ptype : Bytes) (conds : List Cond) :
    (deleteTokens ptype conds).filterMap Token.literal =
      cString ptype :: conds.filterMap Cond.value := by
  simp [deleteTokens, Parser.kw, Token.literal, List.filterMap_cons, conjTokens_literals]

theorem values_matchConds (rule : Rule) :
    ((List.range 7).map (matchCond rule)).filterMap Cond.value = (rule.take 7).map cString := by
  rw [← filterMap_fields, List.filterMap_map]
  congr 1
  funext ii
  rw [Function.comp_apply, matchCond]
  cases rule[ii]? <;> rfl

theorem values_filterConds (first : Nat) (fieldValues : List Bytes) :
    (filterConds first fieldValues).filterMap Cond.value = fieldValues.map cString := by
  induction fieldValues generalizing first with
  | nil => rfl
  | cons value more ih =>
      rw [filterConds_cons, List.map_cons, ← ih (first + 1)]
      rfl

/-- The string literals denote the ptype and the fields, in order. -/
theorem literals_tokens {u : Update} (clean : u.Clean) :
    u.tokens.filterMap Token.literal = u.ptype :: u.quoted := by
  rw [← clean.ptype, ← clean.quoted]
  cases u with
  | add sec ptype rule =>
      rw [tokens, literals_insertTokens, insertValues, filterMap_fields]
      rfl
  | remove sec ptype rule =>
      rw [tokens, literals_deleteTokens, values_matchConds]
      rfl
  | removeFiltered sec ptype fieldIndex fieldValues =>
      rw [tokens, literals_deleteTokens, values_filterConds]
      rfl

/-! ## Everything but the literals -/

theorem masked_insertTokens (ptype : Bytes) (rule : Rule) :
    (insertTokens ptype rule).map Token.masked = insertTokens [] (rule.map fun _ => []) := by
  have columns : insertColumns (rule.map fun _ => []) = insertColumns rule := by
    simp only [insertColumns, List.getElem?_map, Option.map_map]
    rfl
  have values : insertValues (rule.map fun _ => []) = (insertValues rule).map fun _ => [] := by
    simp only [insertValues, List.getElem?_map, Option.map_map, List.map_filterMap]
    rfl
  rw [insertTokens, insertTokens, columns, values]
  simp only [List.map_cons, List.map_append, List.map_flatMap, List.flatMap_map, Parser.kw,
    Token.masked, List.map_nil]
  rfl

theorem masked_deleteTokens (ptype : Bytes) (conds : List Cond) :
    (deleteTokens ptype conds).map Token.masked = deleteTokens [] (conds.map Cond.masked) := by
  simp [deleteTokens, Parser.kw, Token.masked, conjTokens_masked, cString]

theorem masked_matchConds (rule : Rule) :
    ((List.range 7).map (matchCond rule)).map Cond.masked =
      (List.range 7).map (matchCond (rule.map fun _ => [])) := by
  rw [List.map_map]
  congr 1
  funext ii
  rw [Function.comp_apply, matchCond, matchCond, List.getElem?_map]
  cases rule[ii]? <;> rfl

theorem masked_filterConds (first : Nat) (fieldValues : List Bytes) :
    (filterConds first fieldValues).map Cond.masked =
      filterConds first (fieldValues.map fun _ => []) := by
  induction fieldValues generalizing first with
  | nil => rfl
  | cons value more ih =>
      rw [filterConds_cons, List.map_cons, List.map_cons, filterConds_cons, ← ih]
      rfl

/-- Without the texts of the literals the tokens are those of the blank update. -/
theorem masked_tokens (u : Update) : u.tokens.map Token.masked = u.blank.tokens := by
  cases u with
  | add sec ptype rule => exact masked_insertTokens ptype rule
  | remove sec ptype rule =>
      rw [tokens, masked_deleteTokens, masked_matchConds]
      rfl
  | removeFiltered sec ptype fieldIndex fieldValues =>
      rw [tokens, masked_deleteTokens, masked_filterConds]
      rfl

theorem reach_blank (u : Update) : u.blank.reach = u.reach := by
  cases u <;> simp [reach, blank, index, quoted]

end Update

/-- Two updates of one kind, with as many fields and the same index. -/
structure SameShape (u v : Update) : Prop where
  kind : u.kind = v.kind
  count : u.fields.length = v.fields.length
  index : u.index = v.index

theorem SameShape.blank_eq {u v : Update} (same : SameShape u v) : u.blank = v.blank := by
  have texts : u.fields.map (fun _ => ([] : Bytes)) = v.fields.map fun _ => [] := by
    rw [List.map_const', List.map_const', same.count]
  cases u with
  | add sec ptype rule =>
      cases v with
      | add _ _ _ => exact congrArg (Update.add [] []) texts
      | _ => cases same.kind
  | remove sec ptype rule =>
      cases v with
      | remove _ _ _ => exact congrArg (Update.remove [] []) texts
      | _ => cases same.kind
  | removeFiltered sec ptype fieldIndex fieldValues =>
      cases v with
      | removeFiltered _ _ _ _ => exact congrArg₂ (Update.removeFiltered [] []) same.index texts
      | _ => cases same.kind

/-! ## The text that is executed -/

section

variable {answers : (i : Instr) → i.Answer} {u : Update}

theorem plays_store (escaped : ∀ text ∈ u.ptype :: u.fields, Escaped answers text)
    (nonneg : 0 ≤ u.index) (narrow : u.reach < 2 ^ 32) :
    Plays answers u.store (updateOps (u.ptype :: u.quoted) u.query) () := by
  cases u with
  | add sec ptype rule => exact plays_addPolicy sec escaped
  | remove sec ptype rule => exact plays_removePolicy sec escaped
  | removeFiltered sec ptype fieldIndex fieldValues =>
      exact plays_removeFilteredPolicy sec nonneg escaped narrow

/-- Where the columns asked for pass the counters of 32 bits, no text is ever executed. -/
theorem meets_store (nonneg : 0 ≤ u.index) (size : u.fields.length < 2 ^ 63)
    (wide : 2 ^ 32 ≤ u.reach) : Meets (fun i => i.crashes = true) u.store := by
  have rules (rule : Rule) : (0 : Int32).toNatClampNeg + (rule.take 7).length < 2 ^ 32 := by
    have seven := List.length_take_le 7 rule
    have zero : (0 : Int32).toNatClampNeg = 0 := rfl
    omega
  cases u with
  | add sec ptype rule => exact absurd wide (Nat.not_le.mpr (rules rule))
  | remove sec ptype rule => exact absurd wide (Nat.not_le.mpr (rules rule))
  | removeFiltered sec ptype fieldIndex fieldValues =>
      have half := fieldIndex.toInt_lt
      have index : fieldIndex.toInt = fieldIndex.toNatClampNeg := toInt_eq_of_nonneg nonneg
      change 2 ^ 32 ≤ fieldIndex.toNatClampNeg + fieldValues.length at wide
      change fieldValues.length < 2 ^ 63 at size
      exact meets_removeFilteredPolicy (by omega) sec ptype

/-- The call meets no point where the source goes wrong. -/
def Sound (answers : (i : Instr) → i.Answer) (u : Update) : Prop :=
  ∀ i ∈ trace answers u.store, i.crashes = false

theorem sound_iff (escaped : ∀ text ∈ u.ptype :: u.fields, Escaped answers text)
    (nonneg : 0 ≤ u.index) (size : u.fields.length < 2 ^ 63) :
    Sound answers u ↔ u.reach < 2 ^ 32 := by
  constructor
  · intro sound
    by_contra wide
    obtain ⟨i, member, wrong⟩ :=
      (meets_store nonneg size (Nat.not_lt.mp wide)).exists_mem_trace answers
    rw [sound i member] at wrong
    cases wrong
  · intro narrow
    unfold Sound
    rw [(plays_store escaped nonneg narrow).trace_eq]
    exact crashes_updateOps _ _

/-- One text is executed.  It is one statement, the one the update stands for, and its
string literals denote the ptype and the fields in order. -/
structure Executes (answers : (i : Instr) → i.Answer) (u : Update) (tokens : List Token) :
    Prop where
  executed : ∃ query, (trace answers u.store).filterMap Instr.text = [query] ∧
    lex (cString query) = some tokens
  statement : Parser.statement tokens = some u.statement
  literals : tokens.filterMap Token.literal = u.ptype :: u.quoted

/-- Valid texts without a zero byte, an index that is not negative, and no more fields than
a vector can hold. -/
structure Admissible (valid : Bytes → Prop) (u : Update) : Prop where
  texts : ∀ text ∈ u.ptype :: u.fields, valid text ∧ (0 : UInt8) ∉ text
  nonneg : 0 ≤ u.index
  size : u.fields.length < 2 ^ 63

variable {valid : Bytes → Prop}

theorem Admissible.clean (admissible : Admissible valid u) : u.Clean :=
  fun text member => (admissible.texts text member).2

theorem Admissible.escaped (admissible : Admissible valid u)
    (escapes : ∀ text, valid text → (0 : UInt8) ∉ text →
      answers (.esc text) = doubleQuotes text) :
    ∀ text ∈ u.ptype :: u.fields, Escaped answers text := by
  intro text member
  obtain ⟨isValid, clean⟩ := admissible.texts text member
  rw [Escaped, cString_of_notMem clean]
  exact escapes text isValid clean

theorem executes_tokens (escaped : ∀ text ∈ u.ptype :: u.fields, Escaped answers text)
    (nonneg : 0 ≤ u.index) (narrow : u.reach < 2 ^ 32) (clean : u.Clean) :
    Executes answers u u.tokens where
  executed := by
    refine ⟨u.query, ?_, ?_⟩
    · rw [(plays_store escaped nonneg narrow).trace_eq, texts_updateOps]
    · rw [u.cString_query, u.lex_query]
  statement := Update.statement_tokens clean
  literals := Update.literals_tokens clean

/-- No text of an update can end its literal early, add a condition or start another
statement: an update that executes a text executes the statement it stands for, and the
tokens outside the literals are those of every other update of its shape.  An update that
asks for more columns than the counter reaches never returns. -/
theorem texts_are_data (escapes : ∀ text, valid text → (0 : UInt8) ∉ text →
      answers (.esc text) = doubleQuotes text) (admissible : Admissible valid u) :
    (Sound answers u ↔ u.reach < 2 ^ 32) ∧
    (¬ Sound answers u → ∀ faults model db, (call u.store faults model db).result ≠ .ok ()) ∧
    (Sound answers u → ∃ tokens, Executes answers u tokens ∧
      ∀ v, Admissible valid v → SameShape u v → ∃ others, Executes answers v others ∧
        others.map Token.masked = tokens.map Token.masked) := by
  have exact := sound_iff (admissible.escaped escapes) admissible.nonneg admissible.size
  refine ⟨exact, fun unsound faults model db => ?_, fun sound => ?_⟩
  · have wide := Nat.not_lt.mp (mt exact.mpr unsound)
    have meets := meets_store admissible.nonneg admissible.size wide
    exact meets.run_ne_ok machine step_of_crashes faults (Store.idle model db) ()
  · have narrow := exact.mp sound
    refine ⟨u.tokens, executes_tokens (admissible.escaped escapes) admissible.nonneg narrow
      admissible.clean, fun v other same => ⟨v.tokens, ?_, ?_⟩⟩
    · rw [← u.reach_blank, same.blank_eq, v.reach_blank] at narrow
      exact executes_tokens (other.escaped escapes) other.nonneg narrow other.clean
    · rw [v.masked_tokens, u.masked_tokens, same.blank_eq]

end

/-- A filter whose value looks like the end of a literal and another statement. -/
def hostileFilter : Update :=
  .removeFiltered (ascii "p") (ascii "p") 0 [ascii "'; DROP TABLE casbin_rule; --"]

theorem texts_are_data_hostile :
    (trace escaping hostileFilter.store).filterMap Instr.text =
        [ascii "DELETE FROM polarity.casbin_rule where ptype = 'p' AND v0 = " ++
          ascii "'''; DROP TABLE casbin_rule; --';"] ∧
      ∃ tokens, Executes escaping hostileFilter tokens := by
  have escapes (text : Bytes) (_ : True) (clean : (0 : UInt8) ∉ text) :
      escaping (.esc text) = doubleQuotes text :=
    congrArg doubleQuotes (cString_of_notMem clean)
  have admissible : Admissible (fun _ => True) hostileFilter := by
    refine ⟨fun text member => ⟨trivial, ?_⟩, by decide, by decide⟩
    revert text
    decide
  obtain ⟨exact, _, executes⟩ := texts_are_data escapes admissible
  obtain ⟨tokens, carried, _⟩ := executes (exact.mpr (by decide))
  exact ⟨by decide +kernel, tokens, carried⟩

end Casbinex.Adapter
