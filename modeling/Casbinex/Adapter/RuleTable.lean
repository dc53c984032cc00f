import Casbinex.Adapter.Queries
import Mathlib.Data.List.ReduceOption
import Mathlib.Tactic.IntervalCases

/-!
# Rules as rows of the nine-column table

`ruleCells` is the row of a rule without its id: the ptype, the fields and NULLs
up to `v6`.  An INSERT of a rule stores these cells, the DELETE of `RemovePolicy`
selects exactly them, and the loader reads them back.
-/

namespace Casbinex.Adapter

open Casbinex.Sql

/-- The columns of `casbin_rule` as the migrator creates it. -/
def tableColumns : List Column :=
  [⟨ascii "id", true⟩, ⟨ascii "ptype", false⟩, ⟨ascii "v0", false⟩, ⟨ascii "v1", false⟩,
    ⟨ascii "v2", false⟩, ⟨ascii "v3", false⟩, ⟨ascii "v4", false⟩, ⟨ascii "v5", false⟩,
    ⟨ascii "v6", false⟩]

/-- The ptype and the seven fields of a rule, NULL where it has none. -/
def ruleCells (ptype : Bytes) (rule : Rule) : Row :=
  some ptype :: (List.range 7).map (rule[·]?)

/-- The rows without their ids. -/
def content (relation : Relation) : List Row := relation.rows.map List.tail

section

variable {relation : Relation}

theorem names_of_columns (shape : relation.columns = tableColumns) :
    relation.names = tableColumns.map Column.name := by
  rw [Relation.names, shape]

/-- A row of the table is an id, a ptype and seven fields. -/
theorem row_split (shape : relation.columns = tableColumns) {row : Row}
    (member : row ∈ relation.rows) :
    ∃ id ptype fields, row = id :: ptype :: fields ∧ fields.length = 7 := by
  have nine : row.length = 9 := by
    rw [relation.aligned row member, shape]
    rfl
  match row, nine with
  | id :: ptype :: fields, nine => exact ⟨id, ptype, fields, rfl, by simpa using nine⟩

theorem length_of_mem_content (shape : relation.columns = tableColumns) {cells : Row}
    (member : cells ∈ content relation) : cells.length = 8 := by
  obtain ⟨row, inRows, rfl⟩ := List.mem_map.mp member
  obtain ⟨id, ptype, fields, rfl, seven⟩ := row_split shape inRows
  simp [seven]

theorem cell_ptype (id ptype : Cell) (fields : List Cell) :
    cell (tableColumns.map Column.name) (id :: ptype :: fields) (ascii "ptype") = ptype := rfl

theorem cell_column (id ptype : Cell) {fields : List Cell} (seven : fields.length = 7)
    {ii : Nat} (bound : ii < 7) :
    cell (tableColumns.map Column.name) (id :: ptype :: fields) (column ii) =
      fields[ii]?.join := by
  match fields, seven with
  | [_, _, _, _, _, _, _], _ => interval_cases ii <;> rfl

theorem knows_ptype (shape : relation.columns = tableColumns) :
    relation.knows (ascii "ptype") = true := by
  rw [Relation.knows, names_of_columns shape]
  decide

theorem knows_column (shape : relation.columns = tableColumns) {ii : Nat} (bound : ii < 7) :
    relation.knows (column ii) = true := by
  rw [Relation.knows, names_of_columns shape]
  interval_cases ii <;> decide

/-- The columns end at `v6`. -/
theorem not_knows_column (shape : relation.columns = tableColumns) {ii : Nat} (beyond : 7 ≤ ii) :
    relation.knows (column ii) = false := by
  rw [Relation.knows, names_of_columns shape]
  by_cases single : ii < 10
  · interval_cases ii <;> decide
  · have short : ∀ name ∈ tableColumns.map Column.name, name.head? = some 118 →
        name.length ≤ 2 := by decide
    have digits : 1 < (Nat.toDigits 10 ii).length := by
      have fits : (Nat.toDigits 10 ii).length ≤ 1 ↔ ii < 10 ^ 1 :=
        Nat.length_toDigits_le_iff (by decide) (by decide)
      omega
    rw [← Bool.not_eq_true, List.contains_iff_mem]
    intro member
    have bound := short _ member rfl
    have size : (column ii).length = (Nat.toDigits 10 ii).length + 1 := by
      simp [column, decimal, ascii]
    omega

/-! ## INSERT -/

theorem newRow_rule (shape : relation.columns = tableColumns) (ptype : Bytes) (rule : Rule) :
    relation.newRow (ascii "ptype" :: insertColumns rule)
        ((cString ptype :: insertValues rule).map some) =
      some (decimal relation.next) :: ruleCells (cString ptype) (rule.map cString) := by
  rw [Relation.newRow, shape]
  -- the rule has no, one, .., six or at least seven fields
  rcases rule with _ | ⟨_, _ | ⟨_, _ | ⟨_, _ | ⟨_, _ | ⟨_, _ | ⟨_, _ | ⟨_, _⟩⟩⟩⟩⟩⟩⟩ <;> rfl

/-- The table after `AddPolicy`. -/
def withRule (relation : Relation) (ptype : Bytes) (rule : Rule) : Relation :=
  relation.append (ascii "ptype" :: insertColumns rule)
    ((cString ptype :: insertValues rule).map some)

theorem insert_rule (shape : relation.columns = tableColumns) (ptype : Bytes) (rule : Rule) :
    relation.insert (ascii "ptype" :: insertColumns rule)
        ((cString ptype :: insertValues rule).map some) =
      .ok (withRule relation ptype rule) := by
  have known : (ascii "ptype" :: insertColumns rule).all relation.knows = true := by
    rw [List.all_cons, knows_ptype shape, Bool.true_and, List.all_eq_true]
    intro name member
    obtain ⟨ii, inRange, found⟩ := List.mem_filterMap.mp member
    obtain ⟨_, _, rfl⟩ := Option.map_eq_some_iff.mp found
    exact knows_column shape (List.mem_range.mp inRange)
  have lengths : (ascii "ptype" :: insertColumns rule).length =
      ((cString ptype :: insertValues rule).map some).length := by
    simp only [List.length_cons, List.length_map, insertColumns, insertValues,
      Nat.add_right_cancel_iff]
    induction List.range 7 with
    | nil => rfl
    | cons ii more ih => cases found : rule[ii]? <;> simp [found, ih]
  simp only [Relation.insert, known, lengths, if_true, withRule]

theorem content_withRule (shape : relation.columns = tableColumns) (ptype : Bytes)
    (rule : Rule) :
    content (withRule relation ptype rule) =
      content relation ++ [ruleCells (cString ptype) (rule.map cString)] := by
  unfold content withRule
  rw [Relation.append_rows, newRow_rule shape]
  simp

/-! ## DELETE -/

theorem truth_matchCond_iff (rule : Rule) (id ptype : Cell) {fields : List Cell}
    (seven : fields.length = 7) {ii : Nat} (bound : ii < 7) :
    (matchCond rule ii).truth (tableColumns.map Column.name) (id :: ptype :: fields) = some true ↔
      fields[ii]? = some ((rule.map cString)[ii]?) := by
  have read := cell_column id ptype seven bound
  have within : ii < fields.length := seven ▸ bound
  rw [List.getElem?_eq_getElem within, Option.join_some] at read
  rw [List.getElem?_eq_getElem within, Option.some.injEq, List.getElem?_map]
  unfold matchCond
  cases rule[ii]? with
  | none => rw [Cond.truth_isNull_iff, read]; rfl
  | some field => rw [Cond.truth_eq_iff, read]; rfl

/-- The conditions of `RemovePolicy` are true exactly on the row of the rule. -/
theorem selects_rule_iff (shape : relation.columns = tableColumns) {row : Row}
    (member : row ∈ relation.rows) (ptype : Bytes) (rule : Rule) :
    Cond.selects relation.names
        (.eq (ascii "ptype") (cString ptype) :: (List.range 7).map (matchCond rule)) row = true ↔
      row.tail = ruleCells (cString ptype) (rule.map cString) := by
  obtain ⟨id, kind, fields, rfl, seven⟩ := row_split shape member
  rw [Cond.selects_iff, names_of_columns shape, List.forall_mem_cons, Cond.truth_eq_iff,
    cell_ptype, List.forall_mem_map]
  simp only [List.tail_cons, ruleCells, List.cons.injEq]
  apply and_congr_right
  intro _
  constructor
  · intro each
    apply List.ext_getElem?
    intro ii
    by_cases bound : ii < 7
    · rw [(truth_matchCond_iff rule id kind seven bound).mp (each ii (List.mem_range.mpr bound))]
      simp [bound]
    · simp [seven, Nat.le_of_not_lt bound]
  · rintro rfl ii inRange
    have bound := List.mem_range.mp inRange
    apply (truth_matchCond_iff rule id kind seven bound).mpr
    simp [bound]

/-- The table after `RemovePolicy`. -/
def withoutRule (relation : Relation) (ptype : Bytes) (rule : Rule) : Relation :=
  relation.restrict fun row => !Cond.selects relation.names
    (.eq (ascii "ptype") (cString ptype) :: (List.range 7).map (matchCond rule)) row

theorem delete_rule (shape : relation.columns = tableColumns) (ptype : Bytes) (rule : Rule) :
    relation.delete (.eq (ascii "ptype") (cString ptype) :: (List.range 7).map (matchCond rule)) =
      .ok (withoutRule relation ptype rule) := by
  have known : (Cond.eq (ascii "ptype") (cString ptype) :: (List.range 7).map (matchCond rule)).all
      (fun cond => relation.knows cond.column) = true := by
    rw [List.all_cons, Bool.and_eq_true, List.all_map, List.all_eq_true]
    refine ⟨knows_ptype shape, fun ii inRange => ?_⟩
    have bound := knows_column shape (List.mem_range.mp inRange)
    simp only [Function.comp_apply, matchCond]
    cases rule[ii]? <;> exact bound
  simp only [Relation.delete, known, if_true, withoutRule]

/-- What a selection keeps out. -/
theorem not_eq_decide {selected : Bool} {property : Prop} [Decidable property]
    (exact : selected = true ↔ property) : (!selected) = decide (¬ property) := by
  rw [Bool.eq_iff_iff, decide_eq_true_iff, ← exact, Bool.not_eq_true', Bool.not_eq_true]

/-- Filtering rows by a test on their cells filters the content by that test. -/
theorem content_restrict {keep : Row → Bool} {test : Row → Bool}
    (agree : ∀ row ∈ relation.rows, keep row = test (row.tail)) :
    content (relation.restrict keep) = (content relation).filter test := by
  unfold content
  rw [Relation.restrict_rows, List.filter_map]
  exact congrArg _ (List.filter_congr agree)

/-- The rows that look like the row of the rule go, in all their copies, and no others. -/
theorem rows_withoutRule (shape : relation.columns = tableColumns) (ptype : Bytes) (rule : Rule) :
    (withoutRule relation ptype rule).rows =
      relation.rows.filter (·.tail ≠ ruleCells (cString ptype) (rule.map cString)) := by
  rw [withoutRule, Relation.restrict_rows]
  apply List.filter_congr
  intro row member
  exact not_eq_decide (selects_rule_iff shape member ptype rule)

theorem content_withoutRule (shape : relation.columns = tableColumns) (ptype : Bytes)
    (rule : Rule) :
    content (withoutRule relation ptype rule) =
      (content relation).filter (· ≠ ruleCells (cString ptype) (rule.map cString)) := by
  rw [content, rows_withoutRule shape, content, List.filter_map]
  rfl

/-! ## The filtered DELETE -/

/-- A row of the ptype whose columns from `first` on hold the given values. -/
def FilterMatches (ptype : Bytes) (first : Nat) (values : List Bytes) (cells : Row) : Prop :=
  cells.head? = some (some ptype) ∧
    ∀ offset value, values[offset]? = some value → cells[first + offset + 1]? = some (some value)

theorem selects_filter_iff (shape : relation.columns = tableColumns) {row : Row}
    (member : row ∈ relation.rows) (ptype : Bytes) {first : Nat} {values : List Bytes}
    (bound : first + values.length ≤ 7) :
    Cond.selects relation.names
        (.eq (ascii "ptype") (cString ptype) :: filterConds first values) row = true ↔
      FilterMatches (cString ptype) first (values.map cString) (row.tail) := by
  obtain ⟨id, kind, fields, rfl, seven⟩ := row_split shape member
  rw [Cond.selects_iff, names_of_columns shape, List.forall_mem_cons, Cond.truth_eq_iff,
    cell_ptype]
  simp only [FilterMatches, List.tail_cons, List.head?_cons,
    Option.some.injEq, List.getElem?_cons_succ]
  apply and_congr_right
  intro _
  have each (offset : Nat) (within : offset < values.length) :
      (Cond.eq (column (first + offset)) (cString values[offset])).truth
          (tableColumns.map Column.name) (id :: kind :: fields) = some true ↔
        fields[first + offset]? = some (some (cString values[offset])) := by
    have inside : first + offset < fields.length := by omega
    rw [Cond.truth_eq_iff, cell_column id kind seven (by omega),
      List.getElem?_eq_getElem inside, Option.join_some, Option.some.injEq]
  constructor
  · intro all offset value found
    rw [List.getElem?_map] at found
    obtain ⟨text, got, rfl⟩ := Option.map_eq_some_iff.mp found
    obtain ⟨within, rfl⟩ := List.getElem?_eq_some_iff.mp got
    exact (each offset within).mp (all _ (List.mem_mapIdx.mpr ⟨offset, within, rfl⟩))
  · intro all cond inConds
    obtain ⟨offset, within, rfl⟩ := List.mem_mapIdx.mp inConds
    apply (each offset within).mpr
    exact all offset _ (by simp [within])

/-- The table after `RemoveFilteredPolicy`. -/
def withoutMatches (relation : Relation) (ptype : Bytes) (first : Nat) (values : List Bytes) :
    Relation :=
  relation.restrict fun row => !Cond.selects relation.names
    (.eq (ascii "ptype") (cString ptype) :: filterConds first values) row

theorem delete_matches (shape : relation.columns = tableColumns) (ptype : Bytes) {first : Nat}
    {values : List Bytes} (bound : first + values.length ≤ 7) :
    relation.delete (.eq (ascii "ptype") (cString ptype) :: filterConds first values) =
      .ok (withoutMatches relation ptype first values) := by
  have known : (Cond.eq (ascii "ptype") (cString ptype) :: filterConds first values).all
      (fun cond => relation.knows cond.column) = true := by
    rw [List.all_cons, Bool.and_eq_true, List.all_eq_true]
    refine ⟨knows_ptype shape, fun cond inConds => ?_⟩
    obtain ⟨offset, within, rfl⟩ := List.mem_mapIdx.mp inConds
    exact knows_column shape (by omega)
  simp only [Relation.delete, known, if_true, withoutMatches]

theorem delete_unknown {conds : List Cond} (unknown : ∃ cond ∈ conds,
    relation.knows cond.column = false) : relation.delete conds = .error .undefinedColumn := by
  obtain ⟨cond, member, none⟩ := unknown
  have missed : ¬ conds.all (fun cond => relation.knows cond.column) = true := by
    intro all
    rw [List.all_eq_true.mp all cond member] at none
    cases none
  exact if_neg missed

open Classical in
theorem content_withoutMatches (shape : relation.columns = tableColumns) (ptype : Bytes)
    {first : Nat} {values : List Bytes} (bound : first + values.length ≤ 7) :
    content (withoutMatches relation ptype first values) =
      (content relation).filter
        fun cells => ¬ FilterMatches (cString ptype) first (values.map cString) cells := by
  apply content_restrict
  intro row member
  exact not_eq_decide (selects_filter_iff shape member ptype bound)

/-- On the row of a rule the filter asks for the fields of the rule. -/
theorem filterMatches_ruleCells (key : Bytes) (rule : Rule) (ptype : Bytes) {first : Nat}
    {values : List Bytes} (bound : first + values.length ≤ 7) :
    FilterMatches ptype first values (ruleCells key rule) ↔
      key = ptype ∧ ∀ offset value, values[offset]? = some value →
        rule[first + offset]? = some value := by
  unfold FilterMatches ruleCells
  simp only [List.head?_cons, Option.some.injEq, List.getElem?_cons_succ]
  apply and_congr_right
  intro _
  apply forall₂_congr
  intro offset value
  apply imp_congr_right
  intro found
  have within := (List.getElem?_eq_some_iff.mp found).1
  simp [show first + offset < 7 by omega]

/-! ## SELECT -/

theorem select_content (shape : relation.columns = tableColumns) :
    relation.select streamColumns [] = .ok (content relation) := by
  have known : streamColumns.all relation.knows = true := by
    unfold Relation.knows
    rw [names_of_columns shape]
    decide
  have all (row : Row) : Cond.selects relation.names [] row = true := rfl
  simp only [Relation.select, known, List.all_nil, Bool.and_true, if_true]
  rw [List.filter_eq_self.mpr fun row _ => all row]
  congr 1
  apply List.map_congr_left
  intro row member
  obtain ⟨id, ptype, fields, rfl, seven⟩ := row_split shape member
  rw [names_of_columns shape]
  match fields, seven with
  | [_, _, _, _, _, _, _], _ => rfl

end

/-! ## The loader reads the cells of a rule -/

theorem reduceOption_fields (rule : Rule) :
    ((List.range 7).map (rule[·]?)).reduceOption = rule.take 7 := by
  have fields := filterMap_fields id rule
  rw [List.map_id] at fields
  rw [← fields, List.reduceOption, List.filterMap_map]
  simp

theorem policyLine_ruleCells (ptype : Bytes) (rule : Rule) :
    policyLine (ruleCells ptype rule) = ptype :: rule.take 7 := by
  simp [policyLine, ruleCells, reduceOption_fields]

theorem entryOf_ruleCells (ptype : Bytes) (rule : Rule) :
    entryOf (ruleCells ptype rule) = some (trim ptype, (rule.take 7).map trim) := by
  simp [entryOf, policyLine_ruleCells]

theorem ruleCells_injective {ptype other : Bytes} {rule another : Rule}
    (short : rule.length ≤ 7) (brief : another.length ≤ 7)
    (same : ruleCells ptype rule = ruleCells other another) :
    ptype = other ∧ rule = another := by
  have lines := congrArg policyLine same
  rw [policyLine_ruleCells, policyLine_ruleCells, List.take_of_length_le short,
    List.take_of_length_le brief] at lines
  exact List.cons.inj lines

end Casbinex.Adapter
