import Casbinex.Adapter.Enforcer
import Casbinex.Adapter.OneRelation

/-!
# The stored filter and the filter of the model

casbin scans its rules, and an empty value stands for any field.  The adapter asks
the columns from `v<field_index>` on for the values as they are.  The two select
the same rules as long as the columns exist and no empty value stands for a field.
-/

namespace Casbinex.Adapter

open Casbinex.Program
open Casbinex.Program.Prog
open Casbinex.Sql
open Casbinex.Sql.Parser (condText)

/-- A rule that a row stores with all its fields. -/
structure StoredRule where
  ptype : Bytes
  rule : Rule
  clean : ∀ text ∈ ptype :: rule, (0 : UInt8) ∉ text
  short : rule.length ≤ 7

namespace StoredRule

def cells (r : StoredRule) : Row := ruleCells r.ptype r.rule

/-- casbin's filter selects the rule. -/
def hit (r : StoredRule) (ptype : Bytes) (first : Nat) (values : List Bytes) : Bool :=
  r.ptype == ptype && filterHits first values r.rule

/-- The fields of the rule from `first` on are the given values. -/
def Equals (r : StoredRule) (ptype : Bytes) (first : Nat) (values : List Bytes) : Prop :=
  r.ptype = ptype ∧ ∀ offset value, values[offset]? = some value →
    r.rule[first + offset]? = some value

/-- Where a value is empty, the rule has an empty field. -/
def Literal (r : StoredRule) (first : Nat) (values : List Bytes) : Prop :=
  ∀ offset, values[offset]? = some [] → r.rule[first + offset]? = some []

variable {ptype : Bytes} {first : Nat} {values : List Bytes}

theorem hit_iff (r : StoredRule) :
    r.hit ptype first values = true ↔ r.ptype = ptype ∧
      ∀ offset value, values[offset]? = some value →
        value = [] ∨ r.rule[first + offset]? = some value := by
  rw [hit, Bool.and_eq_true, beq_iff_eq, filterHits_iff]

@[simp]
theorem cString_ptype (r : StoredRule) : cString r.ptype = r.ptype :=
  cString_of_notMem (r.clean r.ptype List.mem_cons_self)

@[simp]
theorem map_cString_rule (r : StoredRule) : r.rule.map cString = r.rule :=
  map_cString_of_notMem fun field member => r.clean field (List.mem_cons_of_mem r.ptype member)

theorem cells_injective {r other : StoredRule} (same : r.cells = other.cells) : r = other := by
  obtain ⟨sameType, sameRule⟩ := ruleCells_injective r.short other.short same
  cases r
  cases other
  cases sameType
  cases sameRule
  rfl

/-- Filtering the rules by two tests leaves the same rows only if the tests agree. -/
theorem filter_inj {rows : List StoredRule} {test other : StoredRule → Bool}
    (same : (rows.filter test).map cells = (rows.filter other).map cells) :
    ∀ r ∈ rows, test r = other r := by
  have injective : Function.Injective cells := fun _ _ => cells_injective
  intro r member
  have kept := congrArg (r ∈ ·) (List.map_injective_iff.mpr injective same)
  simp only [List.mem_filter, member, true_and, eq_iff_iff] at kept
  exact Bool.eq_iff_iff.mpr kept

/-- The adapter, whose ptype ends at its first zero byte, agrees with casbin on a rule
unless an empty value stands for one of its fields or the ptype was cut. -/
theorem equals_iff_hit_iff (r : StoredRule) :
    (r.Equals (cString ptype) first values ↔ r.hit ptype first values = true) ↔
      (r.hit ptype first values = true → r.Literal first values) ∧
        ((0 : UInt8) ∈ ptype → ¬ r.Equals (cString ptype) first values) := by
  rw [hit_iff]
  have whole (own : r.ptype = ptype) : (0 : UInt8) ∉ ptype := own ▸ r.clean _ List.mem_cons_self
  constructor
  · intro agree
    refine ⟨fun hits offset found => (agree.mpr hits).2 offset [] found, fun cut same => ?_⟩
    exact whole (agree.mp same).1 cut
  · rintro ⟨wild, uncut⟩
    constructor
    · intro same
      have clean : (0 : UInt8) ∉ ptype := fun cut => uncut cut same
      exact ⟨same.1.trans (cString_of_notMem clean),
        fun offset value found => Or.inr (same.2 offset value found)⟩
    · intro hits
      refine ⟨hits.1.trans (cString_of_notMem (whole hits.1)).symm, fun offset value found => ?_⟩
      rcases hits.2 offset value found with rfl | same
      · exact wild hits offset found
      · exact same

open Classical in
/-- The two filters leave the same rows exactly when they agree on every rule. -/
theorem filter_equals_iff (rows : List StoredRule) :
    (rows.filter fun r => ¬ r.Equals (cString ptype) first values).map cells =
        (rows.filter fun r => !r.hit ptype first values).map cells ↔
      ∀ r ∈ rows, (r.hit ptype first values = true → r.Literal first values) ∧
        ((0 : UInt8) ∈ ptype → ¬ r.Equals (cString ptype) first values) := by
  constructor
  · intro same r member
    have tests := Bool.eq_iff_iff.mp (filter_inj same r member)
    rw [decide_eq_true_iff, Bool.not_eq_true', ← Bool.not_eq_true, not_iff_not] at tests
    exact r.equals_iff_hit_iff.mp tests
  · intro wild
    congr 1
    apply List.filter_congr
    intro r member
    have agree := r.equals_iff_hit_iff.mpr (wild r member)
    simp [agree]

end StoredRule

/-! ## Columns past `v6` -/

section

variable {fieldIndex : Int32} {fieldValues : List Bytes}

/-- A filter that reaches past `v6` builds no text or one with an unknown column. -/
theorem buildFilter_reaches (nonneg : 0 ≤ fieldIndex) (size : fieldValues.length < 2 ^ 63)
    (filled : fieldValues ≠ []) (beyond : 7 < fieldIndex.toNatClampNeg + fieldValues.length)
    {ptype query : Bytes} {store final : Store} {later : List Bool}
    (built : run machine (buildFilter ptype fieldIndex fieldValues) [] store =
      ⟨.ok query, final, later⟩) :
    ∃ conds, Conjuncts conds ∧ query = deleteQuery ptype conds ∧
      ∃ cond ∈ conds, ∃ ii, 7 ≤ ii ∧ cond.column = column ii := by
  by_cases small : fieldIndex.toNatClampNeg + fieldValues.length < 2 ^ 32
  · rw [run_buildFilter nonneg ptype small] at built
    cases built
    refine ⟨_, conjuncts_filterConds fieldIndex.toNatClampNeg fieldValues, rfl, ?_⟩
    -- the last value is asked of a column behind `v6`
    have positive := List.length_pos_iff.mpr filled
    have last : fieldValues.length - 1 < fieldValues.length := by omega
    exact ⟨_, List.mem_mapIdx.mpr ⟨fieldValues.length - 1, last, rfl⟩, _, by omega, rfl⟩
  · have half := fieldIndex.toInt_lt
    have index := toInt_eq_of_nonneg nonneg
    have wide : (2 : Int) ^ 32 ≤ (fieldValues.length + fieldIndex.toInt) % 2 ^ 64 := by omega
    have returns := (meets_buildFilter wide ptype).run_ne_ok machine step_of_crashes [] store query
    rw [built] at returns
    exact absurd rfl returns

end

/-! ## The table after the filter -/

section

variable {db : Database} {key : RelName} {relation : Relation} {rows : List StoredRule}
  {ptype : Bytes} {fieldIndex : Int32} {fieldValues : List Bytes}

/-- A text with an unknown column is refused. -/
theorem execText_unknown (serves : Serves db polarityRef key relation) (ptype : Bytes)
    {conds : List Cond} (conjuncts : Conjuncts conds)
    (unknown : ∃ cond ∈ conds, ∃ ii, 7 ≤ ii ∧ cond.column = column ii)
    (answer : List Row × Database) : db.execText (deleteQuery ptype conds) ≠ .ok answer := by
  obtain ⟨cond, member, ii, beyond, named⟩ := unknown
  have refused : relation.delete (.eq (ascii "ptype") (cString ptype) :: conds) =
      .error .undefinedColumn := by
    refine delete_unknown ⟨cond, List.mem_cons_of_mem _ member, ?_⟩
    rw [named]
    exact not_knows_column serves.shape beyond
  have stopped : db.update polarityRef (fun relation => relation.delete
        (.eq (ascii "ptype") (cString ptype) :: conds)) = .error .undefinedColumn := by
    simp only [Database.update, Database.fetch_of_resolve serves.resolved serves.stored, bind,
      Except.bind, refused]
  intro executed
  rw [execText_deleteQuery db ptype conjuncts, stopped] at executed
  cases executed

/-- A filter that reaches past `v6` does not return. -/
theorem removeFilteredPolicy_beyond (serves : Serves db polarityRef key relation)
    (nonneg : 0 ≤ fieldIndex) (size : fieldValues.length < 2 ^ 63) (filled : fieldValues ≠ [])
    (beyond : 7 < fieldIndex.toNatClampNeg + fieldValues.length) (model : Model)
    (sec ptype : Bytes) :
    (call (removeFilteredPolicy sec ptype fieldIndex fieldValues) [] model db).result ≠ .ok () := by
  rw [removeFilteredPolicy_eq]
  intro ok
  obtain ⟨query, found, built, executed⟩ :=
    text_of_call_transaction (within_buildFilter ptype fieldIndex fieldValues) ok
  obtain ⟨conds, conjuncts, rfl, unknown⟩ := buildFilter_reaches nonneg size filled beyond built
  exact execText_unknown serves ptype conjuncts unknown _ executed

open Classical in
/-- A filter within the columns deletes the rules that have the given values. -/
theorem removeFilteredPolicy_within (serves : Serves db polarityRef key relation)
    (nonneg : 0 ≤ fieldIndex)
    (within : fieldValues = [] ∨ fieldIndex.toNatClampNeg + fieldValues.length ≤ 7)
    (stored : content relation = rows.map StoredRule.cells)
    (clean : ∀ value ∈ fieldValues, (0 : UInt8) ∉ value) (model : Model) (sec ptype : Bytes) :
    ∃ left, call (removeFilteredPolicy sec ptype fieldIndex fieldValues) [] model db =
        ⟨.ok (), model, db.put key left, []⟩ ∧
      left.columns = tableColumns ∧ content left =
        (rows.filter fun r =>
          ¬ r.Equals (cString ptype) fieldIndex.toNatClampNeg fieldValues).map
            StoredRule.cells := by
  -- without values the index is not used
  obtain ⟨start, bound, sameConds, sameEquals⟩ : ∃ start, start + fieldValues.length ≤ 7 ∧
      filterConds fieldIndex.toNatClampNeg fieldValues = filterConds start fieldValues ∧
      ∀ r : StoredRule, r.Equals (cString ptype) fieldIndex.toNatClampNeg fieldValues ↔
        r.Equals (cString ptype) start fieldValues := by
    rcases within with rfl | bound
    · exact ⟨0, by decide, rfl, fun r => by simp [StoredRule.Equals]⟩
    · exact ⟨_, bound, rfl, fun r => Iff.rfl⟩
  have small : fieldIndex.toNatClampNeg + fieldValues.length < 2 ^ 32 := by
    have half := fieldIndex.toNatClampNeg_lt
    omega
  refine ⟨withoutMatches relation ptype start fieldValues, ?_, serves.shape, ?_⟩
  · rw [removeFilteredPolicy_eq, call_transaction (run_buildFilter nonneg ptype small _), sameConds,
      execText_deleteMatches serves ptype bound]
  · rw [content_withoutMatches serves.shape ptype bound, map_cString_of_notMem clean, stored,
      List.filter_map]
    congr 1
    apply List.filter_congr
    intro r _
    have same : FilterMatches (cString ptype) start fieldValues r.cells ↔
        r.Equals (cString ptype) fieldIndex.toNatClampNeg fieldValues :=
      (filterMatches_ruleCells r.ptype r.rule (cString ptype) bound).trans (sameEquals r).symm
    simp [same]

/-! ## Putting the selected rules back -/

/-- `AddPolicy` for one rule after the other. -/
def addRules (sec ptype : Bytes) (model : Model) : List Rule → Database → Except Failure Database
  | [], db => .ok db
  | rule :: more, db =>
      let added := call (addPolicy sec ptype rule) [] model db
      match added.result with
      | .ok () => addRules sec ptype model more added.db
      | .error failure => .error failure

theorem addRules_content (serves : Serves db plainRef key relation) (sec ptype : Bytes)
    (model : Model) (rules : List Rule) :
    ∃ again whole, addRules sec ptype model rules db = .ok again ∧
      Serves again plainRef key whole ∧ content whole = content relation ++
        rules.map fun rule => ruleCells (cString ptype) (rule.map cString) := by
  induction rules generalizing db relation with
  | nil => exact ⟨db, relation, rfl, serves, (List.append_nil _).symm⟩
  | cons rule more ih =>
      have shape : (withRule relation ptype rule).columns = tableColumns := serves.shape
      obtain ⟨again, whole, adds, served, after⟩ := ih (serves.put shape)
      refine ⟨again, whole, ?_, served, ?_⟩
      · simp only [addRules, call_addPolicy serves model sec ptype rule]
        exact adds
      · rw [after, content_withRule serves.shape, List.append_assoc]
        rfl

/-- The call returns, deletes the rows that casbin's filter selects and no others, and
adding the selected rules again restores the multiset of rows. -/
structure FilterAgrees (db : Database) (model : Model) (key : RelName) (rows : List StoredRule)
    (sec ptype : Bytes) (fieldIndex : Int32) (fieldValues : List Bytes) : Prop where
  returns :
    (call (removeFilteredPolicy sec ptype fieldIndex fieldValues) [] model db).result = .ok ()
  exact : ∃ left,
    Serves (call (removeFilteredPolicy sec ptype fieldIndex fieldValues) [] model db).db
      plainRef key left ∧
    content left = (rows.filter fun r =>
      !r.hit ptype fieldIndex.toNatClampNeg fieldValues).map StoredRule.cells
  restored : ∃ again whole, addRules sec ptype model
      ((rows.filter fun r => r.hit ptype fieldIndex.toNatClampNeg fieldValues).map
        StoredRule.rule)
      (call (removeFilteredPolicy sec ptype fieldIndex fieldValues) [] model db).db = .ok again ∧
    Serves again plainRef key whole ∧ (content whole).Perm (rows.map StoredRule.cells)

/-- Where exactly the selected rows went, the selected rules bring them back. -/
theorem restored_of_exact {left : Relation} {removed : Database}
    (serves : Serves removed plainRef key left) {first : Nat} {values : List Bytes}
    (exact : content left = (rows.filter fun r => !r.hit ptype first values).map StoredRule.cells)
    (sec : Bytes) (model : Model) :
    ∃ again whole, addRules sec ptype model
        ((rows.filter fun r => r.hit ptype first values).map StoredRule.rule) removed =
          .ok again ∧
      Serves again plainRef key whole ∧ (content whole).Perm (rows.map StoredRule.cells) := by
  obtain ⟨again, whole, adds, served, after⟩ := addRules_content serves sec ptype model
    ((rows.filter fun r => r.hit ptype first values).map StoredRule.rule)
  refine ⟨again, whole, adds, served, ?_⟩
  have written : ((rows.filter fun r => r.hit ptype first values).map StoredRule.rule).map
        (fun rule => ruleCells (cString ptype) (rule.map cString)) =
      (rows.filter fun r => r.hit ptype first values).map StoredRule.cells := by
    rw [List.map_map]
    apply List.map_congr_left
    intro r member
    obtain ⟨rfl, _⟩ := r.hit_iff.mp (List.mem_filter.mp member).2
    exact congrArg₂ ruleCells r.cString_ptype r.map_cString_rule
  rw [after, exact, written, ← List.map_append]
  exact (List.perm_append_comm.trans (List.filter_append_perm _ rows)).map _

/-- The stored filter agrees with the filter of the model exactly when the columns it
asks for exist, no empty value stands for a field of a selected rule, and no rule is
found under a ptype that was cut at a zero byte. -/
theorem filter_agrees_iff (named : Serves db plainRef key relation)
    (qualified : db.resolve polarityRef = some key)
    (stored : content relation = rows.map StoredRule.cells) (nonneg : 0 ≤ fieldIndex)
    (size : fieldValues.length < 2 ^ 63) (clean : ∀ value ∈ fieldValues, (0 : UInt8) ∉ value)
    (model : Model) (sec ptype : Bytes) :
    let first := fieldIndex.toNatClampNeg
    FilterAgrees db model key rows sec ptype fieldIndex fieldValues ↔
      (fieldValues = [] ∨ first + fieldValues.length ≤ 7) ∧
        ∀ r ∈ rows, (r.hit ptype first fieldValues = true → r.Literal first fieldValues) ∧
          ((0 : UInt8) ∈ ptype → ¬ r.Equals (cString ptype) first fieldValues) := by
  classical
  intro first
  have deleteServes : Serves db polarityRef key relation := ⟨qualified, named.stored, named.shape⟩
  constructor
  · intro agrees
    have within : fieldValues = [] ∨ first + fieldValues.length ≤ 7 := by
      by_contra beyond
      rw [not_or, Nat.not_le] at beyond
      exact removeFilteredPolicy_beyond deleteServes nonneg size beyond.1 beyond.2 model sec ptype
        agrees.returns
    obtain ⟨left, removes, shape, after⟩ :=
      removeFilteredPolicy_within deleteServes nonneg within stored clean model sec ptype
    obtain ⟨same, served, exact⟩ := agrees.exact
    rw [removes] at served
    have found := served.stored
    rw [Database.table_put_self, Option.some.injEq] at found
    rw [← found, after] at exact
    exact ⟨within, (StoredRule.filter_equals_iff rows).mp exact⟩
  · rintro ⟨within, wild⟩
    obtain ⟨left, removes, shape, after⟩ :=
      removeFilteredPolicy_within deleteServes nonneg within stored clean model sec ptype
    have exact : content left =
        (rows.filter fun r => !r.hit ptype first fieldValues).map StoredRule.cells :=
      after.trans ((StoredRule.filter_equals_iff rows).mpr wild)
    have served : Serves (db.put key left) plainRef key left := named.put shape
    constructor
    · rw [removes]
    · rw [removes]
      exact ⟨left, served, exact⟩
    · rw [removes]
      exact restored_of_exact served exact sec model

end

def aliceStored : StoredRule :=
  ⟨aliceReads.ptype, aliceReads.rule, by decide, aliceReads.short⟩

def aliceTable : Relation :=
  withRule (Relation.empty tableColumns) aliceReads.ptype aliceReads.rule

theorem serves_aliceTable :
    Serves (singleTable (ascii "polarity") aliceTable) plainRef (ascii "polarity", tableName)
      aliceTable :=
  serves_singleTable _ rfl

/-- A filter on the first field. -/
theorem filter_agrees_alice :
    FilterAgrees (singleTable (ascii "polarity") aliceTable) (rbacModel [] [])
      (ascii "polarity", tableName) [aliceStored] (ascii "p") (ascii "p") 0 [ascii "alice"] := by
  have qualified := (serves_polarity serves_aliceTable.shape).resolved
  refine (filter_agrees_iff serves_aliceTable qualified rfl (by decide) (by decide) (by decide)
    _ _ _).mpr ⟨Or.inr (by decide), fun r _ => ⟨fun _ offset found => ?_, fun cut => ?_⟩⟩
  · have member := List.mem_of_getElem? found
    exact absurd member (by decide)
  · exact absurd cut (by decide)

/-- An empty value selects the rule in the model and no row of the table, and a filter
on an eighth field is refused. -/
theorem empty_value_keeps_row :
    ¬ FilterAgrees (singleTable (ascii "polarity") aliceTable) (rbacModel [] [])
      (ascii "polarity", tableName) [aliceStored] (ascii "p") (ascii "p") 0 [[]] ∧
    (call (removeFilteredPolicy (ascii "p") (ascii "p") 7 [ascii "read"]) [] (rbacModel [] [])
      (singleTable (ascii "polarity") aliceTable)).result = .error (.sql .undefinedColumn) := by
  constructor
  · intro agrees
    obtain ⟨left, served, exact⟩ := agrees.exact
    have unchanged : (call (removeFilteredPolicy (ascii "p") (ascii "p") 0 [[]]) []
        (rbacModel [] []) (singleTable (ascii "polarity") aliceTable)).db.table
          (ascii "polarity", tableName) = some aliceTable := by
      decide +kernel
    rw [served.stored, Option.some.injEq] at unchanged
    rw [unchanged] at exact
    exact absurd exact (by decide)
  · decide +kernel

end Casbinex.Adapter
