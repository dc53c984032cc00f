import Casbinex.Adapter.Filter

/-!
# The index of a filter

`enif_get_int` yields any 32-bit integer and nothing checks it before it meets the
unsigned counter.  A negative index makes the counter start near 2^32 while the
bound either wraps to a small number, and no value is asked for, or stays near
2^64, and the loop reads past the vector.
-/

namespace Casbinex.Adapter

open Casbinex.Program
open Casbinex.Program.Prog
open Casbinex.Sql

/-- `std::to_string` of an `int`. -/
def signedDecimal : Int → Bytes
  | .ofNat n => decimal n
  | .negSucc n => ascii "-" ++ decimal (n + 1)

/-- One condition on `v<field_index + j>` for each value. -/
def indexedConds (fieldIndex : Int) (fieldValues : List Bytes) : List Cond :=
  fieldValues.mapIdx fun j value =>
    .eq (ascii "v" ++ signedDecimal (fieldIndex + j)) (cString value)

theorem indexedConds_of_nonneg {fieldIndex : Int32} (nonneg : 0 ≤ fieldIndex)
    (fieldValues : List Bytes) :
    indexedConds fieldIndex.toInt fieldValues =
      filterConds fieldIndex.toNatClampNeg fieldValues := by
  unfold indexedConds filterConds
  rw [toInt_eq_of_nonneg nonneg]
  rfl

/-- The call is rejected before it executes anything, or its loop takes one turn for each
value, within the vector, and the DELETE has one condition for each; the condition on
the ptype stands alone only where there are no values. -/
structure LoopExact (answers : (i : Instr) → i.Answer) (sec ptype : Bytes) (fieldIndex : Int32)
    (fieldValues : List Bytes) : Prop where
  turns : ((trace answers (removeFilteredPolicy sec ptype fieldIndex fieldValues)).filterMap
        Instr.text = [] ∧
      ∀ i ∈ trace answers (removeFilteredPolicy sec ptype fieldIndex fieldValues),
        i.crashes = false) ∨
    ∃ query, trace answers (removeFilteredPolicy sec ptype fieldIndex fieldValues) =
        updateOps (ptype :: fieldValues) query ∧
      parse (cString query) = some (.delete polarityRef
        (.eq (ascii "ptype") (cString ptype) :: indexedConds fieldIndex.toInt fieldValues))
  restricted : ∀ query ∈ (trace answers (removeFilteredPolicy sec ptype fieldIndex
      fieldValues)).filterMap Instr.text,
    parse (cString query) = some (.delete polarityRef [.eq (ascii "ptype") (cString ptype)]) →
      fieldValues = []

section

variable {answers : (i : Instr) → i.Answer} {ptype : Bytes} {fieldIndex : Int32}
  {fieldValues : List Bytes}

theorem loopExact_of_nonneg (escaped : ∀ field, Escaped answers field) (sec : Bytes)
    (size : fieldValues.length < 2 ^ 31) (nonneg : 0 ≤ fieldIndex) :
    LoopExact answers sec ptype fieldIndex fieldValues := by
  have half := fieldIndex.toNatClampNeg_lt
  have small : fieldIndex.toNatClampNeg + fieldValues.length < 2 ^ 32 := by omega
  have plays := plays_removeFilteredPolicy sec nonneg
    (fun field (_ : field ∈ ptype :: fieldValues) => escaped field) small
  have conjuncts := conjuncts_filterConds fieldIndex.toNatClampNeg fieldValues
  have denotes := read_deleteQuery ptype conjuncts
  constructor
  · right
    rw [indexedConds_of_nonneg nonneg]
    exact ⟨_, plays.trace_eq, denotes⟩
  · rw [plays.trace_eq, texts_updateOps]
    intro query member alone
    rw [List.mem_singleton.mp member, denotes] at alone
    have none := (List.cons.inj (Statement.delete.inj (Option.some.inj alone)).2).2
    have count := congrArg List.length none
    rw [filterConds, List.length_mapIdx] at count
    exact List.length_eq_zero_iff.mp count

/-- A negative index no larger than the number of values takes no turn. -/
theorem plays_of_low_index (escaped : ∀ field, Escaped answers field) (sec : Bytes)
    (size : fieldValues.length < 2 ^ 31) (neg : fieldIndex.toInt < 0)
    (low : 0 ≤ fieldValues.length + fieldIndex.toInt) :
    Plays answers (removeFilteredPolicy sec ptype fieldIndex fieldValues)
      (updateOps [ptype] (deleteQuery ptype [])) () := by
  have least := fieldIndex.le_toInt
  have bound : (fieldValues.length + fieldIndex.toInt) % 2 ^ 64 ≤ fieldIndex.toInt % 2 ^ 32 := by
    omega
  rw [removeFilteredPolicy_eq]
  refine plays_transaction ((plays_quote (escaped ptype)).bind ?_)
  rw [filterLoop_none bound]
  exact ⟨rfl, by simp [eval, deleteQuery]⟩

/-- A negative index larger than the number of values goes past the vector. -/
theorem crash_of_high_index (answers : (i : Instr) → i.Answer) (sec ptype : Bytes)
    (high : fieldValues.length + fieldIndex.toInt < 0) :
    ∃ i ∈ trace answers (removeFilteredPolicy sec ptype fieldIndex fieldValues),
      i.crashes = true := by
  have least := fieldIndex.le_toInt
  have wide : (2 : Int) ^ 32 ≤ (fieldValues.length + fieldIndex.toInt) % 2 ^ 64 := by omega
  exact (meets_removeFilteredPolicy wide sec ptype).exists_mem_trace answers

theorem not_loopExact_of_neg (escaped : ∀ field, Escaped answers field) (sec : Bytes)
    (size : fieldValues.length < 2 ^ 31) (neg : fieldIndex.toInt < 0) :
    ¬ LoopExact answers sec ptype fieldIndex fieldValues := by
  intro exact
  by_cases low : 0 ≤ fieldValues.length + fieldIndex.toInt
  · -- the ptype alone is asked for, and there is a value
    have plays : Plays answers (removeFilteredPolicy sec ptype fieldIndex fieldValues) _ () :=
      plays_of_low_index escaped sec size neg low
    have none := exact.restricted (deleteQuery ptype [])
      (by rw [plays.trace_eq, texts_updateOps]; exact List.mem_singleton_self _)
      (read_deleteQuery ptype .nil)
    rw [none] at low
    exact absurd low (by simpa using neg)
  · obtain ⟨i, member, wrong⟩ := crash_of_high_index answers sec ptype (Int.not_le.mp low)
    rcases exact.turns with ⟨_, sound⟩ | ⟨query, same, _⟩
    · rw [sound i member] at wrong
      cases wrong
    · rw [same] at member
      rw [crashes_updateOps _ _ i member] at wrong
      cases wrong

/-- Every call keeps to its loop, or is rejected, precisely where the index is not negative. -/
theorem loop_exact_iff (escaped : ∀ field, Escaped answers field) (sec ptype : Bytes)
    (fieldIndex : Int32) (size : fieldValues.length < 2 ^ 31) :
    LoopExact answers sec ptype fieldIndex fieldValues ↔ 0 ≤ fieldIndex := by
  constructor
  · intro exact
    by_contra negative
    rw [Int32.le_iff_toInt_le, Int.not_le] at negative
    exact not_loopExact_of_neg escaped sec size negative exact
  · exact loopExact_of_nonneg escaped sec size

end

/-- A filter on the first field. -/
theorem loop_exact_first_field :
    LoopExact escaping (ascii "p") (ascii "p") 0 [ascii "alice"] :=
  (loop_exact_iff escaped_escaping _ _ 0 (by decide)).mpr (by decide)

/-- One value under the index -1 deletes the whole ptype: the rule of alice is lost to a
filter on bob.  Under the index -2 the loop reads past the one value. -/
theorem negative_index_wipes_ptype :
    let db := singleTable (ascii "polarity") aliceTable
    let removed := call (removeFilteredPolicy (ascii "p") (ascii "p") (-1) [ascii "bob"]) []
      (rbacModel [] []) db
    ¬ LoopExact escaping (ascii "p") (ascii "p") (-1) [ascii "bob"] ∧
      (trace escaping (removeFilteredPolicy (ascii "p") (ascii "p") (-1)
        [ascii "bob"])).filterMap Instr.text =
          [ascii "DELETE FROM polarity.casbin_rule where ptype = 'p';"] ∧
      removed.result = .ok () ∧
      (removed.db.table (ascii "polarity", tableName)).map content = some [] ∧
      (call (removeFilteredPolicy (ascii "p") (ascii "p") (-2) [ascii "bob"]) [] (rbacModel [] [])
        db).result = .error (.crash .outOfBounds) := by
  refine ⟨not_loopExact_of_neg escaped_escaping _ (by decide) (by decide), ?_, ?_, ?_, ?_⟩ <;>
    decide +kernel

end Casbinex.Adapter
