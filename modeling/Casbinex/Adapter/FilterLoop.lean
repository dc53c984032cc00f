import Casbinex.Adapter.Queries
import Mathlib.Algebra.Ring.Int.Defs
import Mathlib.Algebra.Ring.Nat

/-!
# The loop of `RemoveFilteredPolicy`

The counter has 32 bits, the bound 64, and the index is added to the bound and
taken from the counter as a signed number.  The arithmetic is brought to the
integers once; from there the loop appends one conjunct for each value, or stops
before its first turn, or has a condition that no counter ever fails.
-/

namespace Casbinex.Adapter

open Casbinex.Program
open Casbinex.Program.Prog
open Casbinex.Sql
open Casbinex.Sql.Lexer (literal)
open Casbinex.Sql.Parser (condText)

theorem filterConds_cons (first : Nat) (value : Bytes) (more : List Bytes) :
    filterConds first (value :: more) =
      .eq (column first) (cString value) :: filterConds (first + 1) more := by
  simp only [filterConds, List.mapIdx_cons, Nat.add_zero, List.cons.injEq, true_and]
  congr 1
  funext offset text
  rw [Nat.add_assoc, Nat.add_comm 1 offset]

/-! ## The words of the loop as integers -/

section

variable {fieldIndex : Int32}

/-- The counter starts at the index taken modulo 2^32. -/
theorem toNat_start (fieldIndex : Int32) :
    (fieldIndex.toUInt32.toNat : Int) = fieldIndex.toInt % 2 ^ 32 := by
  have word := BitVec.toNat_ofInt (n := 32) fieldIndex.toBitVec.toInt
  rw [BitVec.ofInt_toInt] at word
  have same : fieldIndex.toUInt32.toNat = (fieldIndex.toInt % 2 ^ 32).toNat := word
  omega

/-- The bound is the size and the index added modulo 2^64. -/
theorem loop_continues_iff (fieldIndex : Int32) (size : Nat) (ii : UInt32) :
    ii.toUInt64 < UInt64.ofNat size + fieldIndex.toInt64.toUInt64 ↔
      (ii.toNat : Int) < (size + fieldIndex.toInt) % 2 ^ 64 := by
  have word := BitVec.toNat_ofInt (n := 64) fieldIndex.toInt64.toBitVec.toInt
  rw [BitVec.ofInt_toInt] at word
  have offset : fieldIndex.toInt64.toUInt64.toNat = (fieldIndex.toInt % 2 ^ 64).toNat := by
    rw [← Int32.toInt_toInt64]
    exact word
  rw [UInt64.lt_iff_toNat_lt, UInt32.toNat_toUInt64, UInt64.toNat_add, UInt64.toNat_ofNat', offset]
  omega

theorem toInt_eq_of_nonneg (nonneg : 0 ≤ fieldIndex) :
    fieldIndex.toInt = fieldIndex.toNatClampNeg := by
  have positive : (0 : Int) ≤ fieldIndex.toInt := Int32.le_iff_toInt_le.mp nonneg
  rw [← Int32.toNat_toInt]
  omega

end

/-! ## The three ways of the loop -/

/-- The operation stands for a point where the source goes wrong. -/
def Instr.crashes : Instr → Bool
  | .undefined _ => true
  | _ => false

theorem step_of_crashes (i : Instr) (store : Store) (answer : i.Answer) (changed : Store)
    (wrong : i.crashes = true) : machine.step i store ≠ .ok (answer, changed) := by
  cases i with
  | undefined crash =>
      intro stepped
      cases stepped
  | _ => cases wrong

section

variable {answers : (i : Instr) → i.Answer} {fieldIndex : Int32} {fieldValues : List Bytes}

/-- One turn reads the value at its subscript and appends one conjunct. -/
theorem plays_filterLoop_turn {turns : Nat} {ii : UInt32} {query value text : Bytes}
    {ops : List Instr} (escaped : Escaped answers value)
    (go : (ii.toNat : Int) < (fieldValues.length + fieldIndex.toInt) % 2 ^ 64)
    (here : fieldValues[(ii - fieldIndex.toUInt32).toNat]? = some value)
    (rest : Plays answers (filterLoop fieldIndex fieldValues turns (ii + 1)
      (query ++ condText (.eq (column ii.toNat) (cString value)))) ops text) :
    Plays answers (filterLoop fieldIndex fieldValues (turns + 1) ii query) (.esc value :: ops)
      text := by
  rw [← append_condText] at rest
  rw [filterLoop, if_pos ((loop_continues_iff fieldIndex fieldValues.length ii).mpr go), here]
  exact (plays_quote escaped).bind rest

/-- From the turn where `done` values have been read the loop appends one conjunct
for each remaining value and stops. -/
theorem plays_filterLoop_rest (nonneg : 0 ≤ fieldIndex) {rest : List Bytes}
    (escaped : ∀ value ∈ rest, Escaped answers value) :
    ∀ (done : List Bytes) (ii : UInt32) (query : Bytes),
      fieldIndex.toNatClampNeg + (done ++ rest).length < 2 ^ 32 →
      ii.toNat = fieldIndex.toNatClampNeg + done.length →
      Plays answers (filterLoop fieldIndex (done ++ rest) (rest.length + 1) ii query)
        (rest.map Instr.esc)
        (query ++ (filterConds (fieldIndex.toNatClampNeg + done.length) rest).flatMap
          condText) := by
  have index := toInt_eq_of_nonneg nonneg
  have start := toNat_start fieldIndex
  induction rest with
  | nil =>
      intro done ii query small position
      rw [List.append_nil] at small ⊢
      have stop := (loop_continues_iff fieldIndex done.length ii).not.mpr (by omega)
      rw [filterLoop, if_neg stop]
      simpa [filterConds] using Plays.ret query
  | cons value more ih =>
      intro done ii query small position
      have others : ∀ other ∈ more, Escaped answers other := fun other member =>
        escaped other (List.mem_cons_of_mem value member)
      have shifted : done ++ value :: more = (done ++ [value]) ++ more := by simp
      have size : (done ++ value :: more).length = done.length + more.length + 1 := by simp; omega
      have below : fieldIndex.toUInt32 ≤ ii := by
        rw [UInt32.le_iff_toNat_le]
        omega
      have subscript : (ii - fieldIndex.toUInt32).toNat = done.length := by
        rw [UInt32.toNat_sub_of_le _ _ below]
        omega
      have here : (done ++ value :: more)[(ii - fieldIndex.toUInt32).toNat]? = some value := by
        rw [subscript, List.getElem?_append_right (Nat.le_refl _), Nat.sub_self]
        rfl
      have next : (ii + 1).toNat = fieldIndex.toNatClampNeg + (done ++ [value]).length := by
        rw [UInt32.toNat_add, List.length_append, List.length_singleton]
        change (ii.toNat + 1) % 2 ^ 32 = _
        omega
      have inner := ih others (done ++ [value]) (ii + 1)
        (query ++ condText (.eq (column ii.toNat) (cString value))) (by rwa [← shifted]) next
      rw [← shifted] at inner
      have turn := plays_filterLoop_turn (escaped value List.mem_cons_self) (by omega) here inner
      rw [filterConds_cons]
      simpa [position, Nat.add_assoc] using turn

/-- For a non-negative index and fewer than 2^32 columns every value is asked for. -/
theorem plays_filterLoop (nonneg : 0 ≤ fieldIndex)
    (escaped : ∀ value ∈ fieldValues, Escaped answers value)
    (small : fieldIndex.toNatClampNeg + fieldValues.length < 2 ^ 32) (query : Bytes) :
    Plays answers
      (filterLoop fieldIndex fieldValues (fieldValues.length + 1) fieldIndex.toUInt32 query)
      (fieldValues.map Instr.esc)
      (query ++ (filterConds fieldIndex.toNatClampNeg fieldValues).flatMap condText) := by
  have position : fieldIndex.toUInt32.toNat = fieldIndex.toNatClampNeg :=
    Int32.toNat_toUInt32_of_le nonneg
  exact plays_filterLoop_rest nonneg escaped [] fieldIndex.toUInt32 query small position

/-- From the turn where `done` values have been read the loop reads the remaining values
and stops, whatever it is answered. -/
theorem calm_filterLoop_rest (nonneg : 0 ≤ fieldIndex) {rest : List Bytes} :
    ∀ (done : List Bytes) (ii : UInt32) (query : Bytes),
      fieldIndex.toNatClampNeg + (done ++ rest).length < 2 ^ 32 →
      ii.toNat = fieldIndex.toNatClampNeg + done.length →
      Within (fun i => i.crashes = false)
        (filterLoop fieldIndex (done ++ rest) (rest.length + 1) ii query) := by
  have index := toInt_eq_of_nonneg nonneg
  have start := toNat_start fieldIndex
  induction rest with
  | nil =>
      intro done ii query small position
      rw [List.append_nil] at small ⊢
      have stop := (loop_continues_iff fieldIndex done.length ii).not.mpr (by omega)
      rw [filterLoop, if_neg stop]
      trivial
  | cons value more ih =>
      intro done ii query small position
      have shifted : done ++ value :: more = (done ++ [value]) ++ more := by simp
      have below : fieldIndex.toUInt32 ≤ ii := by
        rw [UInt32.le_iff_toNat_le]
        omega
      have subscript : (ii - fieldIndex.toUInt32).toNat = done.length := by
        rw [UInt32.toNat_sub_of_le _ _ below]
        omega
      have next : (ii + 1).toNat = fieldIndex.toNatClampNeg + (done ++ [value]).length := by
        have room : done.length < (done ++ value :: more).length := by simp
        rw [UInt32.toNat_add, List.length_append, List.length_singleton]
        change (ii.toNat + 1) % 2 ^ 32 = _
        omega
      have later (text : Bytes) := ih (done ++ [value]) (ii + 1) text (by rwa [← shifted]) next
      rw [← shifted] at later
      rw [filterLoop]
      split
      · rw [subscript, List.getElem?_append_right (Nat.le_refl _), Nat.sub_self]
        exact ⟨rfl, fun _ => later _⟩
      · trivial

/-- A bound above the counters of 32 bits is never met: the loop goes wrong. -/
theorem meets_filterLoop
    (wide : (2 : Int) ^ 32 ≤ (fieldValues.length + fieldIndex.toInt) % 2 ^ 64) (turns : Nat)
    (ii : UInt32) (query : Bytes) :
    Meets (fun i => i.crashes = true)
      (filterLoop fieldIndex fieldValues turns ii query) := by
  induction turns generalizing ii query with
  | zero => exact Or.inl rfl
  | succ turns ih =>
      have below := ii.toNat_lt
      rw [filterLoop, if_pos ((loop_continues_iff fieldIndex _ ii).mpr (by omega))]
      split
      · exact Meets.bind_right fun quoted => ih _ _
      · exact Or.inl rfl

/-- A bound below the start takes no turn. -/
theorem filterLoop_none
    (low : (fieldValues.length + fieldIndex.toInt) % 2 ^ 64 ≤ fieldIndex.toInt % 2 ^ 32)
    (turns : Nat) (query : Bytes) :
    filterLoop fieldIndex fieldValues (turns + 1) fieldIndex.toUInt32 query = return query := by
  have start := toNat_start fieldIndex
  have stop := (loop_continues_iff fieldIndex fieldValues.length fieldIndex.toUInt32).not.mpr
    (by omega)
  rw [filterLoop, if_neg stop]

/-- Whatever turns it takes, the loop appends conjuncts on the `v` columns. -/
theorem eval_filterLoop (escaped : ∀ field, Escaped answers field) (fieldIndex : Int32)
    (fieldValues : List Bytes) (turns : Nat) (ii : UInt32) (query : Bytes) :
    ∃ conds, Conjuncts conds ∧
      eval answers (filterLoop fieldIndex fieldValues turns ii query) =
        query ++ conds.flatMap condText := by
  induction turns generalizing ii query with
  | zero => exact ⟨[], .nil, by simp [filterLoop, eval]⟩
  | succ turns ih =>
      rw [filterLoop]
      split
      · split
        · next value _ =>
            obtain ⟨conds, conjuncts, appended⟩ := ih (ii + 1) (query ++ ascii " AND v" ++
              decimal ii.toNat ++ ascii " = " ++ literal (cString value))
            refine ⟨.eq (column ii.toNat) (cString value) :: conds,
              conjuncts.cons ii.toNat value, ?_⟩
            rw [eval_bind, (plays_quote (escaped value)).eval_eq, appended, append_condText,
              List.flatMap_cons, List.append_assoc]
        · exact ⟨[], .nil, by simp [eval]⟩
      · exact ⟨[], .nil, by simp [eval]⟩

end

end Casbinex.Adapter
