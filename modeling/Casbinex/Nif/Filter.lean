import Casbinex.Adapter.Filter
import Casbinex.Nif.Arguments

/-!
# The filter handed to a removal

`ListToVector` reads every term that is no proper list as the empty vector, and
`ListToString` every element that is no charlist as the empty string.  The two
readings widen the filter: the empty vector selects a whole ptype, and casbin lets
the empty string stand for any field.
-/

namespace Casbinex.Nif

open Casbinex.Program
open Casbinex.Program.Prog
open Casbinex.Sql

/-! ## The call -/

/-- A non-empty proper list of charlists over 1 to 255. -/
structure Denotes (term : Term) (texts : List Bytes) : Prop where
  filled : texts ≠ []
  clean : ∀ text ∈ texts, (0 : UInt8) ∉ text
  same : term = .ofList (texts.map Term.ofBytes)

/-- A filter is handed over as it is, and any other term is refused before the call
reaches the enforcer. -/
structure FilterExact (answers : (i : Instr) → i.Answer) (fieldIndex resourceId : Term) :
    Prop where
  handed : ∀ texts, Denotes resourceId texts → ∀ index, enifGetInt fieldIndex = some index →
    answers .created = true → trace answers (removeFilteredPolicy fieldIndex resourceId) =
      [.created, .invalidateCache, .mutate (.removeFilteredPolicy index texts)]
  refused : (¬ ∃ texts, Denotes resourceId texts) →
    trace answers (removeFilteredPolicy fieldIndex resourceId) = [.created]

theorem trace_guarded (answers : (i : Instr) → i.Answer) (body : NifProg Reply) :
    trace answers (guarded body) =
      .created :: if answers .created = true then trace answers body else [] := by
  change Instr.created :: trace answers (if answers .created = true then body
    else return .mustCreate) = _
  cases answers .created <;> rfl

/-- The steps of the call, whatever its second argument is. -/
theorem trace_removeFilteredPolicy (answers : (i : Instr) → i.Answer)
    (fieldIndex resourceId : Term) :
    trace answers (removeFilteredPolicy fieldIndex resourceId) =
      .created :: if answers .created = true then
        ((enifGetInt fieldIndex).map fun index => [Instr.invalidateCache,
          .mutate (.removeFilteredPolicy index (listToVector resourceId))]).getD []
      else [] := by
  rw [removeFilteredPolicy, trace_guarded]
  cases enifGetInt fieldIndex <;> rfl

/-- A filter is handed over exactly or the call is refused precisely when there is no
enforcer, or the index is no 32-bit integer, or the term is a non-empty proper list of
charlists over 1 to 255. -/
theorem filter_exact_iff (answers : (i : Instr) → i.Answer) (fieldIndex resourceId : Term) :
    FilterExact answers fieldIndex resourceId ↔
      answers .created = false ∨ enifGetInt fieldIndex = none ∨
        ∃ texts, Denotes resourceId texts := by
  constructor
  · intro exact
    by_contra widened
    simp only [not_or, Bool.not_eq_false] at widened
    obtain ⟨created, reads, malformed⟩ := widened
    obtain ⟨index, read⟩ := Option.ne_none_iff_exists'.mp reads
    have refused := exact.refused malformed
    rw [trace_removeFilteredPolicy, if_pos created, read] at refused
    cases refused
  · intro narrow
    constructor
    · rintro texts denotes index read created
      rw [trace_removeFilteredPolicy, if_pos created, read, denotes.same, listToVector_charlists]
      rfl
    · intro malformed
      rw [trace_removeFilteredPolicy]
      rcases narrow with missing | unread | wellFormed
      · rw [missing]
        rfl
      · rw [unread]
        split <;> rfl
      · exact absurd wellFormed malformed

/-- A binary is handed over as a filter without values, and the table loses every rule
of the ptype. -/
theorem binary_filter_wipes_policy :
    let resourceId := Term.binary (ascii "alice")
    let removed := Adapter.call (Adapter.removeFilteredPolicy (ascii "p") (ascii "p") 0 []) []
      (Adapter.rbacModel [] []) (Adapter.singleTable (ascii "polarity") Adapter.aliceTable)
    ¬ FilterExact allowing (.int 0) resourceId ∧
      trace allowing (removeFilteredPolicy (.int 0) resourceId) =
        [.created, .invalidateCache, .mutate (.removeFilteredPolicy 0 [])] ∧
      removed.result = .ok () ∧
      (removed.db.table (ascii "polarity", Adapter.tableName)).map Relation.rows = some [] := by
  intro resourceId removed
  refine ⟨fun exact => ?_, by decide, by decide +kernel, by decide +kernel⟩
  have malformed : ¬ ∃ texts, Denotes resourceId texts := by
    rintro ⟨texts, denotes⟩
    have proper := getListLength_ofList (texts.map Term.ofBytes)
    rw [← denotes.same] at proper
    cases proper
  exact absurd (exact.refused malformed) (by decide)

end Casbinex.Nif
