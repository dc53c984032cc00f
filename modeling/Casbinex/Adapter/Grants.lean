import Casbinex.Adapter.Updates
import Mathlib.Data.List.Perm.Basic
import Mathlib.Data.Set.Insert

/-!
# What a policy is for: a set of grants

A grant is a ptype with a rule that the adapter stores without loss.  The table
and the model are two representations of one set of grants, and each update of
the table or of the model is the same update of that set.
-/

namespace Casbinex.Adapter

open Casbinex.Sql

/-- Text that the loader and the client library leave as it is. -/
structure Plain (text : Bytes) : Prop where
  trimmed : trim text = text
  clean : (0 : UInt8) ∉ text

instance (text : Bytes) : Decidable (Plain text) :=
  decidable_of_iff (trim text = text ∧ (0 : UInt8) ∉ text)
    ⟨fun plain => ⟨plain.1, plain.2⟩, fun plain => ⟨plain.trimmed, plain.clean⟩⟩

structure Grant where
  ptype : Bytes
  rule : Rule
  plainType : Plain ptype
  plainFields : ∀ field ∈ rule, Plain field
  short : rule.length ≤ 7

namespace Grant

/-- The section the loader puts a ptype under. -/
def sec (g : Grant) : Bytes := g.ptype.take 1

/-- The row that stores the grant. -/
def cells (g : Grant) : Row := ruleCells g.ptype g.rule

/-- The grant is of the ptype and its fields from `first` on are the given values. -/
def Matches (g : Grant) (ptype : Bytes) (first : Nat) (values : List Bytes) : Prop :=
  g.ptype = ptype ∧ ∀ offset value, values[offset]? = some value →
    g.rule[first + offset]? = some value

theorem ext_iff {g h : Grant} : g = h ↔ g.ptype = h.ptype ∧ g.rule = h.rule := by
  constructor
  · rintro rfl
    exact ⟨rfl, rfl⟩
  · rintro ⟨sameType, sameRule⟩
    cases g
    cases h
    cases sameType
    cases sameRule
    rfl

@[simp]
theorem cString_ptype (g : Grant) : cString g.ptype = g.ptype :=
  cString_of_notMem g.plainType.clean

@[simp]
theorem map_cString_rule (g : Grant) : g.rule.map cString = g.rule :=
  map_cString_of_notMem fun field member => (g.plainFields field member).clean

instance : DecidableEq Grant :=
  fun g h => decidable_of_iff (g.ptype = h.ptype ∧ g.rule = h.rule) ext_iff.symm

theorem cells_injective {g h : Grant} (same : g.cells = h.cells) : g = h :=
  ext_iff.mpr (ruleCells_injective g.short h.short same)

@[simp]
theorem cells_inj {g h : Grant} : g.cells = h.cells ↔ g = h :=
  ⟨cells_injective, congrArg cells⟩

/-- The loader reads a grant off the row that stores it. -/
@[simp]
theorem entryOf_cells (g : Grant) : entryOf g.cells = some (g.ptype, g.rule) := by
  have fields : (g.rule.take 7).map trim = g.rule := by
    rw [List.take_of_length_le g.short]
    refine (List.map_congr_left fun field member => ?_).trans (List.map_id g.rule)
    exact (g.plainFields field member).trimmed
  rw [cells, entryOf_ruleCells, g.plainType.trimmed, fields]

theorem filterMatches_cells (g : Grant) (ptype : Bytes) {first : Nat} {values : List Bytes}
    (bound : first + values.length ≤ 7) :
    FilterMatches ptype first values g.cells ↔ g.Matches ptype first values :=
  filterMatches_ruleCells g.ptype g.rule ptype bound

end Grant

def aliceReads : Grant where
  ptype := ascii "p"
  rule := [ascii "alice", ascii "data1", ascii "read"]
  plainType := by decide
  plainFields := by decide
  short := by decide

/-- The table holds each grant of the set in one row and nothing else. -/
structure TableHolds (relation : Relation) (grants : Set Grant) : Prop where
  once : (content relation).Nodup
  rows : ∀ cells, cells ∈ content relation ↔ ∃ g ∈ grants, g.cells = cells

/-- The model holds each grant of the set once, under its section and ptype, and
nothing else. -/
structure MemoryHolds (model : Model) (grants : Set Grant) : Prop where
  once : ∀ s t, (model.policy s t).Nodup
  rules : ∀ s t rule, rule ∈ model.policy s t ↔
    ∃ g ∈ grants, g.sec = s ∧ g.ptype = t ∧ g.rule = rule
  declared : ∀ g ∈ grants, model.Declares g.sec g.ptype

/-! ## The table -/

namespace TableHolds

variable {relation : Relation} {grants : Set Grant}

theorem mem_iff (holds : TableHolds relation grants) (g : Grant) :
    g.cells ∈ content relation ↔ g ∈ grants := by
  rw [holds.rows]
  constructor
  · rintro ⟨other, member, same⟩
    exact Grant.cells_injective same ▸ member
  · intro member
    exact ⟨g, member, rfl⟩

theorem insert (holds : TableHolds relation grants) (shape : relation.columns = tableColumns)
    {g : Grant} (fresh : g ∉ grants) :
    TableHolds (withRule relation g.ptype g.rule) (Insert.insert g grants) := by
  have after : content (withRule relation g.ptype g.rule) = content relation ++ [g.cells] := by
    simp [content_withRule shape, Grant.cells]
  constructor
  · rw [after]
    apply List.Nodup.append holds.once (List.nodup_singleton _)
    rw [List.disjoint_singleton, holds.mem_iff]
    exact fresh
  · intro cells
    rw [after, List.mem_append, List.mem_singleton, holds.rows]
    constructor
    · rintro (⟨other, member, same⟩ | rfl)
      · exact ⟨other, Set.mem_insert_of_mem g member, same⟩
      · exact ⟨g, Set.mem_insert g grants, rfl⟩
    · rintro ⟨other, member, rfl⟩
      rcases Set.mem_insert_iff.mp member with rfl | old
      · exact Or.inr rfl
      · exact Or.inl ⟨other, old, rfl⟩

/-- Deleting the rows outside a test keeps the grants that pass it. -/
theorem filter (holds : TableHolds relation grants) {kept : Relation} {test : Row → Bool}
    {keeps : Grant → Prop} (after : content kept = (content relation).filter test)
    (agree : ∀ g ∈ grants, test g.cells = true ↔ keeps g) :
    TableHolds kept {g ∈ grants | keeps g} := by
  constructor
  · rw [after]
    exact holds.once.filter _
  · intro cells
    rw [after, List.mem_filter, holds.rows]
    constructor
    · rintro ⟨⟨g, member, rfl⟩, passes⟩
      exact ⟨g, ⟨member, (agree g member).mp passes⟩, rfl⟩
    · rintro ⟨g, ⟨member, kept⟩, rfl⟩
      exact ⟨⟨g, member, rfl⟩, (agree g member).mpr kept⟩

theorem erase (holds : TableHolds relation grants) (shape : relation.columns = tableColumns)
    (g : Grant) :
    TableHolds (withoutRule relation g.ptype g.rule) {h ∈ grants | h ≠ g} := by
  apply holds.filter (content_withoutRule shape g.ptype g.rule)
  intro h _
  rw [g.cString_ptype, g.map_cString_rule]
  change decide (h.cells ≠ g.cells) = true ↔ h ≠ g
  simp

theorem eraseMatches (holds : TableHolds relation grants)
    (shape : relation.columns = tableColumns) {ptype : Bytes} {first : Nat}
    {values : List Bytes} (cleanType : cString ptype = ptype)
    (cleanValues : values.map cString = values) (bound : first + values.length ≤ 7) :
    TableHolds (withoutMatches relation ptype first values)
      {h ∈ grants | ¬ h.Matches ptype first values} := by
  classical
  apply holds.filter (content_withoutMatches shape ptype bound)
  intro h _
  rw [cleanType, cleanValues]
  simp [h.filterMatches_cells ptype bound]

/-- The rows load, and the loaded rules are the grants. -/
theorem memoryHolds (holds : TableHolds relation grants) {model loaded : Model}
    (spec : LoadedFrom model.clearPolicy (content relation) loaded)
    (declared : ∀ g ∈ grants, model.Declares g.sec g.ptype) : MemoryHolds loaded grants := by
  have unique : ∀ a ∈ content relation, ∀ b ∈ content relation,
      ∀ e, entryOf a = some e → entryOf b = some e → a = b := by
    intro a inA b inB e readA readB
    obtain ⟨g, _, rfl⟩ := (holds.rows a).mp inA
    obtain ⟨h, _, rfl⟩ := (holds.rows b).mp inB
    rw [Grant.entryOf_cells] at readA readB
    have same := readA.trans readB.symm
    rw [Option.some.injEq, Prod.mk.injEq] at same
    rw [Grant.ext_iff.mpr same]
  constructor
  · intro s t
    rw [spec.policy_of_clear]
    split
    · exact nodup_rulesUnder holds.once unique t
    · exact List.nodup_nil
  · intro s t rule
    rw [spec.policy_of_clear]
    by_cases own : s = t.take 1
    · rw [if_pos own, own, mem_rulesUnder]
      constructor
      · rintro ⟨row, member, reads⟩
        obtain ⟨g, granted, rfl⟩ := (holds.rows row).mp member
        rw [Grant.entryOf_cells, Option.some.injEq, Prod.mk.injEq] at reads
        obtain ⟨rfl, rfl⟩ := reads
        exact ⟨g, granted, rfl, rfl, rfl⟩
      · rintro ⟨g, granted, _, rfl, rfl⟩
        exact ⟨g.cells, (holds.mem_iff g).mpr granted, g.entryOf_cells⟩
    · rw [if_neg own]
      constructor
      · intro member
        cases member
      · rintro ⟨g, _, rfl, rfl, _⟩
        exact absurd rfl own
  · intro g granted
    rw [spec.declares, Model.declares_clearPolicy]
    exact declared g granted

theorem loadable (holds : TableHolds relation grants) {model : Model}
    (declared : ∀ g ∈ grants, model.Declares g.sec g.ptype) :
    Loadable model (content relation) := by
  intro row member
  obtain ⟨g, granted, rfl⟩ := (holds.rows row).mp member
  exact ⟨g.ptype, g.rule, g.entryOf_cells, declared g granted⟩

end TableHolds

/-! ## The model -/

namespace MemoryHolds

variable {model : Model} {grants changed : Set Grant}

theorem mem_iff (holds : MemoryHolds model grants) (g : Grant) :
    g.rule ∈ model.policy g.sec g.ptype ↔ g ∈ grants := by
  rw [holds.rules]
  constructor
  · rintro ⟨other, member, _, sameType, sameRule⟩
    exact Grant.ext_iff.mpr ⟨sameType, sameRule⟩ ▸ member
  · intro member
    exact ⟨g, member, rfl, rfl, rfl⟩

/-- Changing the policy of one ptype changes the grants of that ptype. -/
theorem adjust (holds : MemoryHolds model grants) {ptype : Bytes}
    (declared : model.Declares (ptype.take 1) ptype) {change : List Rule → List Rule}
    (once : (change (model.policy (ptype.take 1) ptype)).Nodup)
    (here : ∀ rule, rule ∈ change (model.policy (ptype.take 1) ptype) ↔
      ∃ g ∈ changed, g.ptype = ptype ∧ g.rule = rule)
    (elsewhere : ∀ g : Grant, g.ptype ≠ ptype → (g ∈ changed ↔ g ∈ grants)) :
    MemoryHolds (model.adjust (ptype.take 1) ptype change) changed := by
  constructor
  · intro s t
    by_cases own : s = ptype.take 1 ∧ t = ptype
    · rw [own.1, own.2, Model.policy_adjust_self declared]
      exact once
    · rw [Model.policy_adjust_of_ne _ _ own]
      exact holds.once s t
  · intro s t rule
    by_cases own : s = ptype.take 1 ∧ t = ptype
    · rw [own.1, own.2, Model.policy_adjust_self declared, here]
      constructor
      · rintro ⟨g, member, rfl, same⟩
        exact ⟨g, member, rfl, rfl, same⟩
      · rintro ⟨g, member, _, same⟩
        exact ⟨g, member, same⟩
    · have other : ∀ g : Grant, g.sec = s → g.ptype = t → g.ptype ≠ ptype := by
        rintro g rfl rfl rfl
        exact own ⟨rfl, rfl⟩
      rw [Model.policy_adjust_of_ne _ _ own, holds.rules]
      constructor
      · rintro ⟨g, member, rfl, rfl, same⟩
        exact ⟨g, (elsewhere g (other g rfl rfl)).mpr member, rfl, rfl, same⟩
      · rintro ⟨g, member, rfl, rfl, same⟩
        exact ⟨g, (elsewhere g (other g rfl rfl)).mp member, rfl, rfl, same⟩
  · intro g member
    rw [Model.declares_adjust]
    by_cases own : g.ptype = ptype
    · rw [Grant.sec, own]
      exact declared
    · exact holds.declared g ((elsewhere g own).mp member)

theorem insert (holds : MemoryHolds model grants) {g : Grant}
    (declared : model.Declares g.sec g.ptype) (fresh : g ∉ grants) :
    MemoryHolds (model.adjust g.sec g.ptype (· ++ [g.rule])) (Insert.insert g grants) := by
  have missing : g.rule ∉ model.policy g.sec g.ptype := mt (holds.mem_iff g).mp fresh
  apply holds.adjust declared
  · apply List.Nodup.append (holds.once _ _) (List.nodup_singleton _)
    rw [List.disjoint_singleton]
    exact missing
  · intro rule
    rw [List.mem_append, List.mem_singleton, holds.rules]
    constructor
    · rintro (⟨h, member, _, sameType, sameRule⟩ | rfl)
      · exact ⟨h, Set.mem_insert_of_mem g member, sameType, sameRule⟩
      · exact ⟨g, Set.mem_insert g grants, rfl, rfl⟩
    · rintro ⟨h, member, sameType, sameRule⟩
      rcases Set.mem_insert_iff.mp member with rfl | old
      · exact Or.inr sameRule.symm
      · exact Or.inl ⟨h, old, congrArg (List.take 1) sameType, sameType, sameRule⟩
  · intro h other
    rw [Set.mem_insert_iff]
    constructor
    · rintro (rfl | old)
      · exact absurd rfl other
      · exact old
    · exact Or.inr

/-- Filtering the rules of a ptype keeps the grants of the others. -/
theorem filter (holds : MemoryHolds model grants) {ptype : Bytes}
    (declared : model.Declares (ptype.take 1) ptype) {change : List Rule → List Rule}
    {test : Rule → Bool} {keeps : Grant → Prop}
    (after : change (model.policy (ptype.take 1) ptype) =
      (model.policy (ptype.take 1) ptype).filter test)
    (agree : ∀ g ∈ grants, g.ptype = ptype → (test g.rule = true ↔ keeps g))
    (others : ∀ g : Grant, g.ptype ≠ ptype → keeps g) :
    MemoryHolds (model.adjust (ptype.take 1) ptype change) {g ∈ grants | keeps g} := by
  apply holds.adjust declared
  · rw [after]
    exact (holds.once _ _).filter _
  · intro rule
    rw [after, List.mem_filter, holds.rules]
    constructor
    · rintro ⟨⟨g, member, _, sameType, rfl⟩, passes⟩
      exact ⟨g, ⟨member, (agree g member sameType).mp passes⟩, sameType, rfl⟩
    · rintro ⟨g, ⟨member, kept⟩, sameType, rfl⟩
      exact ⟨⟨g, member, congrArg _ sameType, sameType, rfl⟩, (agree g member sameType).mpr kept⟩
  · intro g other
    constructor
    · exact And.left
    · intro member
      exact ⟨member, others g other⟩

/-- Two models of one set of grants have the same rules as multisets. -/
theorem perm (holds : MemoryHolds model grants) {other : Model}
    (same : MemoryHolds other grants) (s t : Bytes) :
    (model.policy s t).Perm (other.policy s t) := by
  rw [List.perm_ext_iff_of_nodup (holds.once s t) (same.once s t)]
  intro rule
  rw [holds.rules, same.rules]

end MemoryHolds

end Casbinex.Adapter
