import Casbinex.Adapter.Atomic
import Casbinex.Adapter.Mirror
import Casbinex.Adapter.Revocation

/-!
# How far a failure reaches

An update that throws has changed the model and not the table.  What follows on it may
double a row or lose it, but only for the grants that the update names: of every other
grant, model and table go on telling the same.
-/

namespace Casbinex.Adapter

open Casbinex.Program
open Casbinex.Sql

/-- The update that an operation asks for. -/
def Operation.update : Operation → Option Update
  | .add ptype rule => some (.add (ptype.take 1) ptype rule)
  | .remove ptype rule => some (.remove (ptype.take 1) ptype rule)
  | .removeFiltered ptype fieldIndex fieldValues =>
      some (.removeFiltered (ptype.take 1) ptype fieldIndex fieldValues)
  | .reload => none

/-- The grants that an operation names. -/
def Operation.Names : Operation → Grant → Prop
  | .add ptype rule, g => g.ptype = ptype ∧ g.rule = rule
  | .remove ptype rule, g => g.ptype = ptype ∧ g.rule = rule
  | .removeFiltered ptype fieldIndex fieldValues, g =>
      g.Matches ptype fieldIndex.toNatClampNeg fieldValues
  | .reload, _ => False

theorem Operation.mem_effect_of_not_names {operation : Operation} {g : Grant}
    (other : ¬ operation.Names g) (grants : Set Grant) :
    g ∈ operation.effect grants ↔ g ∈ grants := by
  cases operation with
  | add ptype rule => exact or_iff_right other
  | remove ptype rule => exact and_iff_left other
  | removeFiltered ptype fieldIndex fieldValues => exact and_iff_left other
  | reload => exact Iff.rfl

/-- One operation with the faults it meets: how it ends, and model and database after it. -/
def Casbin.attempt (casbin : Casbin) (state : Model × Database) (operation : Operation)
    (faults : List Bool) : Except Failure Unit × Model × Database :=
  match operation.update with
  | some u =>
      let after := casbin.update u faults state.1 state.2
      (after.result.map fun _ => (), after.model, after.db)
  | none =>
      let after := call loadPolicy faults state.1 state.2
      (after.result, after.model, after.db)

/-- The state after a list of attempts. -/
def Casbin.attemptAll (casbin : Casbin) :
    List (Operation × List Bool) → Model × Database → Model × Database
  | [], state => state
  | (operation, faults) :: more, state =>
      casbin.attemptAll more (casbin.attempt state operation faults).2

/-- The grants that an attempt names and throws at. -/
def Casbin.doubts (casbin : Casbin) (state : Model × Database) (operation : Operation)
    (faults : List Bool) : Set Grant :=
  {g | (∃ failure, (casbin.attempt state operation faults).1 = .error failure) ∧
    operation.Names g}

/-- The grants that some attempt of a list names and throws at. -/
def Casbin.allDoubts (casbin : Casbin) :
    List (Operation × List Bool) → Model × Database → Set Grant
  | [], _ => ∅
  | (operation, faults) :: more, state => casbin.doubts state operation faults ∪
      casbin.allDoubts more (casbin.attempt state operation faults).2

/-! ## The invariant -/

/-- The grant is there once or not at all. -/
def Once (present : Prop) (count : Nat) : Prop := (present ∧ count = 1) ∨ (¬ present ∧ count = 0)

theorem Once.congr {present other : Prop} {count : Nat} (once : Once present count)
    (same : present ↔ other) : Once other count :=
  propext same ▸ once

theorem Once.iff {present other : Prop} {count : Nat} (once : Once present count)
    (again : Once other count) : present ↔ other := by
  rcases once with ⟨here, one⟩ | ⟨gone, none⟩
  · rcases again with ⟨there, _⟩ | ⟨_, zero⟩
    · exact iff_of_true here there
    · exact absurd (one.symm.trans zero) Nat.one_ne_zero
  · rcases again with ⟨_, one⟩ | ⟨gone', _⟩
    · exact absurd (one.symm.trans none) Nat.one_ne_zero
    · exact iff_of_false gone gone'

/-- The rows are those of grants of declared ptypes; outside the doubtful grants, those of
the set are stored, once each. -/
structure TableTells (start : Model) (relation : Relation) (grants doubtful : Set Grant) :
    Prop where
  rows : ∀ cells ∈ content relation, ∃ g : Grant, g.cells = cells ∧ start.Declares g.sec g.ptype
  once : ∀ g ∉ doubtful, Once (g ∈ grants) ((content relation).count g.cells)

/-- The rules are those of grants; outside the doubtful grants, those of the set are held,
once each. -/
structure MemoryTells (start model : Model) (grants doubtful : Set Grant) : Prop where
  rules : ∀ s t, ∀ rule ∈ model.policy s t, ∃ g : Grant, g.ptype = t ∧ g.rule = rule
  declares : ∀ s t, model.Declares s t ↔ start.Declares s t
  once : ∀ g ∉ doubtful, Once (g ∈ grants) ((model.policy g.sec g.ptype).count g.rule)

theorem once_of_nodup {β : Type} [BEq β] [LawfulBEq β] {list : List β} (distinct : list.Nodup)
    (value : β) : Once (value ∈ list) (list.count value) := by
  have bound := List.nodup_iff_count_le_one.mp distinct value
  rw [Once, ← List.count_pos_iff]
  omega

theorem TableHolds.tells {start : Model} {relation : Relation} {grants : Set Grant}
    (holds : TableHolds relation grants)
    (declared : ∀ g ∈ grants, start.Declares g.sec g.ptype) :
    TableTells start relation grants ∅ where
  rows := by
    intro cells member
    obtain ⟨g, granted, rfl⟩ := (holds.rows cells).mp member
    exact ⟨g, rfl, declared g granted⟩
  once g _ := (once_of_nodup holds.once g.cells).congr (holds.mem_iff g)

theorem MemoryHolds.tells {start model : Model} {grants : Set Grant}
    (holds : MemoryHolds model grants) (declares : ∀ s t, model.Declares s t ↔ start.Declares s t) :
    MemoryTells start model grants ∅ where
  rules := by
    intro s t rule member
    obtain ⟨g, _, _, sameType, sameRule⟩ := (holds.rules s t rule).mp member
    exact ⟨g, sameType, sameRule⟩
  declares := declares
  once g _ := (once_of_nodup (holds.once g.sec g.ptype) g.rule).congr (holds.mem_iff g)

/-! ## The table -/

namespace TableTells

variable {start : Model} {relation : Relation} {grants doubtful : Set Grant}

theorem mono (tells : TableTells start relation grants doubtful) {more : Set Grant}
    (wider : doubtful ⊆ more) : TableTells start relation grants more :=
  ⟨tells.rows, fun g sure => tells.once g fun member => sure (wider member)⟩

/-- An operation that is not stored leaves the table behind for the grants it names. -/
theorem missed (tells : TableTells start relation grants doubtful) {operation : Operation}
    (names : ∀ g ∉ doubtful, ¬ operation.Names g) :
    TableTells start relation (operation.effect grants) doubtful :=
  ⟨tells.rows, fun g sure => (tells.once g sure).congr
    (Operation.mem_effect_of_not_names (names g sure) grants).symm⟩

theorem insert (tells : TableTells start relation grants doubtful)
    (shape : relation.columns = tableColumns) {g : Grant} (declared : start.Declares g.sec g.ptype)
    (fresh : g ∉ doubtful → g ∉ grants) :
    TableTells start (withRule relation g.ptype g.rule)
      (Operation.effect grants (.add g.ptype g.rule)) doubtful := by
  have after : content (withRule relation g.ptype g.rule) = content relation ++ [g.cells] := by
    simp [content_withRule shape, Grant.cells]
  constructor
  · intro cells member
    rw [after, List.mem_append, List.mem_singleton] at member
    rcases member with old | rfl
    · exact tells.rows cells old
    · exact ⟨g, rfl, declared⟩
  · intro h sure
    rw [after, List.count_append]
    by_cases same : h = g
    · subst same
      rcases tells.once h sure with ⟨present, _⟩ | ⟨_, none⟩
      · exact absurd present (fresh sure)
      · exact Or.inl ⟨Or.inl ⟨rfl, rfl⟩, by simp [none]⟩
    · have other : ¬ Operation.Names (.add g.ptype g.rule) h := fun both =>
        same (Grant.ext_iff.mpr both)
      have apart : [g.cells].count h.cells = 0 := by
        simpa [List.count_singleton] using Ne.symm same
      rw [apart, Nat.add_zero]
      exact (tells.once h sure).congr (Operation.mem_effect_of_not_names other grants).symm

/-- Deleting the rows of the named grants. -/
theorem delete (tells : TableTells start relation grants doubtful) {operation : Operation}
    {left : Relation} {test : Row → Bool} (after : content left = (content relation).filter test)
    (agree : ∀ g : Grant, test g.cells = true ↔ ¬ operation.Names g)
    (effect : ∀ g, g ∈ operation.effect grants ↔ g ∈ grants ∧ ¬ operation.Names g) :
    TableTells start left (operation.effect grants) doubtful := by
  constructor
  · intro cells member
    rw [after] at member
    exact tells.rows cells (List.mem_filter.mp member).1
  · intro g sure
    rw [after]
    by_cases named : operation.Names g
    · have gone : g.cells ∉ (content relation).filter test := fun member =>
        (agree g).mp (List.mem_filter.mp member).2 named
      exact Or.inr ⟨fun present => ((effect g).mp present).2 named, List.count_eq_zero.mpr gone⟩
    · rw [List.count_filter ((agree g).mpr named)]
      exact (tells.once g sure).congr (Operation.mem_effect_of_not_names named grants).symm

end TableTells

/-! ## The model -/

namespace MemoryTells

variable {start model : Model} {grants doubtful : Set Grant}

theorem mono (tells : MemoryTells start model grants doubtful) {more : Set Grant}
    (wider : doubtful ⊆ more) : MemoryTells start model grants more :=
  ⟨tells.rules, tells.declares, fun g sure => tells.once g fun member => sure (wider member)⟩

theorem mem_iff (tells : MemoryTells start model grants doubtful) {g : Grant}
    (sure : g ∉ doubtful) : g.rule ∈ model.policy g.sec g.ptype ↔ g ∈ grants := by
  rw [← List.count_pos_iff]
  rcases tells.once g sure with ⟨present, one⟩ | ⟨absent, none⟩
  · exact iff_of_true (one ▸ Nat.zero_lt_one) present
  · exact iff_of_false (none ▸ Nat.lt_irrefl 0) absent

/-- An operation that casbin has nothing to do for. -/
theorem idle (tells : MemoryTells start model grants doubtful) {operation : Operation}
    (same : ∀ g ∉ doubtful, operation.Names g → (g ∈ operation.effect grants ↔ g ∈ grants)) :
    MemoryTells start model (operation.effect grants) doubtful := by
  refine ⟨tells.rules, tells.declares, fun g sure => (tells.once g sure).congr ?_⟩
  by_cases named : operation.Names g
  · exact (same g sure named).symm
  · exact (Operation.mem_effect_of_not_names named grants).symm

/-- Changing the policy of one ptype, as the operation says for the grants it names and not
at all for the others. -/
theorem adjust (tells : MemoryTells start model grants doubtful) {ptype : Bytes}
    (declared : start.Declares (ptype.take 1) ptype) {change : List Rule → List Rule}
    {operation : Operation} (own : ∀ g, operation.Names g → g.ptype = ptype)
    (known : ∀ rule ∈ change (model.policy (ptype.take 1) ptype),
      rule ∈ model.policy (ptype.take 1) ptype ∨ ∃ g : Grant, g.ptype = ptype ∧ g.rule = rule)
    (named : ∀ g ∉ doubtful, operation.Names g → Once (g ∈ operation.effect grants)
      ((change (model.policy (ptype.take 1) ptype)).count g.rule))
    (others : ∀ g : Grant, g.ptype = ptype → ¬ operation.Names g →
      (change (model.policy (ptype.take 1) ptype)).count g.rule =
        (model.policy (ptype.take 1) ptype).count g.rule) :
    MemoryTells start (model.adjust (ptype.take 1) ptype change) (operation.effect grants)
      doubtful := by
  have here := Model.policy_adjust_self ((tells.declares _ _).mpr declared) change
  constructor
  · intro s t rule member
    by_cases own : s = ptype.take 1 ∧ t = ptype
    · obtain ⟨rfl, rfl⟩ := own
      rw [here] at member
      exact (known rule member).elim (tells.rules _ _ rule) id
    · rw [Model.policy_adjust_of_ne _ _ own] at member
      exact tells.rules s t rule member
  · intro s t
    rw [Model.declares_adjust]
    exact tells.declares s t
  · intro g sure
    by_cases asked : operation.Names g
    · have same := own g asked
      rw [Grant.sec, same, here]
      exact named g sure asked
    · refine Once.congr ?_ (Operation.mem_effect_of_not_names asked grants).symm
      by_cases same : g.ptype = ptype
      · have before := tells.once g sure
        rw [Grant.sec, same] at before ⊢
        rw [here, others g same asked]
        exact before
      · rw [Model.policy_adjust_of_ne _ _ fun both => same both.2]
        exact tells.once g sure

end MemoryTells

/-! ## An update of model and table -/

section

variable {casbin : Casbin} {start model : Model} {db : Database} {key : RelName}
  {relation : Relation} {grants doubtful : Set Grant}

/-- Storing the update succeeds and makes the table tell what the operation means. -/
def Written (start : Model) (db : Database) (key : RelName) (grants doubtful : Set Grant)
    (operation : Operation) (u : Update) (after : Model) : Prop :=
  ∃ written, call u.store [] after db = ⟨.ok (), after, db.put key written, []⟩ ∧
    written.columns = tableColumns ∧
    TableTells start written (operation.effect grants) doubtful

/-- Inserting a rule that the table does not have. -/
theorem written_add (named : Serves db plainRef key relation)
    (table : TableTells start relation grants doubtful) {ptype : Bytes} {rule : Rule}
    (declaredType : DeclaredType start ptype) (storable : StorableRule rule)
    (fresh : ∀ g ∉ doubtful, Operation.Names (.add ptype rule) g → g ∉ grants) (after : Model) :
    Written start db key grants doubtful (.add ptype rule) (.add (ptype.take 1) ptype rule)
      after := by
  let g := storable.grant declaredType
  have told : TableTells start (withRule relation g.ptype g.rule) _ doubtful :=
    table.insert named.shape declaredType.declared fun sure => fresh g sure ⟨rfl, rfl⟩
  exact ⟨_, call_addPolicy named after (ptype.take 1) _ _, named.shape, told⟩

/-- Deleting the rows of a rule. -/
theorem written_remove (qualified : Serves db polarityRef key relation)
    (table : TableTells start relation grants doubtful) {ptype : Bytes} {rule : Rule}
    (declaredType : DeclaredType start ptype) (storable : StorableRule rule) (after : Model) :
    Written start db key grants doubtful (.remove ptype rule) (.remove (ptype.take 1) ptype rule)
      after := by
  let g := storable.grant declaredType
  refine ⟨_, call_removePolicy qualified after (ptype.take 1) _ _, qualified.shape, ?_⟩
  refine table.delete (content_withoutRule qualified.shape ptype rule) (fun h => ?_)
    fun h => Iff.rfl
  have row : ruleCells (cString ptype) (rule.map cString) = g.cells := by
    have cleanType : cString ptype = ptype := g.cString_ptype
    have cleanRule : rule.map cString = rule := g.map_cString_rule
    rw [cleanType, cleanRule]
    rfl
  rw [row, decide_eq_true_iff, ne_eq, Grant.cells_inj, Grant.ext_iff]
  rfl

/-- Deleting the rows of the rules that a filter hits. -/
theorem written_removeFiltered (qualified : Serves db polarityRef key relation)
    (table : TableTells start relation grants doubtful) {ptype : Bytes} {fieldIndex : Int32}
    {fieldValues : List Bytes} (declaredType : DeclaredType start ptype)
    (storable : StorableFilter fieldIndex fieldValues)
    (clean : fieldValues.map cString = fieldValues) (after : Model) :
    Written start db key grants doubtful (.removeFiltered ptype fieldIndex fieldValues)
      (.removeFiltered (ptype.take 1) ptype fieldIndex fieldValues) after := by
  have cleanType : cString ptype = ptype := cString_of_notMem declaredType.plain.clean
  refine ⟨_, call_removeFilteredPolicy qualified after (ptype.take 1) _ storable.nonneg
    storable.bound, qualified.shape, ?_⟩
  classical
  refine table.delete (content_withoutMatches qualified.shape ptype storable.bound) (fun h => ?_)
    fun h => Iff.rfl
  rw [decide_eq_true_iff, cleanType, clean, h.filterMatches_cells ptype storable.bound]
  rfl

/-- A value that some held field equals is as free of zero bytes as that field. -/
theorem clean_of_hit (rules : ∀ s t, ∀ rule ∈ model.policy s t, ∃ g : Grant, g.ptype = t ∧
      g.rule = rule) {ptype : Bytes} {fieldIndex : Int32} {fieldValues : List Bytes}
    (storable : StorableFilter fieldIndex fieldValues) {rule : Rule}
    (member : rule ∈ model.policy (ptype.take 1) ptype)
    (hitting : filterHits fieldIndex.toNatClampNeg fieldValues rule = true) :
    fieldValues.map cString = fieldValues := by
  obtain ⟨h, same, rfl⟩ := rules _ _ rule member
  refine map_cString_of_notMem fun value inValues => ?_
  obtain ⟨offset, found⟩ := List.getElem?_of_mem inValues
  have matching := (h.matches_iff_hits storable.solid).mpr hitting
  exact (h.plainFields value (List.mem_of_getElem? (matching.2 offset value found))).clean

/-- The model tells what the operation means.  Where casbin passes the update on, a stored
update makes the table tell the same. -/
structure Changes (casbin : Casbin) (start model : Model) (grants doubtful : Set Grant)
    (operation : Operation) (u : Update) : Prop where
  memory : MemoryTells start (casbin.change u model).2 (operation.effect grants) doubtful
  idle : (casbin.change u model).1 = false → (casbin.change u model).2 = model
  stored : (casbin.change u model).1 = true → ∀ db key relation after,
    Serves db plainRef key relation → Serves db polarityRef key relation →
    TableTells start relation grants doubtful →
    Written start db key grants doubtful operation u after

theorem changes_add (documented : casbin.Documented)
    (memory : MemoryTells start model grants doubtful) {ptype : Bytes} {rule : Rule}
    (declaredType : DeclaredType start ptype) (storable : StorableRule rule) :
    Changes casbin start model grants doubtful (.add ptype rule)
      (.add (ptype.take 1) ptype rule) := by
  let g := storable.grant declaredType
  have declared : model.Declares (ptype.take 1) ptype :=
    (memory.declares _ _).mpr declaredType.declared
  have only (h : Grant) (named : Operation.Names (.add ptype rule) h) : h = g :=
    Grant.ext_iff.mpr named
  by_cases present : rule ∈ model.policy (ptype.take 1) ptype
  · have change := documented.add_present declared present
    refine ⟨?_, fun _ => by rw [change], fun passes => by rw [change] at passes; cases passes⟩
    rw [change]
    refine memory.idle fun h sure named => ?_
    obtain rfl := only h named
    exact or_iff_right_of_imp fun _ => (memory.mem_iff sure).mp present
  · have change := documented.add_absent declared present
    have fresh : g ∉ doubtful → g ∉ grants := fun sure granted =>
      present ((memory.mem_iff sure).mpr granted)
    constructor
    · rw [change]
      refine memory.adjust declaredType.declared (fun h named => named.1) ?_ ?_ ?_
      · intro other member
        rcases List.mem_append.mp member with old | new
        · exact Or.inl old
        · exact Or.inr ⟨g, rfl, (List.mem_singleton.mp new).symm⟩
      · intro h sure named
        obtain rfl := only h named
        have none : (model.policy (ptype.take 1) ptype).count rule = 0 :=
          List.count_eq_zero.mpr present
        refine Or.inl ⟨Or.inl named, ?_⟩
        rw [List.count_append, named.2, none, List.count_singleton_self]
      · intro h same other
        have apart : h.rule ∉ [rule] := fun member => other ⟨same, List.mem_singleton.mp member⟩
        rw [List.count_append, List.count_eq_zero.mpr apart, Nat.add_zero]
    · intro passes
      rw [change] at passes
      cases passes
    · intro _ db key relation after named qualified table
      refine written_add named table declaredType storable (fun h sure names => ?_) after
      obtain rfl := only h names
      exact fresh sure

theorem changes_remove (documented : casbin.Documented)
    (memory : MemoryTells start model grants doubtful) {ptype : Bytes} {rule : Rule}
    (declaredType : DeclaredType start ptype) (storable : StorableRule rule) :
    Changes casbin start model grants doubtful (.remove ptype rule)
      (.remove (ptype.take 1) ptype rule) := by
  let g := storable.grant declaredType
  have declared : model.Declares (ptype.take 1) ptype :=
    (memory.declares _ _).mpr declaredType.declared
  have only (h : Grant) (named : Operation.Names (.remove ptype rule) h) : h = g :=
    Grant.ext_iff.mpr named
  by_cases present : rule ∈ model.policy (ptype.take 1) ptype
  · have change := documented.remove_present declared present
    constructor
    · rw [change]
      refine memory.adjust declaredType.declared (fun h named => named.1) ?_ ?_ ?_
      · intro other member
        exact Or.inl (List.mem_of_mem_erase member)
      · intro h sure named
        obtain rfl := only h named
        have one : (model.policy (ptype.take 1) ptype).count rule = 1 := by
          rcases memory.once g sure with ⟨_, one⟩ | ⟨_, none⟩
          · exact one
          · exact absurd present (List.count_eq_zero.mp none)
        refine Or.inr ⟨fun kept => kept.2 named, ?_⟩
        rw [named.2, List.count_erase_self, one]
      · intro h same other
        exact List.count_erase_of_ne fun equal => other ⟨same, equal⟩
    · intro passes
      rw [change] at passes
      cases passes
    · intro _ db key relation after named qualified table
      exact written_remove qualified table declaredType storable after
  · have change := documented.remove_absent declared present
    refine ⟨?_, fun _ => by rw [change], fun passes => by rw [change] at passes; cases passes⟩
    rw [change]
    refine memory.idle fun h sure named => ?_
    obtain rfl := only h named
    exact and_iff_left_of_imp fun granted => absurd ((memory.mem_iff sure).mpr granted) present

theorem changes_removeFiltered (documented : casbin.Documented)
    (memory : MemoryTells start model grants doubtful) {ptype : Bytes} {fieldIndex : Int32}
    {fieldValues : List Bytes} (declaredType : DeclaredType start ptype)
    (storable : StorableFilter fieldIndex fieldValues) :
    Changes casbin start model grants doubtful (.removeFiltered ptype fieldIndex fieldValues)
      (.removeFiltered (ptype.take 1) ptype fieldIndex fieldValues) := by
  have declared : model.Declares (ptype.take 1) ptype :=
    (memory.declares _ _).mpr declaredType.declared
  have hits (h : Grant) (same : h.ptype = ptype) :
      Operation.Names (.removeFiltered ptype fieldIndex fieldValues) h ↔
        filterHits fieldIndex.toNatClampNeg fieldValues h.rule = true :=
    same ▸ h.matches_iff_hits storable.solid
  by_cases hit : ∃ rule ∈ model.policy (ptype.take 1) ptype,
      filterHits fieldIndex.toNatClampNeg fieldValues rule = true
  · have change := documented.removeFiltered_hit declared storable.nonneg hit
    constructor
    · rw [change]
      refine memory.adjust declaredType.declared (fun h named => named.1) ?_ ?_ ?_
      · intro other member
        exact Or.inl (List.mem_filter.mp member).1
      · intro h sure named
        refine Or.inr ⟨fun kept => kept.2 named, List.count_eq_zero.mpr fun member => ?_⟩
        have missed := (List.mem_filter.mp member).2
        rw [(hits h named.1).mp named] at missed
        cases missed
      · intro h same other
        rw [hits h same, Bool.not_eq_true] at other
        exact List.count_filter (by rw [other]; rfl)
    · intro passes
      rw [change] at passes
      cases passes
    · intro _ db key relation after named qualified table
      obtain ⟨rule, member, hitting⟩ := hit
      exact written_removeFiltered qualified table declaredType storable
        (clean_of_hit memory.rules storable member hitting) after
  · have miss : ∀ rule ∈ model.policy (ptype.take 1) ptype,
        filterHits fieldIndex.toNatClampNeg fieldValues rule = false := by
      intro rule member
      rw [← Bool.not_eq_true]
      exact fun hitting => hit ⟨rule, member, hitting⟩
    have change := documented.removeFiltered_miss declared storable.nonneg miss
    refine ⟨?_, fun _ => by rw [change], fun passes => by rw [change] at passes; cases passes⟩
    rw [change]
    refine memory.idle fun h sure named => and_iff_left_of_imp fun granted => ?_
    obtain rfl : h.ptype = ptype := named.1
    have held := (memory.mem_iff sure).mpr granted
    exact absurd ⟨h.rule, held, (hits h rfl).mp named⟩ hit

/-- Every admissible update changes model and table alike. -/
theorem changes_of_update (documented : casbin.Documented)
    (memory : MemoryTells start model grants doubtful) {operation : Operation} {u : Update}
    (asks : operation.update = some u) (admissible : operation.Admissible start) :
    Changes casbin start model grants doubtful operation u := by
  cases operation with
  | add ptype rule =>
      cases asks
      exact changes_add documented memory admissible.1 admissible.2
  | remove ptype rule =>
      cases asks
      exact changes_remove documented memory admissible.1 admissible.2
  | removeFiltered ptype fieldIndex fieldValues =>
      cases asks
      exact changes_removeFiltered documented memory admissible.1 admissible.2
  | reload => cases asks

/-! ## Runs -/

/-- The table serves both names, and outside the doubtful grants table and model tell the
same. -/
structure Contained (start : Model) (key : RelName) (state : Model × Database)
    (relation : Relation) (grants doubtful : Set Grant) : Prop where
  named : Serves state.2 plainRef key relation
  qualified : Serves state.2 polarityRef key relation
  table : TableTells start relation grants doubtful
  memory : MemoryTells start state.1 grants doubtful

/-- A reload that completes reads off the table what it tells. -/
theorem TableTells.loaded (table : TableTells start relation grants doubtful)
    (declares : ∀ s t, model.Declares s t ↔ start.Declares s t) :
    ∃ loaded, loadRows (content relation) model.clearPolicy = .ok loaded ∧
      MemoryTells start loaded grants doubtful := by
  have loadable : Loadable model.clearPolicy (content relation) := by
    intro cells member
    obtain ⟨g, rfl, declared⟩ := table.rows cells member
    refine ⟨g.ptype, g.rule, g.entryOf_cells, ?_⟩
    exact (model.declares_clearPolicy _ _).mpr ((declares _ _).mpr declared)
  obtain ⟨loaded, ok, spec⟩ := loadRows_spec loadable
  refine ⟨loaded, ok, ?_, ?_, ?_⟩
  · intro s t rule member
    rw [spec.policy_of_clear] at member
    split at member
    · obtain ⟨cells, inRows, reads⟩ := mem_rulesUnder.mp member
      obtain ⟨g, rfl, _⟩ := table.rows cells inRows
      rw [Grant.entryOf_cells, Option.some.injEq, Prod.mk.injEq] at reads
      exact ⟨g, reads⟩
    · cases member
  · intro s t
    rw [spec.declares, Model.declares_clearPolicy]
    exact declares s t
  · intro g sure
    have counted : (rulesUnder g.ptype (content relation)).count g.rule =
        (content relation).count g.cells := by
      rw [count_rulesUnder, List.count]
      apply List.countP_congr
      intro cells inRows
      obtain ⟨h, rfl, _⟩ := table.rows cells inRows
      simp [Grant.ext_iff]
    rw [spec.policy_of_clear, Grant.sec, if_pos rfl, counted]
    exact table.once g sure

/-- A reload that throws leaves the model. -/
theorem contained_reload (casbin : Casbin) {state : Model × Database}
    (contained : Contained start key state relation grants doubtful) (faults : List Bool) :
    Contained start key (casbin.attempt state .reload faults).2 relation grants doubtful := by
  obtain ⟨model, db⟩ := state
  have same : (call loadPolicy faults model db).db = db := db_of_loadPolicy faults model db
  have memory : MemoryTells start (call loadPolicy faults model db).model grants doubtful := by
    obtain ⟨loaded, ok, told⟩ := contained.table.loaded contained.memory.declares
    rcases call_fault_or_nil loadPolicy faults model db with struck | ⟨later, ended⟩
    · rw [model_of_loadPolicy_thrown struck trivial]
      exact contained.memory
    · rw [ended, call_loadPolicy_ok contained.named ok]
      exact told
  simp only [Casbin.attempt, Operation.update]
  exact ⟨same.symm ▸ contained.named, same.symm ▸ contained.qualified, contained.table, memory⟩

/-- Step: an attempt, whatever becomes of it, means the same in model and table but for the
grants that it brings into doubt. -/
theorem contained_attempt (documented : casbin.Documented) {state : Model × Database}
    (contained : Contained start key state relation grants doubtful) {operation : Operation}
    (admissible : operation.Admissible start) (faults : List Bool) :
    ∃ stored, Contained start key (casbin.attempt state operation faults).2 stored
      (operation.effect grants) (doubtful ∪ casbin.doubts state operation faults) := by
  obtain ⟨model, db⟩ := state
  have wider : doubtful ⊆ doubtful ∪ casbin.doubts (model, db) operation faults :=
    Set.subset_union_left
  cases asks : operation.update with
  | none =>
      obtain rfl : operation = .reload := by cases operation <;> first | rfl | cases asks
      have after := contained_reload casbin contained faults
      exact ⟨relation, after.named, after.qualified, after.table.mono wider,
        after.memory.mono wider⟩
  | some u =>
      have changes := changes_of_update documented contained.memory asks admissible
      have told := changes.memory.mono wider
      have attempted : casbin.attempt (model, db) operation faults =
          ((casbin.update u faults model db).result.map fun _ => (),
            (casbin.update u faults model db).model, (casbin.update u faults model db).db) := by
        simp only [Casbin.attempt, asks]
      rcases casbin.update_cases u faults model db with
        ⟨passes, idle⟩ | ⟨_, failure, later, failed⟩ | ⟨passes, _, later, done⟩
      · -- the model holds what it held, and so the operation means nothing
        have kept := changes.idle passes
        refine ⟨relation, ?_⟩
        rw [attempted, idle]
        refine ⟨contained.named, contained.qualified, ⟨contained.table.rows, ?_⟩, told⟩
        intro g sure
        have early := mt (@wider g) sure
        have now := changes.memory.once g early
        rw [kept] at now
        exact (contained.table.once g early).congr ((contained.memory.once g early).iff now)
      · -- the table is behind for the grants that have come into doubt
        refine ⟨relation, ?_⟩
        have unnamed : ∀ g ∉ doubtful ∪ casbin.doubts (model, db) operation faults,
            ¬ operation.Names g := by
          refine fun g sure names => sure (Or.inr ⟨⟨failure, ?_⟩, names⟩)
          rw [attempted, failed]
          rfl
        rw [attempted, failed]
        exact ⟨contained.named, contained.qualified,
          (contained.table.mono wider).missed unnamed, told⟩
      · obtain ⟨written, saved, shape, table⟩ := changes.stored passes db key relation
          (casbin.change u model).2 contained.named contained.qualified contained.table
        refine ⟨written, ?_⟩
        rw [attempted, done, saved]
        exact ⟨contained.named.put shape, contained.qualified.put shape, table.mono wider, told⟩

theorem contained_attemptAll (documented : casbin.Documented) {steps : List (Operation × List Bool)}
    (admissible : ∀ step ∈ steps, step.1.Admissible start) {state : Model × Database}
    (contained : Contained start key state relation grants doubtful) :
    ∃ stored, Contained start key (casbin.attemptAll steps state) stored
      ((steps.map Prod.fst).foldl Operation.effect grants)
      (doubtful ∪ casbin.allDoubts steps state) := by
  induction steps generalizing state relation grants doubtful with
  | nil => exact ⟨relation, (Set.union_empty doubtful).symm ▸ contained⟩
  | cons step more ih =>
      obtain ⟨first, rest⟩ := List.forall_mem_cons.mp admissible
      obtain ⟨stored, next⟩ := contained_attempt documented contained first step.2
      obtain ⟨last, ended⟩ := ih rest next
      rw [Set.union_assoc] at ended
      exact ⟨last, ended⟩

/-- Run: whatever fails, a grant that no failing call names is in the table and in the
model exactly if the operations say so, and once in each. -/
theorem faults_are_contained (documented : casbin.Documented)
    {steps : List (Operation × List Bool)}
    (admissible : ∀ step ∈ steps, step.1.Admissible start) {state : Model × Database}
    (mirrored : Mirrored start key state grants relation) :
    ∃ stored, Serves (casbin.attemptAll steps state).2 plainRef key stored ∧
      ∀ g ∉ casbin.allDoubts steps state,
        Once (g ∈ (steps.map Prod.fst).foldl Operation.effect grants)
          ((content stored).count g.cells) ∧
        Once (g ∈ (steps.map Prod.fst).foldl Operation.effect grants)
          (((casbin.attemptAll steps state).1.policy g.sec g.ptype).count g.rule) := by
  have begins : Contained start key state relation grants ∅ :=
    ⟨mirrored.named, mirrored.qualified,
      mirrored.table.tells fun g granted =>
        (mirrored.declares _ _).mp (mirrored.memory.declared g granted),
      mirrored.memory.tells mirrored.declares⟩
  obtain ⟨stored, ended⟩ := contained_attemptAll documented admissible begins
  rw [Set.empty_union] at ended
  exact ⟨stored, ended.named, fun g sure => ⟨ended.table.once g sure, ended.memory.once g sure⟩⟩

end

def bobReads : Grant where
  ptype := ascii "p"
  rule := [ascii "bob", ascii "data1", ascii "read"]
  plainType := aliceReads.plainType
  plainFields := List.forall_mem_cons.mpr ⟨by decide,
    (List.forall_mem_cons.mp aliceReads.plainFields).2⟩
  short := aliceReads.short

/-- One row: the grant of alice. -/
def aliceRelation : Relation :=
  withRule (Relation.empty tableColumns) aliceReads.ptype aliceReads.rule

theorem mirrored_aliceReads : Mirrored (rbacModel [] []) (ascii "polarity", tableName)
    (rbacModel [aliceReads.rule] [], singleTable (ascii "polarity") aliceRelation)
    {g | g.cells ∈ content aliceRelation} aliceRelation := by
  have named : Serves (singleTable (ascii "polarity") aliceRelation) plainRef
      (ascii "polarity", tableName) aliceRelation := serves_singleTable _ rfl
  refine mirrored_of_loaded named (serves_polarity rfl).resolved (List.nodup_singleton _) ?_
    (call_loadPolicy_ok named rfl)
  intro cells member
  exact ⟨aliceReads, (List.mem_singleton.mp member).symm⟩

/-- The removal of alice fails and her rule is added again. -/
def regrant : List (Operation × List Bool) :=
  [(.remove (ascii "p") aliceReads.rule, [true]), (.add (ascii "p") bobReads.rule, []),
    (.add (ascii "p") aliceReads.rule, [])]

/-- The row of alice is there twice; the grant of bob is stored once and held once. -/
theorem faults_are_contained_bobReads :
    let ended := Casbin.reference.attemptAll regrant
      (rbacModel [aliceReads.rule] [], singleTable (ascii "polarity") aliceRelation)
    ∃ stored, Serves ended.2 plainRef (ascii "polarity", tableName) stored ∧
      content stored = [aliceReads.cells, bobReads.cells, aliceReads.cells] ∧
      Once (bobReads ∈ (regrant.map Prod.fst).foldl Operation.effect
          {g | g.cells ∈ content aliceRelation})
        ((ended.1.policy bobReads.sec bobReads.ptype).count bobReads.rule) := by
  intro ended
  have declaredType : DeclaredType (rbacModel [] []) (ascii "p") := ⟨by decide, by decide⟩
  have storableAlice : StorableRule aliceReads.rule := by decide
  have storableBob : StorableRule bobReads.rule := by decide
  have admissible : ∀ step ∈ regrant, step.1.Admissible (rbacModel [] []) := by
    simp only [regrant, List.forall_mem_cons]
    exact ⟨⟨declaredType, storableAlice⟩, ⟨declaredType, storableBob⟩,
      ⟨declaredType, storableAlice⟩, List.forall_mem_nil _⟩
  have others : bobReads.rule ≠ aliceReads.rule := by decide
  have returns : (Casbin.reference.attempt (Casbin.reference.attempt
      (rbacModel [aliceReads.rule] [], singleTable (ascii "polarity") aliceRelation)
        (.remove (ascii "p") aliceReads.rule) [true]).2
          (.add (ascii "p") bobReads.rule) []).1 = .ok () := by
    decide +kernel
  have sure : bobReads ∉ Casbin.reference.allDoubts regrant
      (rbacModel [aliceReads.rule] [], singleTable (ascii "polarity") aliceRelation) := by
    rintro (⟨_, names⟩ | ⟨⟨failure, failed⟩, _⟩ | ⟨_, names⟩ | none)
    · exact others names.2
    · cases returns.symm.trans failed
    · exact others names.2
    · exact none
  obtain ⟨stored, serves, tells⟩ :=
    faults_are_contained Casbin.reference_documented admissible mirrored_aliceReads
  have rows : (ended.2.table (ascii "polarity", tableName)).map content =
      some [aliceReads.cells, bobReads.cells, aliceReads.cells] := by
    decide +kernel
  rw [serves.stored] at rows
  exact ⟨stored, serves, Option.some.inj rows, (tells bobReads sure).2⟩

end Casbinex.Adapter
