import Casbinex.Adapter.Enforcer

/-!
# Storage mirrors memory

One enforcer drives one adapter without faults.  Its model and its table stay two
representations of one set of grants, so a reload builds the rules held in memory.
-/

namespace Casbinex.Adapter

open Casbinex.Sql

/-- What a caller asks of the enforcer; the section is the first letter of the ptype. -/
inductive Operation where
  | add (ptype : Bytes) (rule : Rule)
  | remove (ptype : Bytes) (rule : Rule)
  | removeFiltered (ptype : Bytes) (fieldIndex : Int32) (fieldValues : List Bytes)
  | reload
  deriving DecidableEq

/-- A ptype of the model. -/
structure DeclaredType (model : Model) (ptype : Bytes) : Prop where
  plain : Plain ptype
  declared : model.Declares (ptype.take 1) ptype

/-- A rule that fits into a row. -/
structure StorableRule (rule : Rule) : Prop where
  plain : ∀ field ∈ rule, Plain field
  short : rule.length ≤ 7

instance (rule : Rule) : Decidable (StorableRule rule) :=
  decidable_of_iff ((∀ field ∈ rule, Plain field) ∧ rule.length ≤ 7)
    ⟨fun storable => ⟨storable.1, storable.2⟩, fun storable => ⟨storable.plain, storable.short⟩⟩

/-- A filter that addresses columns of the table and has no wildcard. -/
structure StorableFilter (fieldIndex : Int32) (fieldValues : List Bytes) : Prop where
  nonneg : 0 ≤ fieldIndex
  bound : fieldIndex.toNatClampNeg + fieldValues.length ≤ 7
  solid : ∀ value ∈ fieldValues, value ≠ []
  trimmed : ∀ value ∈ fieldValues, trim value = value

namespace Operation

def Admissible (model : Model) : Operation → Prop
  | .add ptype rule => DeclaredType model ptype ∧ StorableRule rule
  | .remove ptype rule => DeclaredType model ptype ∧ StorableRule rule
  | .removeFiltered ptype fieldIndex fieldValues =>
      DeclaredType model ptype ∧ StorableFilter fieldIndex fieldValues
  | .reload => True

/-- What the operation means for the set of grants. -/
def effect (grants : Set Grant) : Operation → Set Grant
  | .add ptype rule => {g | (g.ptype = ptype ∧ g.rule = rule) ∨ g ∈ grants}
  | .remove ptype rule => {g ∈ grants | ¬ (g.ptype = ptype ∧ g.rule = rule)}
  | .removeFiltered ptype fieldIndex fieldValues =>
      {g ∈ grants | ¬ g.Matches ptype fieldIndex.toNatClampNeg fieldValues}
  | .reload => grants

end Operation

namespace Casbin

/-- One operation without faults on model and committed database. -/
def perform (casbin : Casbin) (state : Model × Database) : Operation → Model × Database
  | .add ptype rule =>
      let after := casbin.update (.add (ptype.take 1) ptype rule) [] state.1 state.2
      (after.model, after.db)
  | .remove ptype rule =>
      let after := casbin.update (.remove (ptype.take 1) ptype rule) [] state.1 state.2
      (after.model, after.db)
  | .removeFiltered ptype fieldIndex fieldValues =>
      let after := casbin.update
        (.removeFiltered (ptype.take 1) ptype fieldIndex fieldValues) [] state.1 state.2
      (after.model, after.db)
  | .reload =>
      let after := call loadPolicy [] state.1 state.2
      (after.model, after.db)

def performAll (casbin : Casbin) (operations : List Operation) (state : Model × Database) :
    Model × Database :=
  operations.foldl casbin.perform state

end Casbin

/-- Model and table hold the same grants, and both names denote the table. -/
structure Mirrored (start : Model) (key : RelName) (state : Model × Database)
    (grants : Set Grant) (relation : Relation) : Prop where
  named : Serves state.2 plainRef key relation
  qualified : Serves state.2 polarityRef key relation
  table : TableHolds relation grants
  memory : MemoryHolds state.1 grants
  declares : ∀ s t, state.1.Declares s t ↔ start.Declares s t

section

variable {casbin : Casbin} {start : Model} {key : RelName} {model after : Model} {db : Database}
  {grants changed : Set Grant} {relation stored : Relation}

/-- An update of the model and the stored update of the same grants keep the mirror. -/
theorem Mirrored.update (mirrored : Mirrored start key (model, db) grants relation) {u : Update}
    (memory : casbin.change u model = (true, after))
    (database : call u.store [] after db = ⟨.ok (), after, db.put key stored, []⟩)
    (shape : stored.columns = tableColumns)
    (declares : ∀ s t, after.Declares s t ↔ model.Declares s t)
    (held : MemoryHolds after changed) (kept : TableHolds stored changed) :
    Mirrored start key
      ((casbin.update u [] model db).model, (casbin.update u [] model db).db) changed stored := by
  have done : casbin.update u [] model db = ⟨.ok true, after, db.put key stored, []⟩ := by
    simp only [Casbin.update, memory, database]
    rfl
  rw [done]
  exact {
    named := mirrored.named.put shape
    qualified := mirrored.qualified.put shape
    table := kept
    memory := held
    declares := fun s t => (declares s t).trans (mirrored.declares s t) }

/-- An update that leaves the model leaves everything. -/
theorem Mirrored.unchanged (mirrored : Mirrored start key (model, db) grants relation)
    {u : Update} (memory : casbin.change u model = (false, model)) :
    Mirrored start key
      ((casbin.update u [] model db).model, (casbin.update u [] model db).db) grants relation := by
  have done : casbin.update u [] model db = ⟨.ok false, model, db, []⟩ := by
    simp only [Casbin.update, memory]
  rw [done]
  exact mirrored

/-- The grant of an admissible ptype and rule. -/
def StorableRule.grant {model : Model} {ptype : Bytes} {rule : Rule}
    (storable : StorableRule rule) (declared : DeclaredType model ptype) : Grant :=
  ⟨ptype, rule, declared.plain, storable.plain, storable.short⟩

theorem perform_add (documented : casbin.Documented)
    (mirrored : Mirrored start key (model, db) grants relation) {ptype : Bytes} {rule : Rule}
    (declaredType : DeclaredType start ptype) (storable : StorableRule rule) :
    ∃ stored, Mirrored start key (casbin.perform (model, db) (.add ptype rule))
      (Operation.effect grants (.add ptype rule)) stored := by
  let g := storable.grant declaredType
  have declared : model.Declares g.sec g.ptype :=
    (mirrored.declares _ _).mpr declaredType.declared
  have effect : Operation.effect grants (.add ptype rule) = insert g grants := by
    ext h
    rw [Set.mem_insert_iff, Grant.ext_iff]
    rfl
  rw [effect]
  by_cases granted : g ∈ grants
  · rw [Set.insert_eq_of_mem granted]
    refine ⟨relation, mirrored.unchanged ?_⟩
    exact documented.add_present declared ((mirrored.memory.mem_iff g).mpr granted)
  · obtain ⟨memory, held⟩ := change_add documented mirrored.memory declared granted
    refine ⟨withRule relation g.ptype g.rule, mirrored.update memory ?_ ?_ ?_ held ?_⟩
    · exact call_addPolicy mirrored.named _ g.sec _ _
    · exact mirrored.named.shape
    · intro s t
      exact model.declares_adjust _ _ _ _ _
    · exact mirrored.table.insert mirrored.named.shape granted

theorem perform_remove (documented : casbin.Documented)
    (mirrored : Mirrored start key (model, db) grants relation) {ptype : Bytes} {rule : Rule}
    (declaredType : DeclaredType start ptype) (storable : StorableRule rule) :
    ∃ stored, Mirrored start key (casbin.perform (model, db) (.remove ptype rule))
      (Operation.effect grants (.remove ptype rule)) stored := by
  let g := storable.grant declaredType
  have declared : model.Declares g.sec g.ptype :=
    (mirrored.declares _ _).mpr declaredType.declared
  have effect : Operation.effect grants (.remove ptype rule) = {h ∈ grants | h ≠ g} := by
    ext h
    rw [Set.mem_ofPred_eq, ne_eq, Grant.ext_iff]
    rfl
  rw [effect]
  by_cases granted : g ∈ grants
  · obtain ⟨memory, held⟩ := change_remove documented mirrored.memory declared granted
    refine ⟨withoutRule relation g.ptype g.rule, mirrored.update memory ?_ ?_ ?_ held ?_⟩
    · exact call_removePolicy mirrored.qualified _ g.sec _ _
    · exact mirrored.named.shape
    · intro s t
      exact model.declares_adjust _ _ _ _ _
    · exact mirrored.table.erase mirrored.named.shape g
  · have same : {h ∈ grants | h ≠ g} = grants := by
      apply Set.sep_eq_self_iff_mem_true.mpr
      rintro h member rfl
      exact granted member
    rw [same]
    refine ⟨relation, mirrored.unchanged ?_⟩
    exact documented.remove_absent declared (mt (mirrored.memory.mem_iff g).mp granted)

theorem perform_removeFiltered (documented : casbin.Documented)
    (mirrored : Mirrored start key (model, db) grants relation) {ptype : Bytes}
    {fieldIndex : Int32} {fieldValues : List Bytes} (declaredType : DeclaredType start ptype)
    (storable : StorableFilter fieldIndex fieldValues) :
    ∃ stored, Mirrored start key
      (casbin.perform (model, db) (.removeFiltered ptype fieldIndex fieldValues))
      (Operation.effect grants (.removeFiltered ptype fieldIndex fieldValues)) stored := by
  have declared : model.Declares (ptype.take 1) ptype :=
    (mirrored.declares _ _).mpr declaredType.declared
  by_cases hit : ∃ g ∈ grants, g.Matches ptype fieldIndex.toNatClampNeg fieldValues
  · obtain ⟨after, memory, declares, held⟩ := change_removeFiltered documented mirrored.memory
      declared storable.nonneg storable.solid hit
    -- A value that some stored field equals is as free of zero bytes as that field.
    have clean : fieldValues.map cString = fieldValues := by
      obtain ⟨g, _, _, fields⟩ := hit
      refine map_cString_of_notMem fun value member => ?_
      obtain ⟨offset, found⟩ := List.getElem?_of_mem member
      have inRule := List.mem_of_getElem? (fields offset value found)
      exact (g.plainFields value inRule).clean
    refine ⟨withoutMatches relation ptype fieldIndex.toNatClampNeg fieldValues,
      mirrored.update memory ?_ ?_ declares held ?_⟩
    · exact call_removeFilteredPolicy mirrored.qualified _ (ptype.take 1) _ storable.nonneg
        storable.bound
    · exact mirrored.named.shape
    · exact mirrored.table.eraseMatches mirrored.named.shape
        (cString_of_notMem declaredType.plain.clean) clean storable.bound
  · have same : Operation.effect grants (.removeFiltered ptype fieldIndex fieldValues) =
        grants := by
      apply Set.sep_eq_self_iff_mem_true.mpr
      intro g member matched
      exact hit ⟨g, member, matched⟩
    rw [same]
    refine ⟨relation, mirrored.unchanged ?_⟩
    exact change_removeFiltered_miss documented mirrored.memory declared storable.nonneg
      storable.solid hit

/-- A load completes and builds the grants, whatever rules are in the model it loads into. -/
theorem Mirrored.load {state : Model × Database}
    (mirrored : Mirrored start key state grants relation) {fresh : Model}
    (declares : ∀ s t, fresh.Declares s t ↔ start.Declares s t) :
    ∃ loaded, call loadPolicy [] fresh state.2 = ⟨.ok (), loaded, state.2, []⟩ ∧
      MemoryHolds loaded grants ∧ ∀ s t, loaded.Declares s t ↔ start.Declares s t := by
  have declared : ∀ g ∈ grants, fresh.Declares g.sec g.ptype := fun g granted =>
    (declares _ _).mpr ((mirrored.declares _ _).mp (mirrored.memory.declared g granted))
  have loadable : Loadable fresh.clearPolicy (content relation) :=
    mirrored.table.loadable fun g granted =>
      (fresh.declares_clearPolicy _ _).mpr (declared g granted)
  obtain ⟨loaded, ok, spec⟩ := loadRows_spec loadable
  refine ⟨loaded, call_loadPolicy_ok mirrored.named ok, ?_, ?_⟩
  · exact mirrored.table.memoryHolds spec declared
  · intro s t
    rw [spec.declares, Model.declares_clearPolicy, declares]

/-- Step: every admissible operation keeps the mirror and has its meaning. -/
theorem perform_mirrored (documented : casbin.Documented) {state : Model × Database}
    (mirrored : Mirrored start key state grants relation) {operation : Operation}
    (admissible : operation.Admissible start) :
    ∃ stored, Mirrored start key (casbin.perform state operation) (operation.effect grants)
      stored := by
  cases operation with
  | add ptype rule => exact perform_add documented mirrored admissible.1 admissible.2
  | remove ptype rule => exact perform_remove documented mirrored admissible.1 admissible.2
  | removeFiltered ptype fieldIndex fieldValues =>
      exact perform_removeFiltered documented mirrored admissible.1 admissible.2
  | reload =>
      obtain ⟨loaded, completes, held, declares⟩ := mirrored.load mirrored.declares
      refine ⟨relation, ?_⟩
      simp only [Casbin.perform, completes]
      exact {
        named := mirrored.named
        qualified := mirrored.qualified
        table := mirrored.table
        memory := held
        declares := declares }

/-- Run: so does every list of admissible operations. -/
theorem performAll_mirrored (documented : casbin.Documented) {operations : List Operation}
    (admissible : ∀ operation ∈ operations, operation.Admissible start)
    {state : Model × Database} (mirrored : Mirrored start key state grants relation) :
    ∃ stored, Mirrored start key (casbin.performAll operations state)
      (operations.foldl Operation.effect grants) stored := by
  induction operations generalizing state grants relation with
  | nil => exact ⟨relation, mirrored⟩
  | cons operation more ih =>
      obtain ⟨first, rest⟩ := List.forall_mem_cons.mp admissible
      obtain ⟨stored, next⟩ := perform_mirrored documented mirrored first
      exact ih rest next

/-- A table of storable rows without duplicates and the model just loaded from it. -/
theorem mirrored_of_loaded (named : Serves db plainRef key relation)
    (qualified : db.resolve polarityRef = some key) (distinct : (content relation).Nodup)
    (written : ∀ cells ∈ content relation, ∃ g : Grant, g.cells = cells)
    {loaded : Model} (loads : call loadPolicy [] start db = ⟨.ok (), loaded, db, []⟩) :
    Mirrored start key (loaded, db) {g | g.cells ∈ content relation} relation := by
  have table : TableHolds relation {g | g.cells ∈ content relation} := by
    refine ⟨distinct, fun cells => ⟨fun member => ?_, ?_⟩⟩
    · obtain ⟨g, rfl⟩ := written cells member
      exact ⟨g, member, rfl⟩
    · rintro ⟨g, member, rfl⟩
      exact member
  have ok := loadRows_of_call named loads
  have spec := loadedFrom_of_ok ok
  have declared : ∀ g ∈ {g : Grant | g.cells ∈ content relation}, start.Declares g.sec g.ptype := by
    intro g member
    obtain ⟨key, rule, reads, known⟩ := loadable_of_loadRows ok g.cells member
    rw [Grant.entryOf_cells, Option.some.injEq, Prod.mk.injEq] at reads
    obtain ⟨rfl, rfl⟩ := reads
    exact (start.declares_clearPolicy _ _).mp known
  exact {
    named := named
    qualified := ⟨qualified, named.stored, named.shape⟩
    table := table
    memory := table.memoryHolds spec declared
    declares := fun s t => (spec.declares s t).trans (start.declares_clearPolicy s t) }

/-- After every prefix of admissible operations the table loads as exactly the rules held
in memory, into any model with the same ptypes, whatever that model held before. -/
theorem storage_mirrors_memory (documented : casbin.Documented)
    (named : Serves db plainRef key relation) (qualified : db.resolve polarityRef = some key)
    (distinct : (content relation).Nodup)
    (written : ∀ cells ∈ content relation, ∃ g : Grant, g.cells = cells)
    {loaded : Model} (loads : call loadPolicy [] start db = ⟨.ok (), loaded, db, []⟩)
    {operations done : List Operation}
    (admissible : ∀ operation ∈ operations, operation.Admissible start)
    (upTo : done <+: operations) :
    let state := casbin.performAll done (loaded, db)
    (∀ s t, state.1.Declares s t ↔ start.Declares s t) ∧
      ∀ fresh : Model, (∀ s t, fresh.Declares s t ↔ start.Declares s t) →
        let reloaded := call loadPolicy [] fresh state.2
        reloaded.result = .ok () ∧
          ∀ s t, (reloaded.model.policy s t).Perm (state.1.policy s t) := by
  intro state
  have early : ∀ operation ∈ done, operation.Admissible start := fun operation member =>
    admissible operation (upTo.subset member)
  have begun := mirrored_of_loaded named qualified distinct written loads
  obtain ⟨stored, mirrored⟩ := performAll_mirrored documented early begun
  refine ⟨mirrored.declares, ?_⟩
  intro fresh declares reloaded
  obtain ⟨again, completes, held, _⟩ := mirrored.load declares
  have ended : reloaded = ⟨.ok (), again, state.2, []⟩ := completes
  rw [ended]
  exact ⟨rfl, fun s t => held.perm mirrored.memory s t⟩

/-- One grant in the table, a second one added, the first one removed. -/
theorem storage_mirrors_memory_singleTable :
    let alice : Rule := [ascii "alice", ascii "data1", ascii "read"]
    let bob : Rule := [ascii "bob", ascii "data1", ascii "read"]
    let db := singleTable (ascii "polarity")
      (withRule (Relation.empty tableColumns) (ascii "p") alice)
    let loaded := rbacModel [alice] []
    let state := Casbin.reference.performAll [.add (ascii "p") bob, .remove (ascii "p") alice]
      (loaded, db)
    let reloaded := call loadPolicy [] (rbacModel [] []) state.2
    reloaded.result = .ok () ∧ ∀ s t, (reloaded.model.policy s t).Perm (state.1.policy s t) := by
  intro alice bob db loaded state
  have declaredType : DeclaredType (rbacModel [] []) (ascii "p") := ⟨by decide, by decide⟩
  have storableAlice : StorableRule alice := by decide
  have storableBob : StorableRule bob := by decide
  have one : content (withRule (Relation.empty tableColumns) (ascii "p") alice) =
      [ruleCells (ascii "p") alice] := rfl
  have named : Serves db plainRef (ascii "polarity", tableName) _ := serves_singleTable _ rfl
  have loads : call loadPolicy [] (rbacModel [] []) db = ⟨.ok (), loaded, db, []⟩ :=
    call_loadPolicy_ok named rfl
  refine (storage_mirrors_memory Casbin.reference_documented named
    (serves_polarity rfl).resolved (one ▸ List.nodup_singleton _) ?_ loads ?_
    (List.prefix_refl _)).2 (rbacModel [] []) fun _ _ => Iff.rfl
  · intro cells member
    rw [one, List.mem_singleton] at member
    exact ⟨storableAlice.grant declaredType, member.symm⟩
  · intro operation member
    rcases List.mem_pair.mp member with rfl | rfl
    · exact ⟨declaredType, storableBob⟩
    · exact ⟨declaredType, storableAlice⟩

end

end Casbinex.Adapter
