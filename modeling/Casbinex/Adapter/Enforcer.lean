import Casbinex.Adapter.Grants

/-!
# Updates of the enforcer

casbin changes its model first and then hands the update to the adapter.  The
library is not part of this repository: it is a parameter here, and `Documented`
lists what the adapter relies on.
-/

namespace Casbinex.Adapter

open Casbinex.Sql

/-- A call of casbin that changes the rules of one assertion. -/
inductive Update where
  | add (sec ptype : Bytes) (rule : Rule)
  | remove (sec ptype : Bytes) (rule : Rule)
  | removeFiltered (sec ptype : Bytes) (fieldIndex : Int32) (fieldValues : List Bytes)
  deriving DecidableEq

/-- The adapter operation that stores an update. -/
def Update.store : Update → AdapterProg Unit
  | .add sec ptype rule => addPolicy sec ptype rule
  | .remove sec ptype rule => removePolicy sec ptype rule
  | .removeFiltered sec ptype fieldIndex fieldValues =>
      removeFilteredPolicy sec ptype fieldIndex fieldValues

namespace Update

def sec : Update → Bytes
  | .add sec _ _ => sec
  | .remove sec _ _ => sec
  | .removeFiltered sec _ _ _ => sec

def ptype : Update → Bytes
  | .add _ ptype _ => ptype
  | .remove _ ptype _ => ptype
  | .removeFiltered _ ptype _ _ => ptype

/-- The name under which the adapter stores the update. -/
def ref : Update → TableRef
  | .add _ _ _ => plainRef
  | .remove _ _ _ => polarityRef
  | .removeFiltered _ _ _ _ => polarityRef

/-- The table after the update. -/
def written : Update → Relation → Relation
  | .add _ ptype rule, relation => withRule relation ptype rule
  | .remove _ ptype rule, relation => withoutRule relation ptype rule
  | .removeFiltered _ ptype fieldIndex fieldValues, relation =>
      withoutMatches relation ptype fieldIndex.toNatClampNeg fieldValues

/-- A filter addresses columns of the table. -/
def Addressed : Update → Prop
  | .removeFiltered _ _ fieldIndex fieldValues =>
      0 ≤ fieldIndex ∧ fieldIndex.toNatClampNeg + fieldValues.length ≤ 7
  | _ => True

theorem call_store {u : Update} (addressed : u.Addressed) {db : Database} {key : RelName}
    {relation : Relation} (serves : Serves db u.ref key relation) (model : Model) :
    call u.store [] model db = ⟨.ok (), model, db.put key (u.written relation), []⟩ := by
  cases u with
  | add sec ptype rule => exact call_addPolicy serves model sec ptype rule
  | remove sec ptype rule => exact call_removePolicy serves model sec ptype rule
  | removeFiltered sec ptype fieldIndex fieldValues =>
      exact call_removeFilteredPolicy serves model sec ptype addressed.1 addressed.2

end Update

/-- Storing an update does not touch the model, however it ends. -/
theorem Update.call_model (u : Update) (faults : List Bool) (model : Model) (db : Database) :
    (call u.store faults model db).model = model := by
  cases u with
  | add sec ptype rule =>
      rw [store, addPolicy_eq]
      exact call_transaction_model (within_buildInsert ptype rule) faults model db
  | remove sec ptype rule =>
      rw [store, removePolicy_eq]
      exact call_transaction_model (within_buildMatch ptype rule) faults model db
  | removeFiltered sec ptype fieldIndex fieldValues =>
      rw [store, removeFilteredPolicy_eq]
      exact call_transaction_model (within_buildFilter ptype fieldIndex fieldValues) faults model db

/-- Wherever storing an update throws, the committed database is untouched. -/
theorem Update.call_of_error {u : Update} {faults : List Bool} {model : Model} {db : Database}
    {failure : Failure} (failed : (call u.store faults model db).result = .error failure) :
    (call u.store faults model db).db = db := by
  cases u with
  | add sec ptype rule =>
      rw [store, addPolicy_eq] at failed ⊢
      exact call_transaction_of_error (within_buildInsert ptype rule) failed
  | remove sec ptype rule =>
      rw [store, removePolicy_eq] at failed ⊢
      exact call_transaction_of_error (within_buildMatch ptype rule) failed
  | removeFiltered sec ptype fieldIndex fieldValues =>
      rw [store, removeFilteredPolicy_eq] at failed ⊢
      exact call_transaction_of_error (within_buildFilter ptype fieldIndex fieldValues) failed

/-- casbin's filter in memory: from field `first` on the rule has the given values,
an empty value standing for any field. -/
def filterHits : Nat → List Bytes → Rule → Bool
  | _, [], _ => true
  | first, value :: more, rule =>
      (value.isEmpty || rule[first]? == some value) && filterHits (first + 1) more rule

/-- The model after an update that takes effect. -/
def Update.revise : Update → Model → Model
  | .add sec ptype rule, model => model.adjust sec ptype (· ++ [rule])
  | .remove sec ptype rule, model => model.adjust sec ptype (·.erase rule)
  | .removeFiltered sec ptype fieldIndex fieldValues, model =>
      model.adjust sec ptype
        (·.filter fun rule => !filterHits fieldIndex.toNatClampNeg fieldValues rule)

structure Casbin where
  /-- Whether an update changes the model, and the model after it. -/
  change : Update → Model → Bool × Model

namespace Casbin

/-- What casbin documents of the updates of a declared ptype. -/
structure Documented (casbin : Casbin) : Prop where
  add_absent : ∀ {model : Model} {sec ptype : Bytes} {rule : Rule},
    model.Declares sec ptype → rule ∉ model.policy sec ptype →
    casbin.change (.add sec ptype rule) model =
      (true, model.adjust sec ptype (· ++ [rule]))
  add_present : ∀ {model : Model} {sec ptype : Bytes} {rule : Rule},
    model.Declares sec ptype → rule ∈ model.policy sec ptype →
    casbin.change (.add sec ptype rule) model = (false, model)
  remove_present : ∀ {model : Model} {sec ptype : Bytes} {rule : Rule},
    model.Declares sec ptype → rule ∈ model.policy sec ptype →
    casbin.change (.remove sec ptype rule) model =
      (true, model.adjust sec ptype (·.erase rule))
  remove_absent : ∀ {model : Model} {sec ptype : Bytes} {rule : Rule},
    model.Declares sec ptype → rule ∉ model.policy sec ptype →
    casbin.change (.remove sec ptype rule) model = (false, model)
  removeFiltered_hit : ∀ {model : Model} {sec ptype : Bytes} {fieldIndex : Int32}
    {fieldValues : List Bytes}, model.Declares sec ptype → 0 ≤ fieldIndex →
    (∃ rule ∈ model.policy sec ptype,
      filterHits fieldIndex.toNatClampNeg fieldValues rule = true) →
    casbin.change (.removeFiltered sec ptype fieldIndex fieldValues) model =
      (true, model.adjust sec ptype
        (·.filter fun rule => !filterHits fieldIndex.toNatClampNeg fieldValues rule))
  removeFiltered_miss : ∀ {model : Model} {sec ptype : Bytes} {fieldIndex : Int32}
    {fieldValues : List Bytes}, model.Declares sec ptype → 0 ≤ fieldIndex →
    (∀ rule ∈ model.policy sec ptype,
      filterHits fieldIndex.toNatClampNeg fieldValues rule = false) →
    casbin.change (.removeFiltered sec ptype fieldIndex fieldValues) model = (false, model)

/-- An update of a declared ptype that changes the model takes effect on it. -/
theorem Documented.revise_of_change {casbin : Casbin} (documented : casbin.Documented) {u : Update}
    {model after : Model} (declared : model.Declares u.sec u.ptype) (addressed : u.Addressed)
    (changes : casbin.change u model = (true, after)) : after = u.revise model := by
  cases u with
  | add sec ptype rule =>
      change model.Declares sec ptype at declared
      by_cases present : rule ∈ model.policy sec ptype
      · rw [documented.add_present declared present] at changes
        cases changes
      · rw [documented.add_absent declared present] at changes
        cases changes
        rfl
  | remove sec ptype rule =>
      change model.Declares sec ptype at declared
      by_cases present : rule ∈ model.policy sec ptype
      · rw [documented.remove_present declared present] at changes
        cases changes
        rfl
      · rw [documented.remove_absent declared present] at changes
        cases changes
  | removeFiltered sec ptype fieldIndex fieldValues =>
      change model.Declares sec ptype at declared
      by_cases hit : ∃ rule ∈ model.policy sec ptype,
          filterHits fieldIndex.toNatClampNeg fieldValues rule = true
      · rw [documented.removeFiltered_hit declared addressed.1 hit] at changes
        cases changes
        rfl
      · have miss : ∀ rule ∈ model.policy sec ptype,
            filterHits fieldIndex.toNatClampNeg fieldValues rule = false := by
          intro rule member
          rw [← Bool.not_eq_true]
          exact fun hits => hit ⟨rule, member, hits⟩
        rw [documented.removeFiltered_miss declared addressed.1 miss] at changes
        cases changes

/-- An implementation that does what is documented. -/
def reference : Casbin where
  change
    | .add sec ptype rule, model =>
        if rule ∈ model.policy sec ptype then (false, model)
        else (true, model.adjust sec ptype (· ++ [rule]))
    | .remove sec ptype rule, model =>
        if rule ∈ model.policy sec ptype then (true, model.adjust sec ptype (·.erase rule))
        else (false, model)
    | .removeFiltered sec ptype fieldIndex fieldValues, model =>
        if (model.policy sec ptype).any (filterHits fieldIndex.toNatClampNeg fieldValues) then
          (true, model.adjust sec ptype
            (·.filter fun rule => !filterHits fieldIndex.toNatClampNeg fieldValues rule))
        else (false, model)

theorem reference_documented : reference.Documented where
  add_absent _ absent := if_neg absent
  add_present _ present := if_pos present
  remove_present _ present := if_pos present
  remove_absent _ absent := if_neg absent
  removeFiltered_hit _ _ hit := if_pos (List.any_eq_true.mpr hit)
  removeFiltered_miss _ _ miss := by
    apply if_neg
    rw [List.any_eq_true]
    rintro ⟨rule, member, hit⟩
    rw [miss rule member] at hit
    cases hit

/-- What an update leaves: casbin's answer or the adapter's exception, the model,
the committed database and the rest of the fault schedule. -/
structure Updated where
  result : Except Failure Bool
  model : Model
  db : Database
  faults : List Bool

/-- One update: the model first, then the adapter if the model changed. -/
def update (casbin : Casbin) (u : Update) (faults : List Bool) (model : Model)
    (db : Database) : Updated :=
  match casbin.change u model with
  | (false, model) => ⟨.ok false, model, db, faults⟩
  | (true, model) =>
      let outcome := call u.store faults model db
      ⟨outcome.result.map fun _ => true, outcome.model, outcome.db, outcome.faults⟩

/-- The model keeps what it has, or the adapter throws and the database stays, or the
update is stored. -/
theorem update_cases (casbin : Casbin) (u : Update) (faults : List Bool) (model : Model)
    (db : Database) :
    ((casbin.change u model).1 = false ∧
      casbin.update u faults model db = ⟨.ok false, (casbin.change u model).2, db, faults⟩) ∨
    ((casbin.change u model).1 = true ∧ ∃ failure later,
      casbin.update u faults model db = ⟨.error failure, (casbin.change u model).2, db, later⟩) ∨
    ((casbin.change u model).1 = true ∧
      (call u.store [] (casbin.change u model).2 db).result = .ok () ∧ ∃ later,
        casbin.update u faults model db = ⟨.ok true, (casbin.change u model).2,
          (call u.store [] (casbin.change u model).2 db).db, later⟩) := by
  unfold update
  rcases casbin.change u model with ⟨passes, after⟩
  cases passes with
  | false => exact Or.inl ⟨rfl, rfl⟩
  | true =>
      right
      have model := u.call_model faults after db
      cases ended : (call u.store faults after db).result with
      | error failure =>
          refine Or.inl ⟨rfl, failure, (call u.store faults after db).faults, ?_⟩
          simp [Update.call_of_error ended, model, Except.map, ended]
      | ok done =>
          have whole := call_nil_of_ok ended
          refine Or.inr ⟨rfl, by rw [whole], (call u.store faults after db).faults, ?_⟩
          simp [whole, model, Except.map, ended]

end Casbin

/-! ## Updates of the model as updates of the grants -/

theorem filterHits_iff (values : List Bytes) (first : Nat) (rule : Rule) :
    filterHits first values rule = true ↔
      ∀ offset value, values[offset]? = some value →
        value = [] ∨ rule[first + offset]? = some value := by
  induction values generalizing first with
  | nil => simp [filterHits]
  | cons head more ih =>
      rw [filterHits, Bool.and_eq_true, ih]
      constructor
      · rintro ⟨now, later⟩ offset value found
        cases offset with
        | zero =>
            cases found
            simpa using now
        | succ offset =>
            have rest := later offset value found
            rwa [Nat.add_assoc, Nat.add_comm 1 offset] at rest
      · intro all
        constructor
        · simpa using all 0 head rfl
        · intro offset value found
          rw [Nat.add_assoc, Nat.add_comm 1 offset]
          exact all (offset + 1) value found

/-- On non-empty values casbin's filter asks what the stored filter asks. -/
theorem Grant.matches_iff_hits (g : Grant) {first : Nat} {values : List Bytes}
    (solid : ∀ value ∈ values, value ≠ []) :
    g.Matches g.ptype first values ↔ filterHits first values g.rule = true := by
  rw [filterHits_iff]
  constructor
  · intro same offset value found
    exact Or.inr (same.2 offset value found)
  · intro hits
    refine ⟨rfl, fun offset value found => ?_⟩
    rcases hits offset value found with empty | same
    · exact absurd empty (solid value (List.mem_of_getElem? found))
    · exact same

section

variable {casbin : Casbin} {model : Model} {grants : Set Grant} {g : Grant}

theorem change_add (documented : casbin.Documented) (holds : MemoryHolds model grants)
    (declared : model.Declares g.sec g.ptype) (fresh : g ∉ grants) :
    casbin.change (.add g.sec g.ptype g.rule) model =
        (true, model.adjust g.sec g.ptype (· ++ [g.rule])) ∧
      MemoryHolds (model.adjust g.sec g.ptype (· ++ [g.rule])) (insert g grants) :=
  ⟨documented.add_absent declared (mt (holds.mem_iff g).mp fresh), holds.insert declared fresh⟩

theorem change_remove (documented : casbin.Documented) (holds : MemoryHolds model grants)
    (declared : model.Declares g.sec g.ptype) (granted : g ∈ grants) :
    casbin.change (.remove g.sec g.ptype g.rule) model =
        (true, model.adjust g.sec g.ptype (·.erase g.rule)) ∧
      MemoryHolds (model.adjust g.sec g.ptype (·.erase g.rule)) {h ∈ grants | h ≠ g} := by
  refine ⟨documented.remove_present declared ((holds.mem_iff g).mpr granted), ?_⟩
  apply holds.filter declared ((holds.once _ _).erase_eq_filter g.rule)
  · intro h _ sameType
    rw [bne_iff_ne, ne_eq, ne_eq, Grant.ext_iff, not_and]
    constructor
    · intro other _
      exact other
    · intro other
      exact other sameType
  · rintro h other rfl
    exact other rfl

theorem change_removeFiltered (documented : casbin.Documented) (holds : MemoryHolds model grants)
    {ptype : Bytes} (declared : model.Declares (ptype.take 1) ptype) {fieldIndex : Int32}
    (nonneg : 0 ≤ fieldIndex) {values : List Bytes} (solid : ∀ value ∈ values, value ≠ [])
    (hit : ∃ g ∈ grants, g.Matches ptype fieldIndex.toNatClampNeg values) :
    ∃ after, casbin.change (.removeFiltered (ptype.take 1) ptype fieldIndex values) model =
        (true, after) ∧ (∀ s t, after.Declares s t ↔ model.Declares s t) ∧
      MemoryHolds after {g ∈ grants | ¬ g.Matches ptype fieldIndex.toNatClampNeg values} := by
  refine ⟨_, documented.removeFiltered_hit declared nonneg ?_,
    fun s t => model.declares_adjust _ _ _ _ _, ?_⟩
  · obtain ⟨g, granted, same⟩ := hit
    have own := same.1
    subst own
    exact ⟨g.rule, (holds.mem_iff g).mpr granted, (g.matches_iff_hits solid).mp same⟩
  · apply holds.filter declared rfl
    · rintro h _ rfl
      rw [h.matches_iff_hits solid, Bool.not_eq_true', Bool.not_eq_true]
    · intro h other same
      exact other same.1

theorem change_removeFiltered_miss (documented : casbin.Documented)
    (holds : MemoryHolds model grants) {ptype : Bytes}
    (declared : model.Declares (ptype.take 1) ptype) {fieldIndex : Int32}
    (nonneg : 0 ≤ fieldIndex) {values : List Bytes} (solid : ∀ value ∈ values, value ≠ [])
    (miss : ¬ ∃ g ∈ grants, g.Matches ptype fieldIndex.toNatClampNeg values) :
    casbin.change (.removeFiltered (ptype.take 1) ptype fieldIndex values) model =
      (false, model) := by
  apply documented.removeFiltered_miss declared nonneg
  intro rule member
  obtain ⟨g, granted, _, rfl, rfl⟩ := (holds.rules _ _ _).mp member
  rw [← Bool.not_eq_true, ← g.matches_iff_hits solid]
  intro same
  exact miss ⟨g, granted, same⟩

end

end Casbinex.Adapter
