import Casbinex.Nif.Backend

/-!
# Updates that fail

An adapter that throws leaves the table alone, and the entry point turns the exception
into a reply; nothing takes the change of the model back.  A call of the adapter whose
behaviour is undefined has no reply at all.
-/

namespace Casbinex.Nif

open Casbinex.Program
open Casbinex.Program.Prog
open Casbinex.Sql
open Casbinex.Adapter (Model Rule Update Casbin Crash Failure Serves call)

/-! ## What updates leave -/

/-- An update that changed the model and was stored under the schedule. -/
structure Done (casbin : Casbin) (u : Update) (faults : List Bool) (before : Model × Database)
    (later : List Bool) (after : Model × Database) : Prop where
  memory : casbin.change u before.1 = (true, after.1)
  storage : call u.store faults after.1 before.2 = ⟨.ok (), after.1, after.2, later⟩
  revised : before.1.Declares u.sec u.ptype → u.Addressed → after.1 = u.revise before.1
  written : u.Addressed → ∀ key relation, Serves before.2 u.ref key relation →
    after.2 = before.2.put key (u.written relation)

/-- Updates that were all carried out in turn under the schedule; the answer is whether any
took effect. -/
inductive Performed (casbin : Casbin) : List Update → List Bool → Model × Database → Bool →
    List Bool → Model × Database → Prop
  | nil (faults : List Bool) (state : Model × Database) :
      Performed casbin [] faults state false faults state
  | idle {u : Update} {more : List Update} {faults later : List Bool}
      {state last : Model × Database} {answer : Bool}
      (same : casbin.change u state.1 = (false, state.1))
      (rest : Performed casbin more faults state answer later last) :
      Performed casbin (u :: more) faults state answer later last
  | done {u : Update} {more : List Update} {faults left later : List Bool}
      {state middle last : Model × Database} {answer : Bool}
      (done : Done casbin u faults state left middle)
      (rest : Performed casbin more left middle answer later last) :
      Performed casbin (u :: more) faults state true later last

/-- An update that changed the model, and that the adapter failed to store under the
schedule: the model keeps it and the table does not have it. -/
structure Failed (casbin : Casbin) (u : Update) (faults : List Bool) (before : Model × Database)
    (failure : Failure) (after : Model × Database) : Prop where
  memory : casbin.change u before.1 = (true, after.1)
  storage : (call u.store faults after.1 before.2).result = .error failure
  revised : before.1.Declares u.sec u.ptype → u.Addressed → after.1 = u.revise before.1
  untouched : after.2 = before.2

/-- Updates of which one failed, after those before it were carried out; those behind it
were not begun. -/
def BrokenOff (casbin : Casbin) (us : List Update) (faults : List Bool) (state : Model × Database)
    (failure : Failure) (last : Model × Database) : Prop :=
  ∃ early u late answer left middle, us = early ++ u :: late ∧
    Performed casbin early faults state answer left middle ∧
    Failed casbin u left middle failure last

/-- Where nothing took effect, nothing has changed. -/
theorem Performed.eq_of_false {casbin : Casbin} {us : List Update} {faults later : List Bool}
    {state last : Model × Database}
    (performed : Performed casbin us faults state false later last) : last = state := by
  generalize none : false = answer at performed
  induction performed with
  | nil faults state => rfl
  | idle same rest ih => exact ih none
  | done done rest ih => cases none

section

variable {casbin : Casbin} {u : Update} {more : List Update} {faults left : List Bool}
  {state middle last : Model × Database} {failure : Failure}

theorem BrokenOff.idle (same : casbin.change u state.1 = (false, state.1))
    (broken : BrokenOff casbin more faults state failure last) :
    BrokenOff casbin (u :: more) faults state failure last := by
  obtain ⟨early, v, late, answer, rest, between, rfl, performed, failed⟩ := broken
  exact ⟨u :: early, v, late, answer, rest, between, rfl, .idle same performed, failed⟩

theorem BrokenOff.done (done : Done casbin u faults state left middle)
    (broken : BrokenOff casbin more left middle failure last) :
    BrokenOff casbin (u :: more) faults state failure last := by
  obtain ⟨early, v, late, answer, rest, between, rfl, performed, failed⟩ := broken
  exact ⟨u :: early, v, late, true, rest, between, rfl, .done done performed, failed⟩

/-- Where the only update failed, no update came before it. -/
theorem BrokenOff.untouched (broken : BrokenOff casbin [u] faults state failure last) :
    last.2 = state.2 := by
  obtain ⟨early, v, late, answer, rest, between, split, performed, failed⟩ := broken
  cases early with
  | nil =>
      cases performed
      exact failed.untouched
  | cons first others =>
      have short := congrArg List.length split
      simp at short

end

section

variable {library : Library}

/-- Step: one update changes nothing, is done, or fails. -/
theorem update_cases (documented : library.Documented) (u : Update) (faults : List Bool)
    (model : Model) (db : Database) :
    (library.change u model = (false, model) ∧
      library.update u faults model db = ⟨.ok false, model, db, faults⟩) ∨
    (∃ after later, library.update u faults model db = ⟨.ok true, after.1, after.2, later⟩ ∧
      Done library.toCasbin u faults (model, db) later after) ∨
    ∃ failure after later,
      library.update u faults model db = ⟨.error failure, after.1, after.2, later⟩ ∧
        Failed library.toCasbin u faults (model, db) failure after := by
  unfold Casbin.update
  rcases changes : library.change u model with ⟨changed, after⟩
  cases changed with
  | false =>
      obtain rfl := documented.unchanged changes
      exact Or.inl ⟨rfl, rfl⟩
  | true =>
      right
      have revised : model.Declares u.sec u.ptype → u.Addressed → after = u.revise model :=
        fun declared addressed => documented.casbin.revise_of_change declared addressed changes
      have kept := u.call_model faults after db
      rcases ended : call u.store faults after db with ⟨result, remains, changed, later⟩
      rw [ended] at kept
      obtain rfl : after = remains := kept.symm
      cases result with
      | ok value =>
          refine Or.inl ⟨(after, changed), later, ?_, changes, ended, revised, ?_⟩
          · simp only [ended]
            rfl
          intro addressed key relation serves
          have stored := Adapter.call_nil_of_ok (congrArg Adapter.Outcome.result ended)
          rw [ended, Adapter.Update.call_store addressed serves] at stored
          exact (congrArg Adapter.Outcome.db stored).symm
      | error failure =>
          have failed := congrArg Adapter.Outcome.result ended
          have same := Adapter.Update.call_of_error failed
          rw [ended] at same
          refine Or.inr ⟨failure, (after, changed), later, ?_, changes, failed, revised, same⟩
          simp only [ended]
          rfl

/-- Run: the updates are all performed, or broken off where one of them fails. -/
theorem updateAll_cases (documented : library.Documented) (us : List Update)
    (faults : List Bool) (model : Model) (db : Database) :
    (∃ answer last later, updateAll library.toCasbin us faults model db =
        ⟨.ok answer, last.1, last.2, later⟩ ∧
      Performed library.toCasbin us faults (model, db) answer later last) ∨
    ∃ failure last later, updateAll library.toCasbin us faults model db =
        ⟨.error failure, last.1, last.2, later⟩ ∧
      BrokenOff library.toCasbin us faults (model, db) failure last := by
  induction us generalizing faults model db with
  | nil => exact Or.inl ⟨false, (model, db), faults, rfl, .nil _ _⟩
  | cons u more ih =>
      rcases update_cases documented u faults model db with
        ⟨same, left⟩ | ⟨middle, later, left, done⟩ | ⟨failure, after, later, left, failed⟩
      · rcases ih faults model db with
          ⟨answer, last, rem, ended, performed⟩ | ⟨failure, last, rem, ended, broken⟩
        · refine Or.inl ⟨answer, last, rem, ?_, .idle same performed⟩
          simp only [updateAll, left, ended]
          rfl
        · refine Or.inr ⟨failure, last, rem, ?_, broken.idle same⟩
          simp only [updateAll, left, ended]
          rfl
      · rcases ih later middle.1 middle.2 with
          ⟨answer, last, rem, ended, performed⟩ | ⟨failure, last, rem, ended, broken⟩
        · refine Or.inl ⟨true, last, rem, ?_, .done done performed⟩
          simp only [updateAll, left, ended]
          rfl
        · refine Or.inr ⟨failure, last, rem, ?_, broken.done done⟩
          simp only [updateAll, left, ended]
          rfl
      · refine Or.inr ⟨failure, after, later, ?_, [], u, more, false, faults, (model, db), rfl,
          .nil _ _, failed⟩
        simp only [updateAll, left]

/-- The mutations that issue one update. -/
def Mutation.single : Mutation → Bool
  | .deleteRole _ => false
  | .addRolesForUser _ _ => false
  | _ => true

theorem updates_of_single (documented : library.Documented) {mutation : Mutation}
    (single : mutation.single = true) : ∃ u, library.updates mutation = [u] := by
  cases mutation with
  | addPolicy rule => exact ⟨_, documented.addPolicy rule⟩
  | removePolicy rule => exact ⟨_, documented.removePolicy rule⟩
  | addGroupingPolicy rule => exact ⟨_, documented.addGroupingPolicy rule⟩
  | deleteRole role => cases single
  | addRoleForUser user role => exact ⟨_, documented.addRoleForUser user role⟩
  | addRolesForUser user roles => cases single
  | deleteRolesForUser user => exact ⟨_, documented.deleteRolesForUser user⟩
  | deleteRoleForUser user role => exact ⟨_, documented.deleteRoleForUser user role⟩
  | removeFilteredPolicy fieldIndex fieldValues =>
      exact ⟨_, documented.removeFilteredPolicy fieldIndex fieldValues⟩

/-! ## Undefined behaviour -/

/-- The filters that may leave their vector: one whose index lies further below zero than it
has values, or one with more values than an `int` counts. -/
def Strays (fieldIndex : Int32) (fieldValues : List Bytes) : Prop :=
  fieldValues.length + fieldIndex.toInt < 0 ∨ 2 ^ 31 ≤ fieldValues.length

/-- Storing an update is of defined behaviour, unless it is a filter that strays. -/
theorem strays_of_crash {u : Update} {faults : List Bool} {model : Model} {db : Database}
    {crash : Crash} (crashed : (call u.store faults model db).result = .error (.crash crash)) :
    ∃ sec ptype fieldIndex fieldValues,
      u = .removeFiltered sec ptype fieldIndex fieldValues ∧ Strays fieldIndex fieldValues := by
  cases u with
  | add sec ptype rule =>
      rw [Update.store, Adapter.addPolicy_eq] at crashed
      exact absurd crashed (Adapter.not_crash_of_transaction (Adapter.within_buildInsert ptype rule)
        (Adapter.defined_buildInsert ptype rule) faults model db crash)
  | remove sec ptype rule =>
      rw [Update.store, Adapter.removePolicy_eq] at crashed
      exact absurd crashed (Adapter.not_crash_of_transaction (Adapter.within_buildMatch ptype rule)
        (Adapter.defined_buildMatch ptype rule) faults model db crash)
  | removeFiltered sec ptype fieldIndex fieldValues =>
      refine ⟨sec, ptype, fieldIndex, fieldValues, rfl, ?_⟩
      by_contra within
      obtain ⟨low, short⟩ := not_or.mp within
      have least := fieldIndex.le_toInt
      have half := fieldIndex.toNatClampNeg_lt
      have sound : 0 ≤ fieldIndex ∧ fieldIndex.toNatClampNeg + fieldValues.length < 2 ^ 32 ∨
          (fieldValues.length + fieldIndex.toInt) % 2 ^ 64 ≤ fieldIndex.toInt % 2 ^ 32 := by
        by_cases nonneg : 0 ≤ fieldIndex
        · exact Or.inl ⟨nonneg, by omega⟩
        · rw [Int32.le_iff_toInt_le, Int.not_le] at nonneg
          change fieldIndex.toInt < 0 at nonneg
          exact Or.inr (by omega)
      rw [Update.store, Adapter.removeFilteredPolicy_eq] at crashed
      exact absurd crashed (Adapter.not_crash_of_transaction
        (Adapter.within_buildFilter ptype fieldIndex fieldValues)
        (Adapter.defined_buildFilter sound ptype) faults model db crash)

/-- The only mutation with an update that strays is a filter handed in by the caller. -/
theorem mutation_of_strays (documented : library.Documented) {mutation : Mutation}
    {sec ptype : Bytes} {fieldIndex : Int32} {fieldValues : List Bytes}
    (issued : .removeFiltered sec ptype fieldIndex fieldValues ∈ library.updates mutation)
    (strays : Strays fieldIndex fieldValues) :
    mutation = .removeFilteredPolicy fieldIndex fieldValues := by
  have short (index : Int32) (nonneg : 0 ≤ index.toInt) (value : Bytes) :
      ¬ Strays index [value] := by
    simp only [Strays, List.length_singleton]
    omega
  cases mutation with
  | addPolicy rule => simp [documented.addPolicy] at issued
  | removePolicy rule => simp [documented.removePolicy] at issued
  | addGroupingPolicy rule => simp [documented.addGroupingPolicy] at issued
  | deleteRole role =>
      simp only [documented.deleteRole, List.mem_cons, List.not_mem_nil, or_false] at issued
      rcases issued with same | same
      · cases same
        exact absurd strays (short 1 (by decide) role)
      · cases same
        exact absurd strays (short 0 (by decide) role)
  | addRoleForUser user role => simp [documented.addRoleForUser] at issued
  | addRolesForUser user roles => simp [documented.addRolesForUser] at issued
  | deleteRolesForUser user =>
      simp only [documented.deleteRolesForUser, List.mem_singleton] at issued
      cases issued
      exact absurd strays (short 0 (by decide) user)
  | deleteRoleForUser user role => simp [documented.deleteRoleForUser] at issued
  | removeFilteredPolicy index values =>
      simp only [documented.removeFilteredPolicy, List.mem_singleton] at issued
      cases issued
      rfl

/-- Updates break off in undefined behaviour at a filter that strays alone. -/
theorem BrokenOff.strays (documented : library.Documented) {mutation : Mutation}
    {faults : List Bool} {state last : Model × Database} {crash : Crash}
    (broken : BrokenOff library.toCasbin (library.updates mutation) faults state (.crash crash)
      last) :
    ∃ fieldIndex fieldValues, mutation = .removeFilteredPolicy fieldIndex fieldValues ∧
      Strays fieldIndex fieldValues := by
  obtain ⟨early, u, late, answer, rest, between, split, performed, failed⟩ := broken
  obtain ⟨sec, ptype, fieldIndex, fieldValues, rfl, strays⟩ := strays_of_crash failed.storage
  have issued : .removeFiltered sec ptype fieldIndex fieldValues ∈ library.updates mutation := by
    rw [split]
    exact List.mem_append_right early List.mem_cons_self
  exact ⟨fieldIndex, fieldValues, mutation_of_strays documented issued strays, strays⟩

/-! ## The replies -/

/-- The nine mutating entry points. -/
def Call.mutates : Call → Bool
  | .addPolicy _ _ _ => true
  | .removePolicy _ _ _ => true
  | .addGroupingPolicy _ _ => true
  | .deleteRole _ => true
  | .addRoleForUser _ _ => true
  | .addRolesForUser _ _ => true
  | .deleteRolesForUser _ => true
  | .deleteRoleForUser _ _ => true
  | .removeFilteredPolicy _ _ => true
  | _ => false

/-- A mutating entry point without a mutation refuses its field index. -/
theorem program_of_unread {call : Call} (mutates : call.mutates = true)
    (unread : call.mutation = none) : call.program = guarded (return .badarg) := by
  cases call with
  | removeFilteredPolicy fieldIndex resourceId =>
      have refused := Option.map_eq_none_iff.mp unread
      simp only [Call.program, removeFilteredPolicy, refused]
  | _ => cases mutates <;> cases unread

end

/-! ## A policy that is refused and granted -/

namespace Library

/-- An implementation that does what is documented. -/
def reference : Library where
  toCasbin := Casbin.reference
  updates
    | .addPolicy rule => [.add policySection policySection rule]
    | .removePolicy rule => [.remove policySection policySection rule]
    | .addGroupingPolicy rule => [.add roleSection roleSection rule]
    | .deleteRole role =>
        [.removeFiltered roleSection roleSection 1 [role],
          .removeFiltered policySection policySection 0 [role]]
    | .addRoleForUser user role => [.add roleSection roleSection [user, role]]
    | .addRolesForUser user roles => roles.map fun role => .add roleSection roleSection [user, role]
    | .deleteRolesForUser user => [.removeFiltered roleSection roleSection 0 [user]]
    | .deleteRoleForUser user role => [.remove roleSection roleSection [user, role]]
    | .removeFilteredPolicy fieldIndex fieldValues =>
        [.removeFiltered policySection policySection fieldIndex fieldValues]
  thrown _ := .runtimeError []

theorem reference_documented : reference.Documented where
  casbin := Casbin.reference_documented
  unchanged := by
    intro u model after idle
    cases u with
    | _ =>
        simp only [reference, Casbin.reference] at idle
        split at idle <;> cases idle
        rfl
  addPolicy _ := rfl
  removePolicy _ := rfl
  addGroupingPolicy _ := rfl
  deleteRole _ := rfl
  addRoleForUser _ _ := rfl
  addRolesForUser _ _ := rfl
  deleteRolesForUser _ := rfl
  deleteRoleForUser _ _ := rfl
  removeFilteredPolicy _ _ := rfl

end Library

/-- A request is allowed if it is a rule of the model. -/
def rulesEngine : Engine Live where
  evaluate live request := .ok ((live.model.policy policySection policySection).contains request)
  usersForRole _ _ := .ok []
  rolesForUser _ _ := .ok []
  filteredPolicy _ _ _ := .ok []

/-- Every model file declares the two ptypes. -/
def rbacFiles : Files where
  parsed _ := .ok (Adapter.rbacModel [] [])
  created _ _ := .error .other
  mutated _ model := (.ok false, model)

/-- No rule in memory and none in the table. -/
def nothingStored : Host :=
  hostOn (ascii "postgres") (Adapter.rbacModel [] [])
    (Adapter.singleTable (ascii "polarity") (Relation.empty Adapter.tableColumns)) []

def grantAlice : Call :=
  .addPolicy (Term.ofBytes (ascii "alice")) (Term.ofBytes (ascii "data1"))
    (Term.ofBytes (ascii "read"))

/-- The call under a schedule, on a host without rules. -/
def grantedUnder (faults : List Bool) : Ending Host Undefined Reply :=
  run (hostMachine Library.reference rbacFiles faults rulesEngine) grantAlice.program []
    nothingStored

end Casbinex.Nif
