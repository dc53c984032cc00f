import Casbinex.Adapter.Startup
import Casbinex.Nif.Cache

/-!
# The enforcer and its database

The enforcer lives in the process and its policy in the database, which outlives it.
Behind a mutating entry point casbin issues one or several updates, each of the model
first and of the table second.  What the adapter throws reaches the catch clauses of the
entry point; where the behaviour of the adapter is undefined, so is that of the call.
-/

namespace Casbinex.Nif

open Casbinex.Program
open Casbinex.Program.Prog
open Casbinex.Sql
open Casbinex.Adapter (Model Update Casbin Failure call construct startUp)

def policySection : Bytes := ascii "p"

def roleSection : Bytes := ascii "g"

/-- casbin behind the entry points: the updates that a mutation issues in turn, and what
the clauses see of an exception of the adapter, with the error of the server if there is
one. -/
structure Library extends Casbin where
  updates : Mutation → List Update
  thrown : Option SqlError → Thrown

namespace Library

/-- What casbin documents of the mutations; the first ptype of a section has its name. -/
structure Documented (library : Library) : Prop where
  casbin : library.toCasbin.Documented
  /-- An update that reports no change makes none. -/
  unchanged : ∀ {u : Update} {model after : Model},
    library.change u model = (false, after) → after = model
  addPolicy : ∀ rule, library.updates (.addPolicy rule) =
    [.add policySection policySection rule]
  removePolicy : ∀ rule, library.updates (.removePolicy rule) =
    [.remove policySection policySection rule]
  addGroupingPolicy : ∀ rule, library.updates (.addGroupingPolicy rule) =
    [.add roleSection roleSection rule]
  deleteRole : ∀ role, library.updates (.deleteRole role) =
    [.removeFiltered roleSection roleSection 1 [role],
      .removeFiltered policySection policySection 0 [role]]
  addRoleForUser : ∀ user role, library.updates (.addRoleForUser user role) =
    [.add roleSection roleSection [user, role]]
  addRolesForUser : ∀ user roles, library.updates (.addRolesForUser user roles) =
    roles.map fun role => .add roleSection roleSection [user, role]
  deleteRolesForUser : ∀ user, library.updates (.deleteRolesForUser user) =
    [.removeFiltered roleSection roleSection 0 [user]]
  deleteRoleForUser : ∀ user role, library.updates (.deleteRoleForUser user role) =
    [.remove roleSection roleSection [user, role]]
  removeFilteredPolicy : ∀ fieldIndex fieldValues,
    library.updates (.removeFilteredPolicy fieldIndex fieldValues) =
      [.removeFiltered policySection policySection fieldIndex fieldValues]

/-- A result of the adapter as the entry point gets it: an exception is there to be caught,
and undefined behaviour is not. -/
def caught {α : Type} (library : Library) : Except Failure α → Except Undefined (Except Thrown α)
  | .ok value => .ok (.ok value)
  | .error .thrown => .ok (.error (library.thrown none))
  | .error (.sql error) => .ok (.error (library.thrown (some error)))
  | .error (.crash crash) => .error (.adapter crash)

/-- A failure is caught, or it is undefined behaviour. -/
theorem caught_error (library : Library) (failure : Failure) :
    (∃ thrown, ∀ α, library.caught (.error failure : Except Failure α) = .ok (.error thrown)) ∨
      ∃ crash, failure = .crash crash := by
  cases failure with
  | thrown => exact Or.inl ⟨library.thrown none, fun _ => rfl⟩
  | sql error => exact Or.inl ⟨library.thrown (some error), fun _ => rfl⟩
  | crash crash => exact Or.inr ⟨crash, rfl⟩

/-- What is returned next to a caught result is returned with it. -/
theorem snd_of_caught {library : Library} {α β γ : Type} {result : Except Failure α}
    {f : Except Thrown α → β} {kept last : γ} {value : β}
    (returned : (library.caught result >>= fun caught => pure (f caught, kept)) =
      .ok (value, last)) : last = kept := by
  cases ended : library.caught result with
  | error undefined =>
      rw [ended] at returned
      cases returned
  | ok caught =>
      rw [ended] at returned
      cases returned
      rfl

end Library

/-- Updates in turn, up to the first failure; the answer is whether any of them changed
anything. -/
def updateAll (casbin : Casbin) : List Update → List Bool → Model → Database → Casbin.Updated
  | [], faults, model, db => ⟨.ok false, model, db, faults⟩
  | u :: more, faults, model, db =>
      let first := casbin.update u faults model db
      match first.result with
      | .error failure => ⟨.error failure, first.model, first.db, first.faults⟩
      | .ok changed =>
          let rest := updateAll casbin more first.faults first.model first.db
          { rest with result := rest.result.map (changed || ·) }

/-! ## The steps on the host -/

/-- What an enforcer holds: its model, and where the policy is stored. -/
structure Live where
  model : Model
  storage : Storage

/-- The global pointer and the database behind the adapter. -/
structure Host where
  pointer : Option (Cached Live)
  db : Database

/-- casbin on the files of the host: a model file, and enforcers whose policy is a file. -/
structure Files where
  parsed : Bytes → Except Thrown Model
  created : Bytes → Bytes → Except Thrown Model
  mutated : Mutation → Model → Except Thrown Bool × Model

/-- The second argument of the constructor of an enforcer. -/
def Storage.path : Storage → Bytes
  | .postgres connection => connection
  | .file path => path

/-- What constructions and mutations do without a `PgAdapter`. -/
def Files.effects (files : Files) : Effects Live where
  create modelPath storage := (files.created modelPath storage.path).map (⟨·, storage⟩)
  mutate mutation live :=
    let after := files.mutated mutation live.model
    (after.1, { live with model := after.2 })

section

variable (library : Library) (files : Files) (faults : List Bool)

/-- `new casbin::CachedEnforcer(modelPath, ...)` with a `PgAdapter`, which is constructed
before the model is read. -/
def construction (modelPath connection : Bytes) (db : Database) :
    Except Undefined (Except Thrown Live × Database) :=
  match files.parsed modelPath with
  | .error thrown => do
      let built := call construct faults ∅ db
      let adapter ← library.caught built.result
      return (adapter.bind fun () => .error thrown, built.db)
  | .ok model => do
      let started := startUp model faults db
      let adapter ← library.caught started.result
      return (adapter.map fun () => ⟨started.model, .postgres connection⟩, started.db)

/-- A mutation of an enforcer with a `PgAdapter`: its answer, and the model and the database
after it. -/
def mutated (mutation : Mutation) (model : Model) (db : Database) :
    Except Undefined (Except Thrown Bool × Model × Database) := do
  let after := updateAll library.toCasbin (library.updates mutation) faults model db
  let answer ← library.caught after.result
  return (answer, after.model, after.db)

/-- The steps on the global pointer, with the database behind them.  What a `PgAdapter`
does is under the schedule; all other steps leave the database. -/
def hostStep (engine : Engine Live) : (i : Instr) → Host → Except Undefined (i.Answer × Host)
  | .create modelPath (.postgres connection), host => do
      let (made, db) ← construction library files faults modelPath connection host.db
      match made with
      | .ok live => return (.ok (), ⟨some ⟨live, []⟩, db⟩)
      | .error thrown => return (.error thrown, ⟨host.pointer, db⟩)
  | .mutate mutation, ⟨some ⟨⟨model, .postgres connection⟩, cache⟩, db⟩ => do
      let (answer, model, db) ← mutated library faults mutation model db
      return (answer, ⟨some ⟨⟨model, .postgres connection⟩, cache⟩, db⟩)
  | i, host => do
      let (answer, pointer) ← cachedStep engine files.effects i host.pointer
      return (answer, ⟨pointer, host.db⟩)

def hostMachine (engine : Engine Live) : Machine Instr Instr.Answer Host Undefined where
  step := hostStep library files faults engine
  fallible _ := false
  fault := .nullPointer

end

/-! ## What the steps do -/

/-- The steps that reach the adapter, if there is one. -/
def Instr.stores : Instr → Bool
  | .create _ _ => true
  | .mutate _ => true
  | _ => false

section

variable {library : Library} {files : Files} {faults : List Bool} {engine : Engine Live}

/-- Every other step is one of the cached enforcer. -/
theorem step_of_silent {i : Instr} (silent : i.stores = false) (host : Host) :
    (hostMachine library files faults engine).step i host =
      (cachedStep engine files.effects i host.pointer).map
        fun after => (after.1, ⟨after.2, host.db⟩) := by
  have lift {α β : Type} (result : Except Undefined α) (f : α → β) :
      (result >>= fun value => pure (f value)) = result.map f := by
    cases result <;> rfl
  cases i with
  | create modelPath storage => cases silent
  | mutate mutation => cases silent
  | _ => exact lift _ _

theorem step_create (modelPath connection : Bytes) (host : Host) :
    (hostMachine library files faults engine).step (.create modelPath (.postgres connection)) host =
      (construction library files faults modelPath connection host.db).map fun made =>
        (made.1.map fun _ => (), match made.1 with
          | .ok live => ⟨some ⟨live, []⟩, made.2⟩
          | .error _ => ⟨host.pointer, made.2⟩) := by
  simp only [hostMachine, hostStep]
  rcases construction library files faults modelPath connection host.db with
    undefined | ⟨thrown | live, db⟩ <;> rfl

/-- Without an adapter a construction leaves the database. -/
theorem step_create_file (modelPath path : Bytes) (host : Host) :
    (hostMachine library files faults engine).step (.create modelPath (.file path)) host =
      (cachedStep engine files.effects (.create modelPath (.file path)) host.pointer).map
        fun after => (after.1, ⟨after.2, host.db⟩) := by
  simp only [hostMachine, hostStep]
  cases cachedStep engine files.effects (.create modelPath (.file path)) host.pointer <;> rfl

/-- The host with an enforcer on the database. -/
def hostOn (connection : Bytes) (model : Model) (db : Database)
    (cache : List (List Bytes × Bool)) : Host :=
  ⟨some ⟨⟨model, .postgres connection⟩, cache⟩, db⟩

theorem step_mutate (mutation : Mutation) (connection : Bytes) (model : Model) (db : Database)
    (cache : List (List Bytes × Bool)) :
    (hostMachine library files faults engine).step (.mutate mutation)
        (hostOn connection model db cache) =
      (mutated library faults mutation model db).map fun after =>
        (after.1, hostOn connection after.2.1 after.2.2 cache) := by
  simp only [hostMachine, hostOn, hostStep]
  cases mutated library faults mutation model db <;> rfl

/-- A mutating entry point invalidates the cache, mutates, and replies to what it gets. -/
theorem run_updating (library : Library) (files : Files) (faults : List Bool)
    (engine : Engine Live) (mutation : Mutation) (handler : Thrown → Reply) (connection : Bytes)
    (model : Model) (db : Database) (cache : List (List Bytes × Bool)) :
    run (hostMachine library files faults engine) (guarded (updating mutation handler)) []
        (hostOn connection model db cache) =
      match mutated library faults mutation model db with
      | .error undefined => ⟨.error undefined, hostOn connection model db [], []⟩
      | .ok (answer, after, changed) =>
          ⟨.ok (replyTo handler answer), hostOn connection after changed [], []⟩ := by
  have opened : run (hostMachine library files faults engine) (guarded (updating mutation handler))
      [] (hostOn connection model db cache) =
      run (hostMachine library files faults engine) (.op (.mutate mutation) fun answer =>
        .ret (replyTo handler answer)) [] (hostOn connection model db []) := rfl
  rw [opened, run_op_nil, step_mutate]
  cases mutated library faults mutation model db <;> rfl

end

end Casbinex.Nif
