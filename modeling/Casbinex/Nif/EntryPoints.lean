import Casbinex.Nif.Term
import Casbinex.Program.Prog

/-!
# The fifteen entry points

Every entry point is a program over the steps it takes on the global enforcer:
the test of the pointer, the construction and the deletion, and the methods it
calls.  A method answers or throws; the catch clauses turn what it throws into a
reply.
-/

namespace Casbinex.Nif

open Casbinex.Program
open Casbinex.Program.Prog
open Casbinex.Sql

/-- What a method of the enforcer throws, as the catch clauses tell it apart. -/
inductive Thrown where
  /-- `casbin::MissingRequiredSections` -/
  | missingSections
  /-- `casbin::CasbinEnforcerException` -/
  | enforcerException
  /-- `casbin::CasbinRBACException` -/
  | rbac
  /-- `std::logic_error` -/
  | logicError (what : Bytes)
  /-- `std::runtime_error` -/
  | runtimeError (what : Bytes)
  /-- Any other `std::exception`. -/
  | stdException
  | other
  deriving DecidableEq, Repr

/-- The methods that change the policy. -/
inductive Mutation where
  | addPolicy (rule : List Bytes)
  | removePolicy (rule : List Bytes)
  | addGroupingPolicy (rule : List Bytes)
  | deleteRole (role : Bytes)
  | addRoleForUser (user role : Bytes)
  | addRolesForUser (user : Bytes) (roles : List Bytes)
  | deleteRolesForUser (user : Bytes)
  | deleteRoleForUser (user role : Bytes)
  | removeFilteredPolicy (fieldIndex : Int32) (fieldValues : List Bytes)
  deriving DecidableEq, Repr

/-- The adapter of a new enforcer. -/
inductive Storage where
  | postgres (connection : Bytes)
  | file (path : Bytes)
  deriving DecidableEq, Repr

inductive Instr where
  /-- `if(!enforcer)` -/
  | created
  /-- `enforcer = new casbin::CachedEnforcer(...)` -/
  | create (modelPath : Bytes) (storage : Storage)
  /-- `if(enforcer) delete enforcer; enforcer = nullptr;` -/
  | destroy
  | invalidateCache
  | enforce (request : List Bytes)
  | mutate (mutation : Mutation)
  | getUsersForRole (role : Bytes)
  | getRolesForUser (user : Bytes)
  | getFilteredPolicy (fieldIndex : Int32) (fieldValues : List Bytes)
  deriving DecidableEq, Repr

abbrev Instr.Answer : Instr → Type
  | .created => Bool
  | .create _ _ => Except Thrown Unit
  | .destroy => Unit
  | .invalidateCache => Unit
  | .enforce _ => Except Thrown Bool
  | .mutate _ => Except Thrown Bool
  | .getUsersForRole _ => Except Thrown (List Bytes)
  | .getRolesForUser _ => Except Thrown (List Bytes)
  | .getFilteredPolicy _ _ => Except Thrown (List (List Bytes))

abbrev NifProg := Prog Instr Instr.Answer

abbrev issue (i : Instr) : NifProg i.Answer := perform i

/-- What the caller sees. -/
inductive Reply where
  | term (term : Term)
  | badarg
  /-- An exception that no clause catches leaves the entry point and ends the VM. -/
  | escaped
  deriving DecidableEq, Repr

namespace Reply

def atom (name : String) : Reply := .term (.atom (ascii name))

/-- `PF_ATOM_TRUE` or `PF_ATOM_FALSE` -/
def ofBool (answer : Bool) : Reply := if answer then atom "true" else atom "false"

/-- `make_result_tuple(PF_ATOM_ERROR, PF_MAKE_STRING(text))` -/
def error (text : Bytes) : Reply :=
  .term (.pair (.atom (ascii "error")) (Term.ofBytes (cString text)))

def mustCreate : Reply := error (ascii "Must create and enforcer first.")

end Reply

/-! ## Catch clauses -/

/-- `catch(...)` with the answer false. -/
def refuse : Thrown → Reply := fun _ => .atom "false"

/-- `catch(const casbin::CasbinRBACException &e)`, then `catch(...)`. -/
def rbacOrUnexpected : Thrown → Reply
  | .rbac => .error (ascii "RBAC exception")
  | _ => .error (ascii "Unexpected exception")

/-- `catch(...)` with the text of an unexpected exception. -/
def unexpected : Thrown → Reply := fun _ => .error (ascii "Unexpected exception")

/-- `catch(const casbin::CasbinRBACException &e)`, then `catch(std::exception e2)`,
which copies the base class alone and so its text. -/
def rbacOrStd : Thrown → Reply
  | .rbac => .error (ascii "RBAC exception")
  | .logicError _ => .error (ascii "std::exception")
  | .runtimeError _ => .error (ascii "std::exception")
  | .stdException => .error (ascii "std::exception")
  | _ => .escaped

/-- The six clauses of `CreateEnforcer`. -/
def creationFailed : Thrown → Reply
  | .missingSections => .error (ascii "Missing required sections")
  | .enforcerException => .error (ascii "Casbin Enforcer exception")
  | .rbac => .error (ascii "RBAC exception")
  | .logicError what => .error what
  | .runtimeError what => .error what
  | .stdException => .error (ascii "std::exception")
  | .other => .escaped

/-- The reply of an entry point to what its method answered. -/
def replyTo (handler : Thrown → Reply) : Except Thrown Bool → Reply
  | .ok answer => .ofBool answer
  | .error thrown => handler thrown

/-! ## The shared shapes -/

/-- `if(!enforcer) return ...;` before the body. -/
def guarded (body : NifProg Reply) : NifProg Reply := do
  let created ← issue .created
  if created then body else return .mustCreate

/-- `enforcer->InvalidateCache(); return enforcer->...` -/
def updating (mutation : Mutation) (handler : Thrown → Reply) : NifProg Reply := do
  issue .invalidateCache
  let answer ← issue (.mutate mutation)
  return replyTo handler answer

/-! ## The entry points -/

def createEnforcer (argv0 argv1 : Term) : NifProg Reply := do
  let modelPath := listToString argv0
  let policyPath := listToString argv1
  let storage := if policyPath.take 8 = ascii "postgres" then Storage.postgres policyPath
    else Storage.file policyPath
  match ← issue (.create modelPath storage) with
  | .ok () => return .term (.pair (.atom (ascii "ok")) (Term.ofBytes (ascii "Created Enforcer")))
  | .error thrown => return creationFailed thrown

def destroyEnforcer : NifProg Reply := do
  issue .destroy
  return .atom "ok"

/-- The three strings pass through `c_str()`. -/
def enforce (argv0 argv1 argv2 : Term) : NifProg Reply := guarded do
  let sub := listToString argv0
  let obj := listToString argv1
  let act := listToString argv2
  let answer ← issue (.enforce [cString sub, cString obj, cString act])
  return replyTo refuse answer

def addPolicy (argv0 argv1 argv2 : Term) : NifProg Reply :=
  let sub := listToString argv0
  let obj := listToString argv1
  let act := listToString argv2
  guarded (updating (.addPolicy [cString sub, cString obj, cString act]) refuse)

def removePolicy (argv0 argv1 argv2 : Term) : NifProg Reply :=
  let sub := listToString argv0
  let obj := listToString argv1
  let act := listToString argv2
  guarded (updating (.removePolicy [cString sub, cString obj, cString act]) refuse)

/-- From here on the strings are passed as they are. -/
def addGroupingPolicy (argv0 argv1 : Term) : NifProg Reply :=
  let user := listToString argv0
  let group := listToString argv1
  guarded (updating (.addGroupingPolicy [user, group]) refuse)

def getUsersForRole (argv0 : Term) : NifProg Reply := guarded do
  let role := listToString argv0
  match ← issue (.getUsersForRole role) with
  | .ok users => return .term (vectorToList users)
  | .error thrown => return rbacOrUnexpected thrown

def getRolesForUser (argv0 : Term) : NifProg Reply := guarded do
  let user := listToString argv0
  match ← issue (.getRolesForUser user) with
  | .ok roles => return .term (vectorToList roles)
  | .error thrown => return unexpected thrown

def deleteRole (argv0 : Term) : NifProg Reply :=
  let role := listToString argv0
  guarded (updating (.deleteRole role) rbacOrUnexpected)

def addRoleForUser (argv0 argv1 : Term) : NifProg Reply :=
  let user := listToString argv0
  let role := listToString argv1
  guarded (updating (.addRoleForUser user role) rbacOrUnexpected)

def addRolesForUser (argv0 argv1 : Term) : NifProg Reply :=
  let user := listToString argv0
  let roles := listToVector argv1
  guarded (updating (.addRolesForUser user roles) rbacOrUnexpected)

def deleteRolesForUser (argv0 : Term) : NifProg Reply :=
  let user := listToString argv0
  guarded (updating (.deleteRolesForUser user) rbacOrUnexpected)

def deleteRoleForUser (argv0 argv1 : Term) : NifProg Reply :=
  let user := listToString argv0
  let role := listToString argv1
  guarded (updating (.deleteRoleForUser user role) rbacOrStd)

def removeFilteredPolicy (argv0 argv1 : Term) : NifProg Reply :=
  guarded (match enifGetInt argv0 with
    | none => return .badarg
    | some fieldIndex =>
        let resourceId := listToVector argv1
        updating (.removeFilteredPolicy fieldIndex resourceId) refuse)

def getFilteredPolicy (argv0 argv1 : Term) : NifProg Reply := guarded do
  match enifGetInt argv0 with
  | none => return .badarg
  | some fieldIndex =>
      let resourceId := listToVector argv1
      match ← issue (.getFilteredPolicy fieldIndex resourceId) with
      | .ok rules => return .term (vectorsToList rules)
      | .error thrown => return refuse thrown

/-- A call of one of the functions in `casbinex_nif_funcs`. -/
inductive Call where
  | createEnforcer (modelPath policyPath : Term)
  | destroyEnforcer
  | enforce (sub obj act : Term)
  | addPolicy (sub obj act : Term)
  | removePolicy (sub obj act : Term)
  | addGroupingPolicy (user group : Term)
  | getUsersForRole (role : Term)
  | getRolesForUser (user : Term)
  | deleteRole (role : Term)
  | addRoleForUser (user role : Term)
  | addRolesForUser (user roles : Term)
  | deleteRoleForUser (user role : Term)
  | deleteRolesForUser (user : Term)
  | removeFilteredPolicy (fieldIndex resourceId : Term)
  | getFilteredPolicy (fieldIndex resourceId : Term)
  deriving DecidableEq, Repr

/-- The program of a call. -/
def Call.program : Call → NifProg Reply
  | .createEnforcer modelPath policyPath => Nif.createEnforcer modelPath policyPath
  | .destroyEnforcer => Nif.destroyEnforcer
  | .enforce sub obj act => Nif.enforce sub obj act
  | .addPolicy sub obj act => Nif.addPolicy sub obj act
  | .removePolicy sub obj act => Nif.removePolicy sub obj act
  | .addGroupingPolicy user group => Nif.addGroupingPolicy user group
  | .getUsersForRole role => Nif.getUsersForRole role
  | .getRolesForUser user => Nif.getRolesForUser user
  | .deleteRole role => Nif.deleteRole role
  | .addRoleForUser user role => Nif.addRoleForUser user role
  | .addRolesForUser user roles => Nif.addRolesForUser user roles
  | .deleteRoleForUser user role => Nif.deleteRoleForUser user role
  | .deleteRolesForUser user => Nif.deleteRolesForUser user
  | .removeFilteredPolicy fieldIndex resourceId => Nif.removeFilteredPolicy fieldIndex resourceId
  | .getFilteredPolicy fieldIndex resourceId => Nif.getFilteredPolicy fieldIndex resourceId

/-- The mutation of a call and the clauses around it; other calls have none. -/
def Call.mutation : Call → Option (Mutation × (Thrown → Reply))
  | .addPolicy sub obj act => some (.addPolicy [cString (listToString sub),
      cString (listToString obj), cString (listToString act)], refuse)
  | .removePolicy sub obj act => some (.removePolicy [cString (listToString sub),
      cString (listToString obj), cString (listToString act)], refuse)
  | .addGroupingPolicy user group =>
      some (.addGroupingPolicy [listToString user, listToString group], refuse)
  | .deleteRole role => some (.deleteRole (listToString role), rbacOrUnexpected)
  | .addRoleForUser user role =>
      some (.addRoleForUser (listToString user) (listToString role), rbacOrUnexpected)
  | .addRolesForUser user roles =>
      some (.addRolesForUser (listToString user) (listToVector roles), rbacOrUnexpected)
  | .deleteRolesForUser user => some (.deleteRolesForUser (listToString user), rbacOrUnexpected)
  | .deleteRoleForUser user role =>
      some (.deleteRoleForUser (listToString user) (listToString role), rbacOrStd)
  | .removeFilteredPolicy fieldIndex resourceId =>
      (enifGetInt fieldIndex).map fun index =>
        (.removeFilteredPolicy index (listToVector resourceId), refuse)
  | _ => none

/-- Every mutating entry point tests the pointer, invalidates and then mutates. -/
theorem program_of_mutation {call : Call} {mutation : Mutation} {handler : Thrown → Reply}
    (mutates : call.mutation = some (mutation, handler)) :
    call.program = guarded (updating mutation handler) := by
  cases call with
  | removeFilteredPolicy fieldIndex resourceId =>
      obtain ⟨index, reads, same⟩ := Option.map_eq_some_iff.mp mutates
      cases same
      simp only [Call.program, removeFilteredPolicy, reads]
  | _ =>
      cases mutates <;> rfl

/-- No clause answers true. -/
theorem handler_ne_true {call : Call} {mutation : Mutation} {handler : Thrown → Reply}
    (mutates : call.mutation = some (mutation, handler)) (thrown : Thrown) :
    handler thrown ≠ .ofBool true := by
  have clauses : handler = refuse ∨ handler = rbacOrUnexpected ∨ handler = rbacOrStd := by
    cases call with
    | removeFilteredPolicy fieldIndex resourceId =>
        obtain ⟨index, _, same⟩ := Option.map_eq_some_iff.mp mutates
        cases same
        exact Or.inl rfl
    | _ => cases mutates <;> simp
  have tuple (text : Bytes) : Reply.error text ≠ .ofBool true := by
    intro same
    cases same
  have ending : Reply.escaped ≠ .ofBool true := by decide
  have negative : Reply.atom "false" ≠ .ofBool true := by decide
  rcases clauses with rfl | rfl | rfl
  · exact negative
  · cases thrown <;> exact tuple _
  · cases thrown with
    | missingSections => exact ending
    | enforcerException => exact ending
    | other => exact ending
    | _ => exact tuple _

end Casbinex.Nif
