import Casbinex.Adapter.Model
import Casbinex.Nif.EntryPoints

/-!
# The decision cache

`casbin::CachedEnforcer` answers a request it has seen from its cache.  The
library is not part of this repository: the evaluation and the queries are
parameters, and what a construction or a mutation does to the policy is free in
every single call.  One machine caches, the other evaluates every request afresh.
-/

namespace Casbinex.Nif

open Casbinex.Program
open Casbinex.Program.Prog
open Casbinex.Sql

/-- What the enforcer computes from a policy without changing it. -/
structure Engine (P : Type) where
  evaluate : P → List Bytes → Except Thrown Bool
  usersForRole : P → Bytes → Except Thrown (List Bytes)
  rolesForUser : P → Bytes → Except Thrown (List Bytes)
  filteredPolicy : P → Int32 → List Bytes → Except Thrown (List (List Bytes))

/-- What constructions and mutations do: a mutation leaves some policy and
answers or throws. -/
structure Effects (P : Type) where
  create : Bytes → Storage → Except Thrown P
  mutate : Mutation → P → Except Thrown Bool × P

/-- An enforcer with the decisions it remembers, by the exact request. -/
structure Cached (P : Type) where
  policy : P
  cache : List (List Bytes × Bool)

/-- What has no defined outcome. -/
inductive Undefined where
  /-- A null pointer is dereferenced. -/
  | nullPointer
  /-- The adapter behind the enforcer does what has none. -/
  | adapter (crash : Adapter.Crash)
  deriving DecidableEq, Repr

variable {P : Type}

/-- `CachedEnforcer::Enforce`: a decision is stored only if the evaluation returns. -/
def Cached.enforce (engine : Engine P) (enforcer : Cached P) (request : List Bytes) :
    Except Thrown Bool × Cached P :=
  match enforcer.cache.lookup request with
  | some answer => (.ok answer, enforcer)
  | none =>
      match engine.evaluate enforcer.policy request with
      | .ok answer => (.ok answer, { enforcer with cache := (request, answer) :: enforcer.cache })
      | .error thrown => (.error thrown, enforcer)

/-- The steps on the global pointer, with a cached enforcer behind it. -/
def cachedStep (engine : Engine P) (effects : Effects P) :
    (i : Instr) → Option (Cached P) → Except Undefined (i.Answer × Option (Cached P))
  | .created, pointer => .ok (pointer.isSome, pointer)
  | .create modelPath storage, pointer =>
      match effects.create modelPath storage with
      | .ok policy => .ok (.ok (), some ⟨policy, []⟩)
      | .error thrown => .ok (.error thrown, pointer)
  | .destroy, _ => .ok ((), none)
  | .invalidateCache, some enforcer => .ok ((), some { enforcer with cache := [] })
  | .enforce request, some enforcer =>
      let (answer, after) := enforcer.enforce engine request
      .ok (answer, some after)
  | .mutate mutation, some enforcer =>
      let (answer, policy) := effects.mutate mutation enforcer.policy
      .ok (answer, some { enforcer with policy := policy })
  | .getUsersForRole role, some enforcer =>
      .ok (engine.usersForRole enforcer.policy role, some enforcer)
  | .getRolesForUser user, some enforcer =>
      .ok (engine.rolesForUser enforcer.policy user, some enforcer)
  | .getFilteredPolicy fieldIndex fieldValues, some enforcer =>
      .ok (engine.filteredPolicy enforcer.policy fieldIndex fieldValues, some enforcer)
  | _, none => .error .nullPointer

/-- The same steps with an enforcer that remembers nothing. -/
def plainStep (engine : Engine P) (effects : Effects P) :
    (i : Instr) → Option P → Except Undefined (i.Answer × Option P)
  | .created, pointer => .ok (pointer.isSome, pointer)
  | .create modelPath storage, pointer =>
      match effects.create modelPath storage with
      | .ok policy => .ok (.ok (), some policy)
      | .error thrown => .ok (.error thrown, pointer)
  | .destroy, _ => .ok ((), none)
  | .invalidateCache, some policy => .ok ((), some policy)
  | .enforce request, some policy => .ok (engine.evaluate policy request, some policy)
  | .mutate mutation, some policy =>
      let (answer, policy) := effects.mutate mutation policy
      .ok (answer, some policy)
  | .getUsersForRole role, some policy => .ok (engine.usersForRole policy role, some policy)
  | .getRolesForUser user, some policy => .ok (engine.rolesForUser policy user, some policy)
  | .getFilteredPolicy fieldIndex fieldValues, some policy =>
      .ok (engine.filteredPolicy policy fieldIndex fieldValues, some policy)
  | _, none => .error .nullPointer

def cachedMachine (engine : Engine P) (effects : Effects P) :
    Machine Instr Instr.Answer (Option (Cached P)) Undefined where
  step := cachedStep engine effects
  fallible _ := false
  fault := .nullPointer

def plainMachine (engine : Engine P) (effects : Effects P) :
    Machine Instr Instr.Answer (Option P) Undefined where
  step := plainStep engine effects
  fallible _ := false
  fault := .nullPointer

/-- The replies to complete calls, one after the other; each call comes with what
constructions and mutations do in it. -/
def replies {σ : Type} (machine : Effects P → Machine Instr Instr.Answer σ Undefined) :
    List (Call × Effects P) → σ → List (Except Undefined Reply)
  | [], _ => []
  | (call, effects) :: more, state =>
      let ending := run (machine effects) call.program [] state
      ending.result :: replies machine more ending.state

/-! ## Every cached decision is the current one -/

/-- Each remembered decision is what the engine decides on the current policy. -/
def Cached.Faithful (engine : Engine P) (enforcer : Cached P) : Prop :=
  ∀ request answer, enforcer.cache.lookup request = some answer →
    engine.evaluate enforcer.policy request = .ok answer

theorem faithful_of_empty (engine : Engine P) (policy : P) :
    Cached.Faithful engine ⟨policy, []⟩ := by
  intro request answer found
  cases found

@[simp]
theorem policy_enforce (engine : Engine P) (enforcer : Cached P) (request : List Bytes) :
    (enforcer.enforce engine request).2.policy = enforcer.policy := by
  unfold Cached.enforce
  split
  · rfl
  · split <;> rfl

/-- A decision is remembered from before, or it has just been made on a request that
was not remembered. -/
theorem lookup_enforce {engine : Engine P} {enforcer : Cached P} {request other : List Bytes}
    {answer : Bool}
    (found : (enforcer.enforce engine request).2.cache.lookup other = some answer) :
    enforcer.cache.lookup other = some answer ∨
      (other = request ∧ enforcer.cache.lookup request = none ∧
        engine.evaluate enforcer.policy request = .ok answer) := by
  unfold Cached.enforce at found
  cases known : enforcer.cache.lookup request with
  | some remembered =>
      rw [known] at found
      exact Or.inl found
  | none =>
      rw [known] at found
      cases decided : engine.evaluate enforcer.policy request with
      | error thrown =>
          rw [decided] at found
          exact Or.inl found
      | ok decision =>
          simp only [decided, List.lookup_cons] at found
          by_cases asked : other = request
          · subst asked
            rw [beq_self_eq_true] at found
            exact Or.inr ⟨rfl, rfl, congrArg Except.ok (Option.some.inj found)⟩
          · rw [beq_false_of_ne asked] at found
            exact Or.inl found

/-- A faithful cache answers what an evaluation answers. -/
theorem enforce_of_faithful {engine : Engine P} {enforcer : Cached P}
    (faithful : enforcer.Faithful engine) (request : List Bytes) :
    (enforcer.enforce engine request).1 = engine.evaluate enforcer.policy request := by
  unfold Cached.enforce
  cases found : enforcer.cache.lookup request with
  | some answer => exact (faithful request answer found).symm
  | none =>
      cases decided : engine.evaluate enforcer.policy request <;> rfl

theorem faithful_enforce {engine : Engine P} {enforcer : Cached P}
    (faithful : enforcer.Faithful engine) (request : List Bytes) :
    (enforcer.enforce engine request).2.Faithful engine := by
  intro other answer found
  rw [policy_enforce]
  rcases lookup_enforce found with before | ⟨rfl, _, decided⟩
  · exact faithful other answer before
  · exact decided

/-- The cached pointer stands for the plain one, and its decisions are current. -/
structure Represents (engine : Engine P) (pointer : Option (Cached P)) (plain : Option P) :
    Prop where
  policy : pointer.map Cached.policy = plain
  faithful : ∀ enforcer ∈ pointer, enforcer.Faithful engine

theorem Represents.of_some {engine : Engine P} {enforcer : Cached P}
    (faithful : enforcer.Faithful engine) :
    Represents engine (some enforcer) (some enforcer.policy) :=
  ⟨rfl, fun _ same => Option.some.inj same ▸ faithful⟩

/-- The steps that leave a policy as it is. -/
def Instr.keepsPolicy : Instr → Prop
  | .invalidateCache => False
  | .mutate _ => False
  | _ => True

/-- Step: every step but a mutation answers alike and keeps the representation. -/
theorem step_represents {engine : Engine P} (effects : Effects P) (i : Instr)
    (pointer : Option (Cached P)) (plain : Option P) (keeps : i.keepsPolicy)
    (represents : Represents engine pointer plain) :
    (∃ error, (cachedMachine engine effects).step i pointer = .error error ∧
      (plainMachine engine effects).step i plain = .error error) ∨
    ∃ answer changed moved, (cachedMachine engine effects).step i pointer = .ok (answer, changed) ∧
      (plainMachine engine effects).step i plain = .ok (answer, moved) ∧
      Represents engine changed moved := by
  obtain ⟨rfl, faithful⟩ := represents
  cases pointer with
  | none =>
      have nothing : Represents engine none none := ⟨rfl, fun enforcer same => by cases same⟩
      cases i with
      | created => exact Or.inr ⟨false, none, none, rfl, rfl, nothing⟩
      | destroy => exact Or.inr ⟨(), none, none, rfl, rfl, nothing⟩
      | create modelPath storage =>
          right
          simp only [cachedMachine, plainMachine, cachedStep, plainStep]
          cases effects.create modelPath storage with
          | ok policy => exact ⟨_, _, _, rfl, rfl, .of_some (faithful_of_empty engine policy)⟩
          | error thrown => exact ⟨_, _, _, rfl, rfl, nothing⟩
      | _ => exact Or.inl ⟨.nullPointer, rfl, rfl⟩
  | some enforcer =>
      have current := faithful enforcer rfl
      right
      cases i with
      | created => exact ⟨_, _, _, rfl, rfl, .of_some current⟩
      | destroy => exact ⟨_, _, _, rfl, rfl, rfl, fun other same => by cases same⟩
      | create modelPath storage =>
          simp only [cachedMachine, plainMachine, cachedStep, plainStep]
          cases effects.create modelPath storage with
          | ok policy => exact ⟨_, _, _, rfl, rfl, .of_some (faithful_of_empty engine policy)⟩
          | error thrown => exact ⟨_, _, _, rfl, rfl, .of_some current⟩
      | enforce request =>
          refine ⟨(enforcer.enforce engine request).1, some (enforcer.enforce engine request).2,
            some enforcer.policy, rfl, ?_, ?_⟩
          · rw [enforce_of_faithful current request]
            rfl
          · rw [← policy_enforce engine enforcer request]
            exact .of_some (faithful_enforce current request)
      | invalidateCache => cases keeps
      | mutate mutation => cases keeps
      | _ => exact ⟨_, _, _, rfl, rfl, .of_some current⟩

/-- A mutation follows an invalidation, so the cache is empty after it, however
the mutation ends. -/
theorem updating_represents {engine : Engine P} (effects : Effects P) (mutation : Mutation)
    (handler : Thrown → Reply) {pointer : Option (Cached P)} {plain : Option P}
    (represents : Represents engine pointer plain) :
    (run (cachedMachine engine effects) (guarded (updating mutation handler)) [] pointer).result =
        (run (plainMachine engine effects) (guarded (updating mutation handler)) [] plain).result ∧
      Represents engine
        (run (cachedMachine engine effects) (guarded (updating mutation handler)) [] pointer).state
        (run (plainMachine engine effects) (guarded (updating mutation handler)) []
          plain).state := by
  obtain ⟨rfl, faithful⟩ := represents
  cases pointer with
  | none => exact ⟨rfl, rfl, faithful⟩
  | some enforcer =>
      refine ⟨rfl, rfl, fun after same => ?_⟩
      obtain rfl := Option.some.inj same
      exact faithful_of_empty engine _

/-- The entry points that do not mutate take no step that changes a policy. -/
theorem within_of_no_mutation {call : Call} (none : call.mutation = none) :
    Within Instr.keepsPolicy call.program := by
  have behind {body : NifProg Reply} (within : Within Instr.keepsPolicy body) :
      Within Instr.keepsPolicy (guarded body) := by
    refine ⟨trivial, fun created => ?_⟩
    cases created with
    | false => exact trivial
    | true => exact within
  cases call with
  | createEnforcer modelPath policyPath =>
      refine ⟨trivial, fun answer => ?_⟩
      cases answer <;> exact trivial
  | destroyEnforcer => exact ⟨trivial, fun _ => trivial⟩
  | enforce sub obj act => exact behind ⟨trivial, fun _ => trivial⟩
  | getUsersForRole role =>
      refine behind ⟨trivial, fun answer => ?_⟩
      cases answer <;> exact trivial
  | getRolesForUser user =>
      refine behind ⟨trivial, fun answer => ?_⟩
      cases answer <;> exact trivial
  | getFilteredPolicy fieldIndex resourceId =>
      apply behind
      cases enifGetInt fieldIndex with
      | none => exact trivial
      | some index =>
          refine ⟨trivial, fun answer => ?_⟩
          cases answer <;> exact trivial
  | removeFilteredPolicy fieldIndex resourceId =>
      have refused : enifGetInt fieldIndex = Option.none := Option.map_eq_none_iff.mp none
      apply behind
      rw [refused]
      exact trivial
  | _ => cases none

/-- Step: a complete call answers alike and keeps the representation. -/
theorem call_represents {engine : Engine P} (effects : Effects P) (call : Call)
    {pointer : Option (Cached P)} {plain : Option P}
    (represents : Represents engine pointer plain) :
    (run (cachedMachine engine effects) call.program [] pointer).result =
        (run (plainMachine engine effects) call.program [] plain).result ∧
      Represents engine (run (cachedMachine engine effects) call.program [] pointer).state
        (run (plainMachine engine effects) call.program [] plain).state := by
  cases mutates : call.mutation with
  | some change =>
      rw [program_of_mutation mutates]
      exact updating_represents effects change.1 change.2 represents
  | none => exact run_related (step_represents effects) (within_of_no_mutation mutates) represents

/-- Run: from represented pointers on, all replies are the same. -/
theorem replies_eq {engine : Engine P} (calls : List (Call × Effects P))
    {pointer : Option (Cached P)} {plain : Option P}
    (represents : Represents engine pointer plain) :
    replies (cachedMachine engine) calls pointer = replies (plainMachine engine) calls plain := by
  induction calls generalizing pointer plain with
  | nil => rfl
  | cons first more ih =>
      obtain ⟨call, effects⟩ := first
      obtain ⟨same, still⟩ := call_represents effects call represents
      rw [replies, replies, same, ih still]

/-- Every run of complete calls from the start gets the replies that an enforcer
without a cache gives. -/
theorem cached_replies_eq_plain (engine : Engine P) (calls : List (Call × Effects P)) :
    replies (cachedMachine engine) calls none = replies (plainMachine engine) calls none :=
  replies_eq calls ⟨rfl, fun enforcer same => by cases same⟩

end Casbinex.Nif
