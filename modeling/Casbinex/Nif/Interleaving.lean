import Casbinex.Nif.Cache
import Casbinex.Program.Threads

/-!
# Interleaved calls

The schedulers run the entry points of many processes on the one global enforcer.
A mutating entry point invalidates the cache first and changes the policy second;
a decision that is cached in between is older than the policy it is later served
for.  Runs in which no such decision is at stake answer by the current policy.
-/

namespace Casbinex.Nif

open Casbinex.Program
open Casbinex.Program.Prog
open Casbinex.Sql

variable {P : Type}

/-- A thread runs the program of a call; its steps act on the global pointer.  A step
through a null pointer is none of this system. -/
def schedulers (engine : Engine P) (effects : Effects P) :
    System (Option (Cached P)) (NifProg Reply) Call Unit where
  spawn := Call.program
  advance _ pointer
    | .ret _ => none
    | .op i next =>
        match cachedStep engine effects i pointer with
        | .ok (answer, changed) => some (changed, next answer)
        | .error _ => none

/-- The mutation of a thread that stands between its two steps. -/
def pending : NifProg Reply → Option Mutation
  | .op (.mutate mutation) _ => some mutation
  | _ => none

def inFlight (threads : List (NifProg Reply)) : List Mutation := threads.filterMap pending

theorem mem_inFlight {front back : List (NifProg Reply)} {thread : NifProg Reply}
    {mutation : Mutation} :
    mutation ∈ inFlight (front ++ thread :: back) ↔
      pending thread = some mutation ∨ mutation ∈ inFlight (front ++ back) := by
  rw [inFlight, (filterMap_split pending front back thread).mem_iff, List.mem_append,
    Option.mem_toList]
  rfl

/-- The mutation leaves the decision on the request as it is, whatever the policy. -/
def Indifferent (engine : Engine P) (effects : Effects P) (mutation : Mutation)
    (request : List Bytes) : Prop :=
  ∀ policy, engine.evaluate (effects.mutate mutation policy).2 request =
    engine.evaluate policy request

/-- An `Enforce` that is not answered from the cache asks for nothing that a
mutation in flight decides. -/
def Undisturbed (engine : Engine P) (effects : Effects P)
    (config : Config (Option (Cached P)) (NifProg Reply)) : Act Call Unit → Prop
  | .start _ => True
  | .step index _ => ∀ enforcer request next, config.shared = some enforcer →
      config.threads[index]? = some (.op (.enforce request) next) →
      enforcer.cache.lookup request = none →
      ∀ mutation ∈ inFlight config.threads, Indifferent engine effects mutation request

/-! ## The phases of a call -/

/-- What is left of a call: steps that keep the policy, or a mutating entry point
before its pointer test, before its invalidation, or between its two steps. -/
inductive Phase : NifProg Reply → Prop
  | keeps {thread : NifProg Reply} (within : Within Instr.keepsPolicy thread) : Phase thread
  | called (mutation : Mutation) (handler : Thrown → Reply) :
      Phase (guarded (updating mutation handler))
  | tested (mutation : Mutation) (handler : Thrown → Reply) : Phase (updating mutation handler)
  | invalidated (mutation : Mutation) (handler : Thrown → Reply) :
      Phase (.op (.mutate mutation) fun answer => .ret (replyTo handler answer))

theorem phase_of_call (call : Call) : Phase call.program := by
  cases mutates : call.mutation with
  | some change =>
      rw [program_of_mutation mutates]
      exact .called change.1 change.2
  | none => exact .keeps (within_of_no_mutation mutates)

theorem pending_of_keeps {thread : NifProg Reply} (within : Within Instr.keepsPolicy thread) :
    pending thread = none := by
  cases thread with
  | ret reply => rfl
  | op i next =>
      cases i with
      | mutate mutation => exact absurd within.1 id
      | _ => rfl

theorem pending_of_call (call : Call) : pending call.program = none := by
  cases mutates : call.mutation with
  | some change =>
      rw [program_of_mutation mutates]
      rfl
  | none => exact pending_of_keeps (within_of_no_mutation mutates)

/-! ## Decisions stay current -/

/-- Every cached decision is the current one, and no mutation in flight will change it. -/
structure Current (engine : Engine P) (effects : Effects P) (mutations : List Mutation)
    (enforcer : Cached P) : Prop where
  faithful : enforcer.Faithful engine
  indifferent : ∀ request answer, enforcer.cache.lookup request = some answer →
    ∀ mutation ∈ mutations, Indifferent engine effects mutation request

section Steps

variable {engine : Engine P} {effects : Effects P} {mutations : List Mutation}

theorem Current.mono {fewer : List Mutation} {enforcer : Cached P}
    (current : Current engine effects mutations enforcer) (fewerOf : fewer ⊆ mutations) :
    Current engine effects fewer enforcer :=
  ⟨current.faithful, fun request answer found mutation member =>
    current.indifferent request answer found mutation (fewerOf member)⟩

theorem current_of_empty (policy : P) : Current engine effects mutations ⟨policy, []⟩ :=
  ⟨faithful_of_empty engine policy, fun request answer found => by cases found⟩

/-- A step of `Enforce` adds at most the decision it has just made. -/
theorem current_enforce {enforcer : Cached P} {request : List Bytes}
    (current : Current engine effects mutations enforcer)
    (undisturbed : enforcer.cache.lookup request = none →
      ∀ mutation ∈ mutations, Indifferent engine effects mutation request) :
    Current engine effects mutations (enforcer.enforce engine request).2 := by
  refine ⟨faithful_enforce current.faithful request, ?_⟩
  intro other answer found
  rcases lookup_enforce found with before | ⟨rfl, missed, _⟩
  · exact current.indifferent other answer before
  · exact undisturbed missed

/-- A mutation changes no decision that it is indifferent to. -/
theorem current_mutate {enforcer : Cached P} {mutation : Mutation}
    (current : Current engine effects mutations enforcer) (flying : mutation ∈ mutations) :
    Current engine effects mutations
      { enforcer with policy := (effects.mutate mutation enforcer.policy).2 } := by
  refine ⟨fun request answer found => ?_, current.indifferent⟩
  rw [current.indifferent request answer found mutation flying enforcer.policy]
  exact current.faithful request answer found

/-- A step that keeps the policy keeps the decisions current. -/
theorem current_keeps {i : Instr} {pointer changed : Option (Cached P)} {answer : i.Answer}
    (keeps : i.keepsPolicy)
    (current : ∀ enforcer ∈ pointer, Current engine effects mutations enforcer)
    (undisturbed : ∀ enforcer request, pointer = some enforcer → i = .enforce request →
      enforcer.cache.lookup request = none →
      ∀ mutation ∈ mutations, Indifferent engine effects mutation request)
    (stepped : cachedStep engine effects i pointer = .ok (answer, changed)) :
    ∀ enforcer ∈ changed, Current engine effects mutations enforcer := by
  cases i with
  | created =>
      cases stepped
      exact current
  | create modelPath storage =>
      simp only [cachedStep] at stepped
      cases made : effects.create modelPath storage with
      | ok policy =>
          rw [made] at stepped
          cases stepped
          intro enforcer same
          obtain rfl := Option.some.inj same
          exact current_of_empty policy
      | error thrown =>
          rw [made] at stepped
          cases stepped
          exact current
  | destroy =>
      cases stepped
      intro enforcer same
      cases same
  | invalidateCache => cases keeps
  | mutate mutation => cases keeps
  | enforce request =>
      cases pointer with
      | none => cases stepped
      | some enforcer =>
          cases stepped
          intro after same
          obtain rfl := Option.some.inj same
          exact current_enforce (current enforcer rfl) (undisturbed enforcer request rfl rfl)
  | _ =>
      cases pointer with
      | none => cases stepped
      | some enforcer =>
          cases stepped
          exact current

end Steps

/-- The invariant of the runs: threads are in one of the phases and the cached
decisions are current. -/
structure Coherent (engine : Engine P) (effects : Effects P)
    (config : Config (Option (Cached P)) (NifProg Reply)) : Prop where
  phases : ∀ thread ∈ config.threads, Phase thread
  current : ∀ enforcer ∈ config.shared,
    Current engine effects (inFlight config.threads) enforcer

/-- Starting a call puts no mutation in flight. -/
theorem coherent_start {engine : Engine P} {effects : Effects P} {pointer : Option (Cached P)}
    {threads : List (NifProg Reply)} (call : Call)
    (coherent : Coherent engine effects ⟨pointer, threads⟩) :
    Coherent engine effects ⟨pointer, threads ++ [call.program]⟩ := by
  refine ⟨forall_started coherent.phases (phase_of_call call), fun enforcer same => ?_⟩
  refine (coherent.current enforcer same).mono fun mutation member => ?_
  rw [mem_inFlight, pending_of_call, List.append_nil] at member
  exact member.resolve_left (by simp)

section Step

variable {engine : Engine P} {effects : Effects P} {pointer changed : Option (Cached P)}
  {front back : List (NifProg Reply)} {thread moved : NifProg Reply}

/-- A thread that ends up outside the window puts no mutation in flight. -/
theorem inFlight_landed (thread : NifProg Reply) (idle : pending moved = none) :
    inFlight (front ++ moved :: back) ⊆ inFlight (front ++ thread :: back) := by
  intro mutation member
  rw [mem_inFlight, idle] at member
  exact mem_inFlight.mpr (Or.inr (member.resolve_left (by simp)))

/-- Where one thread moves on, its phase and what it leaves of the cache suffice. -/
theorem coherent_moved (coherent : Coherent engine effects ⟨pointer, front ++ thread :: back⟩)
    (phase : Phase moved) (current : ∀ enforcer ∈ changed,
      Current engine effects (inFlight (front ++ moved :: back)) enforcer) :
    Coherent engine effects ⟨changed, front ++ moved :: back⟩ :=
  ⟨forall_replaced coherent.phases phase, current⟩

/-- A step outside every mutating call. -/
theorem coherent_keeps (coherent : Coherent engine effects ⟨pointer, front ++ thread :: back⟩)
    (within : Within Instr.keepsPolicy thread)
    (undisturbed : Undisturbed engine effects ⟨pointer, front ++ thread :: back⟩
      (.step front.length ()))
    (advanced : (schedulers engine effects).advance () pointer thread = some (changed, moved)) :
    Coherent engine effects ⟨changed, front ++ moved :: back⟩ := by
  cases thread with
  | ret reply => cases advanced
  | op i next =>
      simp only [schedulers] at advanced
      split at advanced
      · next answer after stepped =>
          cases advanced
          refine coherent_moved coherent (.keeps (within.2 answer)) fun enforcer same => ?_
          refine (current_keeps within.1 coherent.current ?_ stepped enforcer same).mono
            (inFlight_landed _ (pending_of_keeps (within.2 answer)))
          rintro known request rfl rfl
          exact undisturbed known request next rfl (by simp)
      · cases advanced

/-- Step: one thread advances by a step that is not disturbed. -/
theorem coherent_step (coherent : Coherent engine effects ⟨pointer, front ++ thread :: back⟩)
    (undisturbed : Undisturbed engine effects ⟨pointer, front ++ thread :: back⟩
      (.step front.length ()))
    (advanced : (schedulers engine effects).advance () pointer thread = some (changed, moved)) :
    Coherent engine effects ⟨changed, front ++ moved :: back⟩ := by
  have phase := coherent.phases thread (by simp)
  cases phase with
  | keeps within => exact coherent_keeps coherent within undisturbed advanced
  | called mutation handler =>
      cases advanced
      cases pointer with
      | none => exact coherent_moved coherent (.keeps trivial) fun enforcer same => by cases same
      | some enforcer =>
          refine coherent_moved coherent (.tested mutation handler) fun known same => ?_
          exact (coherent.current known same).mono (inFlight_landed _ rfl)
  | tested mutation handler =>
      cases pointer with
      | none => cases advanced
      | some enforcer =>
          cases advanced
          refine coherent_moved coherent (.invalidated mutation handler) fun after same => ?_
          obtain rfl := Option.some.inj same
          exact current_of_empty enforcer.policy
  | invalidated mutation handler =>
      cases pointer with
      | none => cases advanced
      | some enforcer =>
          cases advanced
          refine coherent_moved coherent (.keeps trivial) fun after same => ?_
          obtain rfl := Option.some.inj same
          have flying : mutation ∈ inFlight (front ++
              .op (.mutate mutation) (fun answer => .ret (replyTo handler answer)) :: back) :=
            mem_inFlight.mpr (Or.inl rfl)
          exact (current_mutate (coherent.current enforcer rfl) flying).mono
            (inFlight_landed _ rfl)

end Step

/-- Run: whatever the interleaving, every `Enforce` answers by the current policy, if
no decision that a mutation in flight changes is made between its two steps. -/
theorem enforce_answers_current {engine : Engine P} {effects : Effects P}
    {last : Config (Option (Cached P)) (NifProg Reply)}
    (run : RunFrom (schedulers engine effects).Step (Undisturbed engine effects) ⟨none, []⟩ last)
    {enforcer : Cached P} (created : last.shared = some enforcer) (request : List Bytes) :
    (enforcer.enforce engine request).1 = engine.evaluate enforcer.policy request := by
  have coherent : Coherent engine effects last := by
    refine (schedulers engine effects).run_invariant (Coherent engine effects) ?_ ?_ ?_ run
    · exact fun pointer threads call holds _ => coherent_start call holds
    · exact fun pointer front thread back _ changed moved holds ok => coherent_step holds ok
    · constructor
      · intro thread member
        cases member
      · intro enforcer same
        cases same
  exact enforce_of_faithful (coherent.current enforcer created).faithful request

/-! ## One rule and two processes -/

/-- Rules without roles: a request is allowed if it is one of them. -/
def listEngine : Engine (List (List Bytes)) where
  evaluate policy request := .ok (policy.contains request)
  usersForRole _ _ := .error .rbac
  rolesForUser _ _ := .error .rbac
  filteredPolicy policy _ _ := .ok policy

def aliceReads : List Bytes := [ascii "alice", ascii "data1", ascii "read"]

/-- The enforcer is created with one rule. -/
def listEffects : Effects (List (List Bytes)) where
  create _ _ := .ok [aliceReads]
  mutate
    | .addPolicy rule, policy => (.ok (!policy.contains rule), policy.insert rule)
    | .removePolicy rule, policy => (.ok (policy.contains rule), policy.erase rule)
    | _, policy => (.error .rbac, policy)

/-- No `Enforce` takes its step while a mutation is in flight. -/
def apart {σ : Type} (config : Config σ (NifProg Reply)) : Act Call Unit → Bool
  | .start _ => true
  | .step index _ =>
      match config.threads[index]? with
      | some (.op (.enforce _) _) => (inFlight config.threads).isEmpty
      | _ => true

theorem undisturbed_of_apart (engine : Engine P) (effects : Effects P)
    (config : Config (Option (Cached P)) (NifProg Reply)) (act : Act Call Unit)
    (kept : apart config act = true) : Undisturbed engine effects config act := by
  cases act with
  | start call => exact trivial
  | step index choice =>
      intro enforcer request next created found missed mutation member
      rw [apart, found, List.isEmpty_iff] at kept
      rw [kept] at member
      cases member

/-- The reply of a finished call. -/
def finished : NifProg Reply → Option Reply
  | .ret reply => some reply
  | .op _ _ => none

/-- The calls: the creation, one `RemovePolicy` and one `Enforce` of the same rule. -/
def creation : Call := .createEnforcer (Term.ofBytes (ascii "m")) (Term.ofBytes (ascii "p"))

def revocation : Call := .removePolicy (Term.ofBytes (ascii "alice"))
  (Term.ofBytes (ascii "data1")) (Term.ofBytes (ascii "read"))

def question : Call := .enforce (Term.ofBytes (ascii "alice"))
  (Term.ofBytes (ascii "data1")) (Term.ofBytes (ascii "read"))

/-- The revocation has answered true, no mutation is in flight and the policy refuses
the request; the next `Enforce` answers as given. -/
def Revoked (answer : Bool)
    (config : Config (Option (Cached (List (List Bytes)))) (NifProg Reply)) : Prop :=
  inFlight config.threads = [] ∧ config.threads[1]?.bind finished = some (.ofBool true) ∧
    ∃ enforcer ∈ config.shared, listEngine.evaluate enforcer.policy aliceReads = .ok false ∧
      (enforcer.enforce listEngine aliceReads).1 = .ok answer

instance (answer : Bool) : DecidablePred (Revoked answer) :=
  fun _ => inferInstanceAs (Decidable (_ ∧ _ ∧ _))

/-- The question comes after the revocation. -/
theorem enforce_answers_current_apart :
    ∃ last, RunFrom (schedulers listEngine listEffects).Step (Undisturbed listEngine listEffects)
        ⟨none, []⟩ last ∧ Revoked false last ∧
      ∀ enforcer, last.shared = some enforcer →
        (enforcer.enforce listEngine aliceReads).1 =
          listEngine.evaluate enforcer.policy aliceReads := by
  have computed : (follow apart (schedulers listEngine listEffects).next ⟨none, []⟩
      [.start creation, .step 0 (), .start revocation, .step 1 (), .step 1 (), .step 1 (),
        .start question, .step 2 (), .step 2 ()]).any (decide <| Revoked false ·) = true := by
    decide +kernel
  obtain ⟨last, run, revoked⟩ :=
    exists_run_of_follow (undisturbed_of_apart listEngine listEffects) computed
  exact ⟨last, run, revoked, fun enforcer created =>
    enforce_answers_current run created aliceReads⟩

/-- The question falls between the two steps of the revocation: afterwards the policy
refuses the request, and `Enforce` still allows it. -/
theorem revoked_request_allowed :
    ∃ last, Reachable (schedulers listEngine listEffects).Step ⟨none, []⟩ last ∧
      Revoked true last := by
  have computed : (follow (fun _ _ => true) (schedulers listEngine listEffects).next ⟨none, []⟩
      [.start creation, .step 0 (), .start revocation, .step 1 (), .step 1 (), .start question,
        .step 2 (), .step 2 (), .step 1 ()]).any (decide <| Revoked true ·) = true := by
    decide +kernel
  exact exists_run_of_follow (fun _ _ _ => trivial) computed

end Casbinex.Nif
