import Casbinex.Nif.Interleaving
import Casbinex.Program.Recorded

/-!
# How old a decision can be

The cache serves a decision until it is emptied, and it is emptied by the invalidation at
the start of every update, by a new enforcer and by the deletion of the enforcer.  So an
answer was a decision of the policy at some moment since the last of these, and if no
update was between its two steps at that moment, it still is.
-/

namespace Casbinex.Nif

open Casbinex.Program
open Casbinex.Program.Prog
open Casbinex.Sql

variable {P : Type} {engine : Engine P} {effects : Effects P}

/-- The steps after which the enforcer remembers nothing. -/
def Instr.refreshes (effects : Effects P) : Instr → Prop
  | .invalidateCache => True
  | .destroy => True
  | .create modelPath storage => ∃ policy, effects.create modelPath storage = .ok policy
  | _ => False

/-- The thread that takes the step empties the cache. -/
def Refreshes (effects : Effects P) (config : Config (Option (Cached P)) (NifProg Reply)) :
    Act Call Unit → Prop
  | .start _ => False
  | .step index _ => ∃ i next, config.threads[index]? = some (.op i next) ∧ i.refreshes effects

/-- The enforcer remembers the answer to the request. -/
def Remembers (config : Config (Option (Cached P)) (NifProg Reply))
    (key : List Bytes × Bool) : Prop :=
  ∃ enforcer ∈ config.shared, enforcer.cache.lookup key.1 = some key.2

/-- The policy decides the request with the answer. -/
def Decides (engine : Engine P) (config : Config (Option (Cached P)) (NifProg Reply))
    (key : List Bytes × Bool) : Prop :=
  ∃ enforcer ∈ config.shared, engine.evaluate enforcer.policy key.1 = .ok key.2

/-- Step: what is remembered after it was remembered before or is decided in it, and the
step has not emptied the cache. -/
theorem remembers_of_step {i : Instr} {pointer changed : Option (Cached P)} {answer : i.Answer}
    (stepped : cachedStep engine effects i pointer = .ok (answer, changed))
    {key : List Bytes × Bool}
    (known : ∃ enforcer ∈ changed, enforcer.cache.lookup key.1 = some key.2) :
    ¬ i.refreshes effects ∧
      ((∃ enforcer ∈ pointer, enforcer.cache.lookup key.1 = some key.2) ∨
        ∃ enforcer ∈ pointer, engine.evaluate enforcer.policy key.1 = .ok key.2) := by
  obtain ⟨enforcer, held, found⟩ := known
  cases i with
  | created =>
      cases stepped
      exact ⟨id, Or.inl ⟨enforcer, held, found⟩⟩
  | create modelPath storage =>
      simp only [cachedStep] at stepped
      cases made : effects.create modelPath storage with
      | ok policy =>
          rw [made] at stepped
          cases stepped
          obtain rfl := Option.some.inj held
          cases found
      | error thrown =>
          rw [made] at stepped
          cases stepped
          refine ⟨?_, Or.inl ⟨enforcer, held, found⟩⟩
          rintro ⟨policy, succeeded⟩
          rw [made] at succeeded
          cases succeeded
  | destroy =>
      cases stepped
      cases held
  | invalidateCache =>
      cases pointer with
      | none => cases stepped
      | some before =>
          cases stepped
          obtain rfl := Option.some.inj held
          cases found
  | enforce request =>
      cases pointer with
      | none => cases stepped
      | some before =>
          cases stepped
          obtain rfl := Option.some.inj held
          refine ⟨id, ?_⟩
          rcases lookup_enforce found with remembered | ⟨same, _, decided⟩
          · exact Or.inl ⟨before, rfl, remembered⟩
          · exact Or.inr ⟨before, rfl, same ▸ decided⟩
  | _ =>
      cases pointer with
      | none => cases stepped
      | some before =>
          cases stepped
          obtain rfl := Option.some.inj held
          exact ⟨id, Or.inl ⟨before, rfl, found⟩⟩

/-- Step: the same for a thread among the others. -/
theorem learns (config : Config (Option (Cached P)) (NifProg Reply)) (act : Act Call Unit)
    (after : Config (Option (Cached P)) (NifProg Reply)) (key : List Bytes × Bool)
    (step : (schedulers engine effects).Step config act after) (known : Remembers after key) :
    ¬ Refreshes effects config act ∧ (Remembers config key ∨ Decides engine config key) := by
  obtain ⟨pointer, threads⟩ := config
  rcases (schedulers engine effects).next_cases step with
    ⟨input, rfl, rfl⟩ | ⟨front, thread, back, choice, changed, moved, rfl, split, advanced, rfl⟩
  · exact ⟨id, Or.inl known⟩
  · obtain rfl : threads = front ++ thread :: back := split
    cases thread with
    | ret reply => cases advanced
    | op i next =>
        simp only [schedulers] at advanced
        split at advanced
        · next answer pointed stepped =>
            cases advanced
            obtain ⟨lasting, origin⟩ := remembers_of_step stepped known
            refine ⟨?_, origin⟩
            rintro ⟨other, rest, found, refreshes⟩
            rw [List.getElem?_append_right (Nat.le_refl _), Nat.sub_self] at found
            cases found
            exact lasting refreshes
        · cases advanced

/-! ## Where no update is between its steps -/

/-- A step of a call takes it to one of the phases. -/
theorem phase_moved {pointer changed : Option (Cached P)} {thread moved : NifProg Reply}
    (phase : Phase thread)
    (advanced : (schedulers engine effects).advance () pointer thread = some (changed, moved)) :
    Phase moved := by
  cases phase with
  | keeps within =>
      cases thread with
      | ret reply => cases advanced
      | op i next =>
          simp only [schedulers] at advanced
          split at advanced
          · next answer pointed stepped =>
              cases advanced
              exact .keeps (within.2 answer)
          · cases advanced
  | called mutation handler =>
      cases advanced
      cases pointer with
      | none => exact .keeps trivial
      | some enforcer => exact .tested mutation handler
  | tested mutation handler =>
      cases pointer with
      | none => cases advanced
      | some enforcer =>
          cases advanced
          exact .invalidated mutation handler
  | invalidated mutation handler =>
      cases pointer with
      | none => cases advanced
      | some enforcer =>
          cases advanced
          exact .keeps trivial

/-- Every thread of a run is in one of the phases of its call. -/
theorem phases_of_reachable {last : Config (Option (Cached P)) (NifProg Reply)}
    (run : Reachable (schedulers engine effects).Step ⟨none, []⟩ last) :
    ∀ thread ∈ last.threads, Phase thread := by
  refine (schedulers engine effects).run_invariant
    (fun config => ∀ thread ∈ config.threads, Phase thread) ?_ ?_ ?_ run
  · exact fun pointer threads call phases _ => forall_started phases (phase_of_call call)
  · intro pointer front thread back choice changed moved phases _ advanced
    exact forall_replaced phases (phase_moved (phases thread (by simp)) advanced)
  · intro thread member
    cases member

/-- No mutation is in flight, and the enforcer has the given policy. -/
structure Quiet (policy : P) (config : Config (Option (Cached P)) (NifProg Reply)) : Prop where
  phases : ∀ thread ∈ config.threads, Phase thread
  quiet : inFlight config.threads = []
  same : ∀ enforcer ∈ config.shared, enforcer.policy = policy

/-- A step that neither changes a policy nor empties the cache keeps the policy. -/
theorem policy_of_keeps {i : Instr} {pointer changed : Option (Cached P)} {answer : i.Answer}
    {policy : P} (keeps : i.keepsPolicy) (lasting : ¬ i.refreshes effects)
    (same : ∀ enforcer ∈ pointer, enforcer.policy = policy)
    (stepped : cachedStep engine effects i pointer = .ok (answer, changed)) :
    ∀ enforcer ∈ changed, enforcer.policy = policy := by
  cases i with
  | created =>
      cases stepped
      exact same
  | create modelPath storage =>
      simp only [cachedStep] at stepped
      cases made : effects.create modelPath storage with
      | ok fresh => exact absurd ⟨fresh, made⟩ lasting
      | error thrown =>
          rw [made] at stepped
          cases stepped
          exact same
  | destroy => exact absurd trivial lasting
  | invalidateCache => cases keeps
  | mutate mutation => cases keeps
  | enforce request =>
      cases pointer with
      | none => cases stepped
      | some before =>
          cases stepped
          intro enforcer held
          obtain rfl := Option.some.inj held
          exact (policy_enforce engine before request).trans (same before rfl)
  | _ =>
      cases pointer with
      | none => cases stepped
      | some before =>
          cases stepped
          exact same

/-- Step: until the next invalidation no mutation comes into flight. -/
theorem quiet_step {policy : P} (config : Config (Option (Cached P)) (NifProg Reply))
    (act : Act Call Unit) (after : Config (Option (Cached P)) (NifProg Reply))
    (calm : Quiet policy config) (lasting : ¬ Refreshes effects config act)
    (step : (schedulers engine effects).Step config act after) : Quiet policy after := by
  obtain ⟨pointer, threads⟩ := config
  rcases (schedulers engine effects).next_cases step with
    ⟨call, rfl, rfl⟩ | ⟨front, thread, back, choice, changed, moved, rfl, split, advanced, rfl⟩
  · refine ⟨forall_started calm.phases (phase_of_call call), ?_, calm.same⟩
    have none : (inFlight threads ++ [call.program].filterMap pending) = [] := by
      rw [calm.quiet, List.filterMap_cons_none (pending_of_call call)]
      rfl
    rw [← none]
    exact List.filterMap_append
  · obtain rfl : threads = front ++ thread :: back := split
    have phase := calm.phases thread (by simp)
    have phases := forall_replaced calm.phases (phase_moved phase advanced)
    have landed (idle : pending moved = none) : inFlight (front ++ moved :: back) = [] :=
      List.subset_nil.mp (calm.quiet ▸ inFlight_landed thread idle)
    cases phase with
    | keeps within =>
        cases thread with
        | ret reply => cases advanced
        | op i next =>
            simp only [schedulers] at advanced
            split at advanced
            · next answer pointed stepped =>
                cases advanced
                have lasts : ¬ i.refreshes effects := fun refreshes =>
                  lasting ⟨i, next, by simp, refreshes⟩
                exact ⟨phases, landed (pending_of_keeps (within.2 answer)),
                  policy_of_keeps within.1 lasts calm.same stepped⟩
            · cases advanced
    | called mutation handler =>
        cases advanced
        cases pointer with
        | none => exact ⟨phases, landed rfl, calm.same⟩
        | some enforcer => exact ⟨phases, landed rfl, calm.same⟩
    | tested mutation handler =>
        have here : (front ++ updating mutation handler :: back)[front.length]? =
            some (updating mutation handler) := by simp
        exact absurd ⟨.invalidateCache, _, here, trivial⟩ lasting
    | invalidated mutation handler =>
        -- the thread itself would be in flight
        have flying : mutation ∈ inFlight (front ++
            .op (.mutate mutation) (fun answer => .ret (replyTo handler answer)) :: back) :=
          mem_inFlight.mpr (Or.inl rfl)
        rw [calm.quiet] at flying
        cases flying

/-- Whatever the interleaving, an `Enforce` answers what the policy decided at some moment
since the cache was last emptied; where no update was between its two steps at that
moment, it answers by the current policy. -/
theorem enforce_answers_recent {length : Nat}
    (run : Recorded (schedulers engine effects).Step length) (begins : run.state 0 = ⟨none, []⟩)
    {n : Nat} (reached : n ≤ length) {enforcer : Cached P}
    (created : (run.state n).shared = some enforcer) (request : List Bytes) :
    ∃ m, m ≤ n ∧ run.Without (Refreshes effects) m n ∧
      ∃ earlier, (run.state m).shared = some earlier ∧
        (enforcer.enforce engine request).1 = engine.evaluate earlier.policy request ∧
        (inFlight (run.state m).threads = [] → earlier.policy = enforcer.policy) := by
  cases found : enforcer.cache.lookup request with
  | none =>
      refine ⟨n, Nat.le_refl n, fun i from' until' => absurd from' (Nat.not_le.mpr until'),
        enforcer, created, ?_, fun _ => rfl⟩
      unfold Cached.enforce
      rw [found]
      cases engine.evaluate enforcer.policy request <;> rfl
  | some answer =>
      have start : ∀ key, ¬ Remembers (run.state 0) key := by
        rintro key ⟨remembering, held, _⟩
        rw [begins] at held
        cases held
      have known : Remembers (run.state n) (request, answer) := ⟨enforcer, created, found⟩
      obtain ⟨m, earlier, ⟨deciding, held, decided⟩, without⟩ :=
        run.decided_since learns start reached known
      refine ⟨m, earlier, without, deciding, held, ?_, fun quiet => ?_⟩
      · rw [Cached.enforce, found]
        exact decided.symm
      · have phases := phases_of_reachable
          (begins ▸ run.reachable (Nat.le_trans earlier reached))
        have same : ∀ other ∈ (run.state m).shared, other.policy = deciding.policy := by
          intro other mine
          rw [Option.some.inj (mine.symm.trans held)]
        have calm := run.invariant without earlier reached quiet_step ⟨phases, quiet, same⟩
        exact (calm.same enforcer created).symm

/-- The question falls between the two steps of the revocation, and its answer is older
than the policy. -/
theorem enforce_answers_recent_overtaken :
    ∃ (length : Nat) (run : Recorded (schedulers listEngine listEffects).Step length)
      (enforcer : Cached (List (List Bytes))),
      (run.state length).shared = some enforcer ∧ Revoked true (run.state length) ∧
      ∃ m, m ≤ length ∧ run.Without (Refreshes listEffects) m length ∧
        ∃ earlier, (run.state m).shared = some earlier ∧
          (enforcer.enforce listEngine aliceReads).1 =
            listEngine.evaluate earlier.policy aliceReads ∧
          (inFlight (run.state m).threads = [] → earlier.policy = enforcer.policy) := by
  have computed : (follow (fun _ _ => true) (schedulers listEngine listEffects).next ⟨none, []⟩
      [.start creation, .step 0 (), .start revocation, .step 1 (), .step 1 (), .start question,
        .step 2 (), .step 2 (), .step 1 ()]).any (decide <| Revoked true ·) = true := by
    decide +kernel
  obtain ⟨last, reached, revoked⟩ : ∃ last,
      Reachable (schedulers listEngine listEffects).Step ⟨none, []⟩ last ∧ Revoked true last :=
    exists_run_of_follow (fun _ _ _ => trivial) computed
  obtain ⟨length, run, begins, rfl⟩ := Recorded.exists_of_run (.start creation) reached
  obtain ⟨enforcer, created, _⟩ := revoked.2.2
  exact ⟨length, run, enforcer, created, revoked,
    enforce_answers_recent run begins (Nat.le_refl length) created aliceReads⟩

end Casbinex.Nif
