import Casbinex.Adapter.Monitor
import Casbinex.Program.Progress

/-!
# The pool drains

A thread works down its programs and its guards, and a `notify_one` that wakes a
sleeper ends a release.  So the steps that threads take by themselves come to an end
unless threads are started or woken spuriously again and again, and where no thread can
go on, every operation is over and the pool is full.
-/

namespace Casbinex.Adapter

open Casbinex.Program
open Casbinex.Program.Prog
open Casbinex.Sql

/-! ## What a thread has still to do -/

/-- A thread that waits for a connection weighs the same asleep and woken. -/
noncomputable def Spot.weight : Spot → Ordinal.{0} ×ₗ Nat
  | .running _ rest => toLex (rest.rank + 1, 1)
  | .asleep _ next => toLex (next.rank + 1, 2)
  | .woken _ next => toLex (next.rank + 1, 2)
  | .leaving guards => toLex (0, 2 * guards.length)
  | .notifying guards => toLex (0, 2 * guards.length + 1)

noncomputable def Caller.weight (caller : Caller) : Nat ×ₗ (Ordinal.{0} ×ₗ Nat) :=
  toLex (caller.todo.length, caller.spot.weight)

theorem Spot.weight_lt_of_rank {first second : Ordinal.{0}} (less : first < second)
    (stage other : Nat) : toLex (first + 1, stage) < toLex (second + 1, other) :=
  Prod.Lex.left _ _ (by simpa using less)

theorem Spot.weight_leaving_lt (guards : List Conn) (rank : Ordinal.{0}) (stage : Nat) :
    Spot.weight (.leaving guards) < toLex (rank + 1, stage) :=
  Prod.Lex.left _ _ (by simp)

theorem Caller.weight_lt {moved spot : Spot} (less : moved.weight < spot.weight)
    (todo : List PgOperation) : Caller.weight ⟨moved, todo⟩ < Caller.weight ⟨spot, todo⟩ :=
  Prod.Lex.right _ less

/-- A thread that tests the queue gets lighter or sleeps. -/
theorem test_weight (queue guards : List Conn) (next : AdapterProg Unit) :
    (test queue guards next).2.weight < toLex (next.rank + 1, 2) ∨
      (test queue guards next).2 = .asleep guards next := by
  cases queue with
  | nil => exact Or.inr rfl
  | cons conn rest => exact Or.inl (Prod.Lex.right _ (by decide))

/-- Step: a thread gets lighter, or it was woken and sleeps again. -/
theorem step_weight {caller moved : Caller} {queue after : List Conn}
    {choice : Option ((i : Instr) → i.Answer)}
    (stepped : caller.step choice queue = some (after, moved)) :
    moved.weight < caller.weight ∨
      (moved.weight = caller.weight ∧ caller.isWoken = true ∧ moved.isWoken = false) := by
  obtain ⟨spot, todo⟩ := caller
  cases spot with
  | asleep guards next => cases stepped
  | notifying guards => cases stepped
  | woken guards next =>
      have tested : moved = ⟨(test queue guards next).2, todo⟩ :=
        (Prod.mk.inj (Option.some.inj stepped)).2.symm
      rw [tested]
      rcases test_weight queue guards next with less | sleeps
      · exact Or.inl (Caller.weight_lt less todo)
      · rw [sleeps]
        exact Or.inr ⟨rfl, rfl, rfl⟩
  | leaving guards =>
      left
      cases guards with
      | cons conn outer =>
          cases stepped
          have less : Spot.weight (.notifying outer) < Spot.weight (.leaving (conn :: outer)) := by
            refine Prod.Lex.right _ ?_
            rw [List.length_cons]
            omega
          exact Caller.weight_lt less todo
      | nil =>
          cases todo with
          | nil => cases stepped
          | cons operation more =>
              cases stepped
              exact Prod.Lex.left _ _ (Nat.lt_succ_self more.length)
  | running guards rest =>
      left
      cases rest with
      | ret value =>
          cases stepped
          exact Caller.weight_lt (Spot.weight_leaving_lt guards _ _) todo
      | op i next =>
          cases checks : i.checksOut with
          | true =>
              cases i with
              | checkout =>
                  have tested : moved = ⟨(test queue guards (next ())).2, todo⟩ :=
                    (Prod.mk.inj (Option.some.inj stepped)).2.symm
                  have less := rank_next_lt Instr.checkout next ()
                  rw [tested]
                  rcases test_weight queue guards (next ()) with lighter | sleeps
                  · exact Caller.weight_lt (lighter.trans (Spot.weight_lt_of_rank less _ _)) todo
                  · have lighter : Spot.weight (.asleep guards (next ())) <
                        Spot.weight (.running guards (.op .checkout next)) :=
                      Spot.weight_lt_of_rank less _ _
                    rw [sleeps]
                    exact Caller.weight_lt lighter todo
              | _ => cases checks
          | false =>
              rw [step_running checks] at stepped
              cases choice with
              | none =>
                  simp only at stepped
                  split at stepped
                  · cases stepped
                    exact Caller.weight_lt (Spot.weight_leaving_lt guards _ _) todo
                  · cases stepped
              | some answers =>
                  cases stepped
                  have less : Spot.weight (.running guards (next (answers i))) <
                      Spot.weight (.running guards (.op i next)) :=
                    Spot.weight_lt_of_rank (rank_next_lt i next (answers i)) _ _
                  exact Caller.weight_lt less todo

section

variable {monitor after : Monitor} {move : Move}

/-- What the threads have still to do, and how many of them were woken. -/
noncomputable def Monitor.weight (monitor : Monitor) :
    Multiset (Nat ×ₗ (Ordinal.{0} ×ₗ Nat)) × Nat :=
  weighed Caller.weight Caller.isWoken monitor.callers

/-- The steps that threads take by themselves lower the weight; a `notify_one` pays for
the sleeper that it wakes. -/
theorem lower_of_step (stepped : monitor.Step move after) (mover : move.mover ≠ none) :
    Lower after.weight monitor.weight := by
  cases move with
  | start todo => exact absurd rfl mover
  | spurious sleeper => exact absurd rfl mover
  | step index choice =>
      obtain ⟨caller, found, rest⟩ := Option.bind_eq_some_iff.mp stepped
      obtain ⟨⟨queue, moved⟩, advanced, ended⟩ := Option.bind_eq_some_iff.mp rest
      cases ended
      rcases step_weight advanced with less | ⟨same, woken, asleep⟩
      · exact lower_of_lt Caller.isWoken found less rfl
      · have fewer := countP_replaced Caller.isWoken found moved
        rw [woken, asleep] at fewer
        apply Prod.lex_def.mpr
        right
        refine ⟨weighed_of_eq Caller.isWoken found same, ?_⟩
        simp only [Bool.toNat_true, Bool.toNat_false] at fewer
        simp only [Monitor.weight, weighed]
        omega
  | notify index waiter =>
      have ends (caller : Caller) {guards : List Conn}
          (notifying : caller.spot = .notifying guards) :
          Caller.weight { caller with spot := .leaving guards } < caller.weight := by
        have less : Spot.weight (.leaving guards) < Spot.weight (.notifying guards) :=
          Prod.Lex.right _ (Nat.lt_succ_self _)
        obtain ⟨spot, todo⟩ := caller
        obtain rfl : spot = .notifying guards := notifying
        exact Caller.weight_lt less todo
      cases waiter with
      | none =>
          simp only [Monitor.Step, Monitor.next] at stepped
          split at stepped
          · cases stepped
          · obtain ⟨caller, guards, found, notifying, rfl⟩ := notified_cases stepped
            exact lower_of_lt Caller.isWoken found (ends caller notifying) rfl
      | some sleeper =>
          obtain ⟨middle, done, wakes⟩ := Option.bind_eq_some_iff.mp stepped
          obtain ⟨caller, guards, found, notifying, rfl⟩ := notified_cases done
          obtain ⟨other, foundOther, rest⟩ := Option.bind_eq_some_iff.mp wakes
          obtain ⟨woken, rouses, ended⟩ := Option.bind_eq_some_iff.mp rest
          cases ended
          refine lower_of_lt Caller.isWoken found (ends caller notifying) ?_
          apply weighed_of_eq Caller.isWoken foundOther
          obtain ⟨none, next, asleep, rfl⟩ := wake_cases rouses
          simp only [Caller.weight, asleep]
          rfl

end

/-! ## Operations of defined behaviour -/

/-- The operation does not come to undefined behaviour. -/
def PgOperation.Defined (operation : PgOperation) : Prop :=
  Within (fun i => i.crashes = false) operation.program

theorem defined_migration (query : Bytes) :
    Within (fun i => i.crashes = false) (migration query) :=
  ⟨rfl, fun _ => ⟨rfl, fun _ => ⟨rfl, fun _ => ⟨rfl, fun _ => trivial⟩⟩⟩⟩

theorem crashes_of_streams (i : Instr) (streams : i.streams = true) : i.crashes = false := by
  cases i with
  | undefined crash => cases streams
  | _ => rfl

theorem crashes_of_onModel (i : Instr) (step : i.onModel) : i.crashes = false := by
  cases i with
  | model change => rfl
  | _ => cases step

/-- A filter within the range of its counter is of defined behaviour, and so is every
other operation. -/
theorem defined_program (operation : PgOperation)
    (counts : ∀ sec ptype fieldIndex fieldValues,
      operation = .removeFilteredPolicy sec ptype fieldIndex fieldValues →
        0 ≤ fieldIndex ∧ fieldIndex.toNatClampNeg + fieldValues.length < 2 ^ 32) :
    operation.Defined := by
  unfold PgOperation.Defined
  cases operation with
  | construct =>
      change Within _ construct
      refine ⟨rfl, fun _ => ?_⟩
      change Within _ runMigrations
      rw [runMigrations_eq]
      refine ⟨rfl, fun _ => ⟨rfl, fun r => ⟨rfl, fun _ => ?_⟩⟩⟩
      change Within _ (migrate r.length)
      unfold migrate
      refine Within.bind ?_ fun _ => Within.bind ?_ fun _ => ⟨rfl, fun _ => trivial⟩
      · split
        · exact defined_migration createQuery
        · trivial
      · split
        · exact defined_migration addV6Query
        · trivial
  | loadPolicy =>
      refine ⟨rfl, fun _ => ⟨rfl, fun _ => ⟨rfl, fun rows => ⟨rfl, fun _ => ?_⟩⟩⟩⟩
      exact (onModel_loadLoop rows).mono crashes_of_onModel
  | savePolicy model =>
      cases model with
      | null => trivial
      | live =>
          have saved (sec : Bytes) : Within (fun i => i.crashes = false) (saveSection sec) :=
            (streams_saveSection sec).mono crashes_of_streams
          refine ⟨rfl, fun _ => ⟨rfl, fun _ => ⟨rfl, fun _ => ⟨rfl, fun _ => ?_⟩⟩⟩⟩
          exact (saved _).bind fun _ => (saved _).bind fun _ =>
            ⟨rfl, fun _ => ⟨rfl, fun _ => trivial⟩⟩
  | addPolicy sec ptype rule =>
      change Within _ (addPolicy sec ptype rule)
      rw [addPolicy_eq]
      exact defined_transaction (defined_buildInsert ptype rule)
  | removePolicy sec ptype rule =>
      change Within _ (removePolicy sec ptype rule)
      rw [removePolicy_eq]
      exact defined_transaction (defined_buildMatch ptype rule)
  | removeFilteredPolicy sec ptype fieldIndex fieldValues =>
      change Within _ (removeFilteredPolicy sec ptype fieldIndex fieldValues)
      rw [removeFilteredPolicy_eq]
      exact defined_transaction (defined_buildFilter (Or.inl (counts sec ptype fieldIndex
        fieldValues rfl)) ptype)

/-- What is left of the thread, its later operations included, is of defined behaviour. -/
structure Caller.Sound (caller : Caller) : Prop where
  rest : match caller.spot with
    | .running _ rest => Within (fun i => i.crashes = false) rest
    | .asleep _ next => Within (fun i => i.crashes = false) next
    | .woken _ next => Within (fun i => i.crashes = false) next
    | .leaving _ => True
    | .notifying _ => True
  todo : ∀ operation ∈ caller.todo, operation.Defined

theorem sound_test {next : AdapterProg Unit} (calm : Within (fun i => i.crashes = false) next)
    {todo : List PgOperation} (later : ∀ operation ∈ todo, operation.Defined)
    (queue guards : List Conn) : Caller.Sound ⟨(test queue guards next).2, todo⟩ := by
  cases queue with
  | nil => exact ⟨calm, later⟩
  | cons conn rest => exact ⟨calm, later⟩

/-- Step: a thread stays sound. -/
theorem Caller.Sound.step {caller moved : Caller} (sound : caller.Sound)
    {queue after : List Conn} {choice : Option ((i : Instr) → i.Answer)}
    (stepped : caller.step choice queue = some (after, moved)) : moved.Sound := by
  obtain ⟨spot, todo⟩ := caller
  obtain ⟨calm, later⟩ := sound
  cases spot with
  | asleep guards next => cases stepped
  | notifying guards => cases stepped
  | woken guards next =>
      have tested : moved = ⟨(test queue guards next).2, todo⟩ :=
        (Prod.mk.inj (Option.some.inj stepped)).2.symm
      exact tested ▸ sound_test calm later queue guards
  | leaving guards =>
      cases guards with
      | cons conn outer =>
          cases stepped
          exact ⟨trivial, later⟩
      | nil =>
          cases todo with
          | nil => cases stepped
          | cons operation more =>
              cases stepped
              obtain ⟨first, others⟩ := List.forall_mem_cons.mp later
              exact ⟨first, others⟩
  | running guards rest =>
      cases rest with
      | ret value =>
          cases stepped
          exact ⟨trivial, later⟩
      | op i next =>
          cases checks : i.checksOut with
          | true =>
              cases i with
              | checkout =>
                  have tested : moved = ⟨(test queue guards (next ())).2, todo⟩ :=
                    (Prod.mk.inj (Option.some.inj stepped)).2.symm
                  exact tested ▸ sound_test (calm.2 ()) later queue guards
              | _ => cases checks
          | false =>
              rw [step_running checks] at stepped
              cases choice with
              | none =>
                  simp only at stepped
                  split at stepped
                  · cases stepped
                    exact ⟨trivial, later⟩
                  · cases stepped
              | some answers =>
                  cases stepped
                  exact ⟨calm.2 (answers i), later⟩

/-- Threads are started with operations of defined behaviour. -/
def Starts (_ : Monitor) : Move → Prop
  | .start todo => ∀ operation ∈ todo, operation.Defined
  | _ => True

/-- The thread that takes the step is at undefined behaviour, which promises nothing. -/
def Monitor.Lost (monitor : Monitor) : Move → Prop
  | .step index _ => ∃ caller ∈ monitor.callers[index]?, ∃ guards crash next,
      caller.spot = .running guards (.op (.undefined crash) next)
  | _ => False

section

variable {monitor after : Monitor} {move : Move}

/-- Every thread is sound. -/
def Monitor.Sound (monitor : Monitor) : Prop := ∀ caller ∈ monitor.callers, caller.Sound

/-- Step: every move keeps the threads sound. -/
theorem sound_next (sound : monitor.Sound) (starts : Starts monitor move)
    (stepped : monitor.Step move after) : after.Sound := by
  have woken {threads : Monitor} {sleeper : Nat}
      (before : ∀ caller ∈ threads.callers, caller.Sound)
      (wakes : threads.wake sleeper = some after) : ∀ caller ∈ after.callers, caller.Sound := by
    obtain ⟨caller, found, rest⟩ := Option.bind_eq_some_iff.mp wakes
    obtain ⟨moved, rouses, ended⟩ := Option.bind_eq_some_iff.mp rest
    cases ended
    obtain ⟨calm, later⟩ := before caller (List.mem_of_getElem? found)
    obtain ⟨guards, next, asleep, rfl⟩ := wake_cases rouses
    rw [asleep] at calm
    exact forall_set before ⟨calm, later⟩
  have released {threads : Monitor} {index : Nat}
      (done : monitor.notified index = some threads) :
      ∀ caller ∈ threads.callers, caller.Sound := by
    obtain ⟨caller, guards, found, notifying, rfl⟩ := notified_cases done
    have later := (sound caller (List.mem_of_getElem? found)).todo
    exact forall_set sound ⟨trivial, later⟩
  cases move with
  | start todo =>
      cases stepped
      exact forall_started sound ⟨trivial, starts⟩
  | step index choice =>
      obtain ⟨caller, found, rest⟩ := Option.bind_eq_some_iff.mp stepped
      obtain ⟨⟨queue, moved⟩, advanced, ended⟩ := Option.bind_eq_some_iff.mp rest
      cases ended
      exact forall_set sound ((sound caller (List.mem_of_getElem? found)).step advanced)
  | notify index waiter =>
      cases waiter with
      | some sleeper =>
          obtain ⟨middle, done, wakes⟩ := Option.bind_eq_some_iff.mp stepped
          exact woken (released done) wakes
      | none =>
          simp only [Monitor.Step, Monitor.next] at stepped
          split at stepped
          · cases stepped
          · exact released stepped
  | spurious sleeper => exact woken sound stepped

theorem not_lost_of_sound (sound : ∀ caller ∈ monitor.callers, caller.Sound) (move : Move) :
    ¬ monitor.Lost move := by
  intro lost
  cases move with
  | step index choice =>
      obtain ⟨caller, found, guards, crash, next, spot⟩ := lost
      have calm := (sound caller (List.mem_of_getElem? found)).rest
      rw [spot] at calm
      cases calm.1
  | _ => exact lost

/-! ## Where no thread can go on -/

/-- All operations of the thread are over and it holds no connection. -/
def Caller.Finished (caller : Caller) : Prop := caller.spot = .leaving [] ∧ caller.todo = []

instance : DecidablePred Caller.Finished
  | ⟨.leaving [], []⟩ => .isTrue ⟨rfl, rfl⟩
  | ⟨.leaving [], _ :: _⟩ => .isFalse nofun
  | ⟨.leaving (_ :: _), _⟩ => .isFalse nofun
  | ⟨.running _ _, _⟩ => .isFalse nofun
  | ⟨.asleep _ _, _⟩ => .isFalse nofun
  | ⟨.woken _ _, _⟩ => .isFalse nofun
  | ⟨.notifying _, _⟩ => .isFalse nofun

/-- A finished thread takes no step. -/
theorem not_canMove_of_finished (finished : ∀ caller ∈ monitor.callers, caller.Finished)
    (index : Nat) : ¬ monitor.CanMove index := by
  rintro ⟨move, after, mover, stepped⟩
  have quiet (place : Nat) : monitor.notified place = none := by
    by_contra some
    obtain ⟨ended, done⟩ := Option.ne_none_iff_exists'.mp some
    obtain ⟨caller, guards, found, notifying, _⟩ := notified_cases done
    rw [(finished caller (List.mem_of_getElem? found)).1] at notifying
    cases notifying
  cases move with
  | start todo => cases mover
  | spurious sleeper => cases mover
  | step place choice =>
      obtain ⟨caller, found, rest⟩ := Option.bind_eq_some_iff.mp stepped
      obtain ⟨pair, advanced, _⟩ := Option.bind_eq_some_iff.mp rest
      obtain ⟨spot, todo⟩ := caller
      obtain ⟨rfl, rfl⟩ : spot = .leaving [] ∧ todo = [] :=
        finished _ (List.mem_of_getElem? found)
      cases advanced
  | notify place waiter =>
      cases waiter with
      | some sleeper =>
          obtain ⟨middle, done, _⟩ := Option.bind_eq_some_iff.mp stepped
          rw [quiet place] at done
          cases done
      | none =>
          simp only [Monitor.Step, Monitor.next, quiet place, ite_self] at stepped
          cases stepped

/-- A thread that neither sleeps nor notifies takes a step of its own, unless it is
finished. -/
theorem step_of_unfinished {caller : Caller} (awake : caller.isAsleep = false)
    (quiet : caller.isNotifying = false) (unfinished : ¬ caller.Finished) (queue : List Conn) :
    (caller.step (some answering) queue).isSome = true := by
  obtain ⟨spot, todo⟩ := caller
  cases spot with
  | leaving guards =>
      cases guards with
      | cons conn outer => rfl
      | nil =>
          cases todo with
          | nil => exact absurd ⟨rfl, rfl⟩ unfinished
          | cons operation more => rfl
  | running guards rest =>
      cases rest with
      | ret value => rfl
      | op i next => cases i <;> rfl
  | woken guards next => rfl
  | asleep guards next => cases awake
  | notifying guards => cases quiet

/-- Where no thread can go on, every thread is finished. -/
theorem Fair.finished (fair : Fair 0 monitor) (stuck : ∀ index, ¬ monitor.CanMove index) :
    ∀ caller ∈ monitor.callers, caller.Finished := by
  have awake : ∀ caller ∈ monitor.callers, caller.isAsleep = false := by
    intro caller member
    rw [← Bool.not_eq_true]
    intro asleep
    obtain ⟨sleeper, found⟩ := List.getElem?_of_mem member
    obtain ⟨index, _, moves⟩ := fair.canMove found asleep
    exact stuck index moves
  have quiet : ∀ caller ∈ monitor.callers, caller.isNotifying = false := by
    intro caller member
    rw [← Bool.not_eq_true]
    intro notifying
    obtain ⟨index, found⟩ := List.getElem?_of_mem member
    obtain ⟨spot, todo⟩ := caller
    cases spot with
    | notifying guards =>
        have nobody : ¬ monitor.callers.any Caller.isAsleep = true := by
          rw [List.any_eq_true]
          rintro ⟨other, inCallers, asleep⟩
          rw [awake other inCallers] at asleep
          cases asleep
        refine stuck index ⟨.notify index none, ⟨monitor.queue, monitor.callers.set index
          ⟨.leaving guards, todo⟩⟩, rfl, ?_⟩
        simp only [Monitor.Step, Monitor.next, if_neg nobody, Monitor.notified, found,
          Caller.notified, bind, pure, Option.bind_some]
    | _ => cases notifying
  intro caller member
  by_contra unfinished
  obtain ⟨index, found⟩ := List.getElem?_of_mem member
  exact stuck index (canMove_of_step found
    (step_of_unfinished (awake caller member) (quiet caller member) unfinished _))

/-- Finished threads hold nothing. -/
theorem Fair.queue_full (fair : Fair 0 monitor)
    (finished : ∀ caller ∈ monitor.callers, caller.Finished) :
    monitor.queue.length = poolSize := by
  have nothing : monitor.held = [] := by
    apply List.flatMap_eq_nil_iff.mpr
    intro caller member
    rw [Caller.guards, (finished caller member).1]
    rfl
  have total := fair.each
  rw [nothing] at total
  exact total

end

/-- The pool drains: from every state reached by threads whose operations are of defined
behaviour, a run without end starts threads or wakes sleepers spuriously again and again;
and no thread can go on exactly when every operation of every thread is over, normally or
by an exception, and then all connections are back in the queue. -/
theorem pool_drains {last : Monitor} (run : RunFrom Monitor.Step Starts .created last) :
    (∀ trail : Endless Monitor.Step, trail.state 0 = last →
      (∀ n, Starts (trail.state n) (trail.act n)) →
      ∀ n, ∃ m, n ≤ m ∧ (trail.act m).mover = none) ∧
    ((∀ index, ¬ last.CanMove index) ↔ ∀ caller ∈ last.callers, caller.Finished) ∧
    ((∀ caller ∈ last.callers, caller.Finished) → last.queue.length = poolSize) := by
  have sound : last.Sound := by
    refine run.invariant ?_ fun _ _ _ held starts stepped => sound_next held starts stepped
    intro caller member
    cases member
  have fair : Fair 0 last := run.invariant fair_created fun _ _ _ fair _ stepped =>
    fair.next stepped
  refine ⟨fun trail begun starts n => ?_, ⟨fair.finished, not_canMove_of_finished⟩,
    fair.queue_full⟩
  have always (n : Nat) : (trail.state n).Sound :=
    (trail.reachable starts n).invariant (begun ▸ sound)
      fun _ _ _ held starts stepped => sound_next held starts stepped
  obtain ⟨m, after, idle⟩ := trail.exists_other wellFounded_lower Monitor.weight
    (fun monitor move => move.mover ≠ none ∧ ¬ monitor.Lost move)
    (fun n busy => lower_of_step (trail.steps n) busy.1) n
  refine ⟨m, after, ?_⟩
  by_contra mover
  exact idle ⟨mover, not_lost_of_sound (always m) _⟩

/-- Loading is of defined behaviour, and this check admits starts of loads alone. -/
def loads : Move → Bool
  | .start todo => todo.all fun
      | .loadPolicy => true
      | _ => false
  | _ => true

theorem starts_of_loads (monitor : Monitor) (move : Move) (kept : loads move = true) :
    Starts monitor move := by
  cases move with
  | start todo =>
      intro operation member
      have load := List.all_eq_true.mp kept operation member
      cases operation with
      | loadPolicy => exact defined_program .loadPolicy nofun
      | _ => cases load
  | _ => trivial

/-- Five loads on four connections: the fifth thread sleeps until the first one, which
cannot open its transaction, returns its connection. -/
def fiveLoads : List Move :=
  List.replicate 5 (.start [.loadPolicy]) ++
    ((List.range 5).flatMap fun index => [.step index none, .step index none]) ++
    [.step 0 none, .step 0 none, .notify 0 (some 4), .step 4 none] ++
    [1, 2, 3, 4].flatMap fun index =>
      List.replicate 5 (.step index (some answering)) ++ [.notify index none]

/-- The five loads end, and then no thread can go on. -/
theorem pool_drains_fiveLoads :
    ∃ last, RunFrom Monitor.Step Starts .created last ∧ last.callers.length = 5 ∧
      (∀ index, ¬ last.CanMove index) ∧ last.queue.length = poolSize := by
  have computed : (follow (fun _ => loads) Monitor.next .created fiveLoads).any
      (fun last => decide (last.callers.length = 5 ∧
        ∀ caller ∈ last.callers, caller.Finished)) = true := by
    decide +kernel
  obtain ⟨last, run, five, finished⟩ := exists_run_of_follow starts_of_loads computed
  obtain ⟨_, stuck, full⟩ := pool_drains run
  exact ⟨last, run, five, stuck.mpr finished, full finished⟩

end Casbinex.Adapter
