import Casbinex.Adapter.Atomic
import Casbinex.Adapter.OneRelation

/-!
# The pool as a monitor

`connection` tests the queue and takes the front connection or sleeps; a thread that
was woken tests again.  `freeConnection` pushes under the mutex and notifies after it
has released it, so any number of steps of other threads may come between the two.
-/

namespace Casbinex.Adapter

open Casbinex.Program
open Casbinex.Program.Prog
open Casbinex.Sql

/-- Where a thread stands, with the connections that its guards hold, innermost first. -/
inductive Spot where
  | running (guards : List Conn) (rest : AdapterProg Unit)
  /-- In `m_condition.wait`. -/
  | asleep (guards : List Conn) (next : AdapterProg Unit)
  /-- Woken, about to test the queue again. -/
  | woken (guards : List Conn) (next : AdapterProg Unit)
  /-- The operation is over, the innermost guard is destroyed next. -/
  | leaving (guards : List Conn)
  /-- `freeConnection` has pushed and released the mutex, `notify_one` is still to come. -/
  | notifying (guards : List Conn)

def Spot.guards : Spot → List Conn
  | .running guards _ => guards
  | .asleep guards _ => guards
  | .woken guards _ => guards
  | .leaving guards => guards
  | .notifying guards => guards

/-- A thread and the operations that it has still to run. -/
structure Caller where
  spot : Spot
  todo : List PgOperation

namespace Caller

/-- A new thread. -/
def spawn (todo : List PgOperation) : Caller := ⟨.leaving [], todo⟩

def guards (caller : Caller) : List Conn := caller.spot.guards

def isAsleep (caller : Caller) : Bool :=
  match caller.spot with
  | .asleep _ _ => true
  | _ => false

def isWoken (caller : Caller) : Bool :=
  match caller.spot with
  | .woken _ _ => true
  | _ => false

def isNotifying (caller : Caller) : Bool :=
  match caller.spot with
  | .notifying _ => true
  | _ => false

end Caller

structure Monitor where
  /-- `m_pool` -/
  queue : List Conn
  callers : List Caller

/-- `PGPool::createPool`, before any thread is started. -/
def Monitor.created : Monitor := ⟨List.range poolSize, []⟩

/-- The test in `connection`: take the front connection or sleep. -/
def test (queue guards : List Conn) (next : AdapterProg Unit) : List Conn × Spot :=
  match queue with
  | [] => ([], .asleep guards next)
  | conn :: rest => (rest, .running (conn :: guards) next)

/-- A step of a thread on its own.  At a database step the environment lets the operation
throw or answers it; undefined behaviour goes on as the environment likes. -/
def Caller.step (choice : Option ((i : Instr) → i.Answer)) (queue : List Conn) (caller : Caller) :
    Option (List Conn × Caller) :=
  match caller.spot, choice with
  | .running guards (.op .checkout next), _ =>
      let (queue, spot) := test queue guards (next ())
      some (queue, { caller with spot := spot })
  | .running guards (.op i _), none =>
      if i.databaseStep then some (queue, { caller with spot := .leaving guards }) else none
  | .running guards (.op i next), some answers =>
      some (queue, { caller with spot := .running guards (next (answers i)) })
  | .running guards (.ret _), _ => some (queue, { caller with spot := .leaving guards })
  | .woken guards next, _ =>
      let (queue, spot) := test queue guards next
      some (queue, { caller with spot := spot })
  | .leaving (conn :: outer), _ =>
      some (queue ++ [conn], { caller with spot := .notifying outer })
  | .leaving [], _ =>
      match caller.todo with
      | [] => none
      | operation :: more => some (queue, ⟨.running [] operation.program, more⟩)
  | .asleep _ _, _ => none
  | .notifying _, _ => none

/-- `notify_one` is over for the thread that performs it. -/
def Caller.notified (caller : Caller) : Option Caller :=
  match caller.spot with
  | .notifying guards => some { caller with spot := .leaving guards }
  | _ => none

def Caller.wake (caller : Caller) : Option Caller :=
  match caller.spot with
  | .asleep guards next => some { caller with spot := .woken guards next }
  | _ => none

inductive Move where
  | start (todo : List PgOperation)
  | step (index : Nat) (choice : Option ((i : Instr) → i.Answer))
  /-- `notify_one` of a thread wakes a sleeper, if there is one. -/
  | notify (index : Nat) (sleeper : Option Nat)
  | spurious (sleeper : Nat)

/-- The thread that takes the step. -/
def Move.mover : Move → Option Nat
  | .step index _ => some index
  | .notify index _ => some index
  | _ => none

namespace Monitor

def wake (monitor : Monitor) (sleeper : Nat) : Option Monitor := do
  let caller ← monitor.callers[sleeper]?
  let woken ← caller.wake
  return { monitor with callers := monitor.callers.set sleeper woken }

def notified (monitor : Monitor) (index : Nat) : Option Monitor := do
  let caller ← monitor.callers[index]?
  let past ← caller.notified
  return { monitor with callers := monitor.callers.set index past }

def next (monitor : Monitor) : Move → Option Monitor
  | .start todo => some { monitor with callers := monitor.callers ++ [Caller.spawn todo] }
  | .step index choice => do
      let caller ← monitor.callers[index]?
      let (queue, moved) ← caller.step choice monitor.queue
      return ⟨queue, monitor.callers.set index moved⟩
  | .notify index (some sleeper) => (monitor.notified index).bind fun after => after.wake sleeper
  | .notify index none =>
      if monitor.callers.any Caller.isAsleep then none else monitor.notified index
  | .spurious sleeper => monitor.wake sleeper

def Step (monitor : Monitor) (move : Move) (after : Monitor) : Prop :=
  monitor.next move = some after

end Monitor

/-! ## What an operation does with connections -/

def Instr.checksOut : Instr → Bool
  | .checkout => true
  | _ => false

/-- No connection is taken. -/
def TakesNone (rest : AdapterProg Unit) : Prop := Within (fun i => i.checksOut = false) rest

/-- A connection is taken first and never again, or not at all. -/
def TakesOne : AdapterProg Unit → Prop
  | .ret _ => True
  | .op .checkout next => TakesNone (next ())
  | .op _ _ => False

theorem checksOut_of_builds (i : Instr) (builds : i.builds = true) : i.checksOut = false := by
  cases i with
  | checkout => cases builds
  | _ => rfl

theorem checksOut_of_streams (i : Instr) (streams : i.streams = true) : i.checksOut = false := by
  cases i with
  | checkout => cases streams
  | _ => rfl

theorem checksOut_of_onModel (i : Instr) (step : i.onModel) : i.checksOut = false := by
  cases i with
  | model change => rfl
  | _ => cases step

theorem takesOne_transaction {build : AdapterProg Bytes}
    (builds : Within (fun i => i.builds = true) build) : TakesOne (transaction build) :=
  ⟨rfl, fun _ => (builds.mono checksOut_of_builds).bind fun _ =>
    ⟨rfl, fun _ => ⟨rfl, fun _ => trivial⟩⟩⟩

theorem takesNone_migration (query : Bytes) : TakesNone (migration query) :=
  ⟨rfl, fun _ => ⟨rfl, fun _ => ⟨rfl, fun _ => ⟨rfl, fun _ => trivial⟩⟩⟩⟩

theorem takesOne_program (operation : PgOperation) : TakesOne operation.program := by
  cases operation with
  | construct =>
      change TakesNone runMigrations
      rw [runMigrations_eq]
      refine ⟨rfl, fun _ => ⟨rfl, fun r => ⟨rfl, fun _ => ?_⟩⟩⟩
      change TakesNone (migrate r.length)
      unfold migrate
      refine Within.bind ?_ fun _ => Within.bind ?_ fun _ => ⟨rfl, fun _ => trivial⟩
      · split
        · exact takesNone_migration createQuery
        · trivial
      · split
        · exact takesNone_migration addV6Query
        · trivial
  | loadPolicy =>
      refine ⟨rfl, fun _ => ⟨rfl, fun rows => ⟨rfl, fun _ => ?_⟩⟩⟩
      exact (onModel_loadLoop rows).mono checksOut_of_onModel
  | savePolicy model =>
      cases model with
      | null => trivial
      | live =>
          have streams (sec : Bytes) : TakesNone (saveSection sec) :=
            (streams_saveSection sec).mono checksOut_of_streams
          refine ⟨rfl, fun _ => ⟨rfl, fun _ => ⟨rfl, fun _ => ?_⟩⟩⟩
          exact (streams _).bind fun _ => (streams _).bind fun _ =>
            ⟨rfl, fun _ => ⟨rfl, fun _ => trivial⟩⟩
  | addPolicy sec ptype rule =>
      change TakesOne (addPolicy sec ptype rule)
      rw [addPolicy_eq]
      exact takesOne_transaction (within_buildInsert ptype rule)
  | removePolicy sec ptype rule =>
      change TakesOne (removePolicy sec ptype rule)
      rw [removePolicy_eq]
      exact takesOne_transaction (within_buildMatch ptype rule)
  | removeFilteredPolicy sec ptype fieldIndex fieldValues =>
      change TakesOne (removeFilteredPolicy sec ptype fieldIndex fieldValues)
      rw [removeFilteredPolicy_eq]
      exact takesOne_transaction (within_buildFilter ptype fieldIndex fieldValues)

/-! ## The invariant -/

/-- A thread that waits for a connection holds none, and a thread that holds one takes no
other. -/
def Spot.Single : Spot → Prop
  | .running [] rest => TakesOne rest ∨ TakesNone rest
  | .running (_ :: _) rest => TakesNone rest
  | .asleep guards next => guards = [] ∧ TakesNone next
  | .woken guards next => guards = [] ∧ TakesNone next
  | .leaving _ => True
  | .notifying _ => True

def Monitor.held (monitor : Monitor) : List Conn := monitor.callers.flatMap Caller.guards

/-- The pending `notify_one` steps and the woken threads that have not tested again. -/
def Monitor.heralds (monitor : Monitor) : Nat :=
  monitor.callers.countP Caller.isNotifying + monitor.callers.countP Caller.isWoken

/-- The queue and the guards have all connections, and if a thread sleeps, every queued
connection has its herald; within a `notify_one` one herald may be missing. -/
structure Fair (missing : Nat) (monitor : Monitor) : Prop where
  single : ∀ caller ∈ monitor.callers, caller.spot.Single
  each : monitor.queue.length + monitor.held.length = poolSize
  heard : 0 < monitor.callers.countP Caller.isAsleep →
    monitor.queue.length ≤ monitor.heralds + missing

section

variable {queue after : List Conn} {callers : List Caller} {caller moved : Caller} {index : Nat}

/-- One thread moves: either a herald comes with each connection that is queued, or the
queue is empty, or nobody sleeps. -/
theorem Fair.move {before later : Nat} (fair : Fair before ⟨queue, callers⟩)
    (found : callers[index]? = some caller) (single : moved.spot.Single)
    (each : after.length + moved.guards.length = queue.length + caller.guards.length)
    (heard : after = [] ∨ callers.countP Caller.isAsleep + moved.isAsleep.toNat = 0 ∨
      (moved.isAsleep = true → caller.isAsleep = true) ∧
      after.length + caller.isNotifying.toNat + caller.isWoken.toNat + before ≤
        queue.length + moved.isNotifying.toNat + moved.isWoken.toNat + later) :
    Fair later ⟨after, callers.set index moved⟩ := by
  have guards := length_flatMap_replaced Caller.guards found moved
  have asleep := countP_replaced Caller.isAsleep found moved
  have notifying := countP_replaced Caller.isNotifying found moved
  have woken := countP_replaced Caller.isWoken found moved
  have total := fair.each
  have known := fair.heard
  simp only [Monitor.held, Monitor.heralds] at total known
  refine ⟨forall_set fair.single single, ?_, fun sleeps => ?_⟩
  · simp only [Monitor.held]
    omega
  · simp only [Monitor.heralds] at sleeps ⊢
    rcases heard with rfl | nobody | ⟨rouses, heralded⟩
    · exact Nat.zero_le _
    · omega
    · have fewer : moved.isAsleep.toNat ≤ caller.isAsleep.toNat := by
        cases now : moved.isAsleep with
        | false => exact Nat.zero_le _
        | true => rw [rouses now]
      have enough := known (by omega)
      omega

/-- A thread that holds nothing tests the queue. -/
theorem Fair.test (fair : Fair 0 ⟨queue, callers⟩) (found : callers[index]? = some caller)
    {next : AdapterProg Unit} (none : TakesNone next) (empty : caller.guards = [])
    (notNotifying : caller.isNotifying = false)
    (tested : moved.spot = (Adapter.test queue [] next).2) :
    Fair 0 ⟨(Adapter.test queue [] next).1, callers.set index moved⟩ := by
  cases queue with
  | nil =>
      refine fair.move found ?_ ?_ (Or.inl rfl)
      · rw [tested]
        exact ⟨rfl, none⟩
      · rw [Caller.guards, tested, empty]
        rfl
  | cons conn rest =>
      have awake : moved.isAsleep = false := by rw [Caller.isAsleep, tested]; rfl
      have quiet : moved.isNotifying = false ∧ moved.isWoken = false := by
        rw [Caller.isNotifying, Caller.isWoken, tested]
        exact ⟨rfl, rfl⟩
      refine fair.move found ?_ ?_ (Or.inr (Or.inr ⟨?_, ?_⟩))
      · rw [tested]
        exact none
      · rw [Caller.guards, tested, empty]
        simp [Adapter.test, Spot.guards]
      · rw [awake]
        exact nofun
      · rw [notNotifying, quiet.1, quiet.2]
        have one := caller.isWoken.toNat_le
        simp [Adapter.test]
        omega

/-- A step of an operation other than the test of the queue. -/
theorem step_running {i : Instr} (apart : i.checksOut = false) {guards : List Conn}
    (next : i.Answer → AdapterProg Unit) (todo : List PgOperation)
    (choice : Option ((i : Instr) → i.Answer)) (queue : List Conn) :
    Caller.step choice queue ⟨.running guards (.op i next), todo⟩ =
      match choice with
      | none => if i.databaseStep then some (queue, ⟨.leaving guards, todo⟩) else none
      | some answers => some (queue, ⟨.running guards (next (answers i)), todo⟩) := by
  cases i with
  | checkout => cases apart
  | _ => cases choice <;> rfl

theorem single_next {i : Instr} (apart : i.checksOut = false) {guards : List Conn}
    {next : i.Answer → AdapterProg Unit} (single : (Spot.running guards (.op i next)).Single)
    (answer : i.Answer) : (Spot.running guards (next answer)).Single := by
  cases guards with
  | cons conn outer => exact single.2 answer
  | nil =>
      rcases single with takesOne | takesNone
      · cases i with
        | checkout => cases apart
        | _ => exact absurd takesOne id
      · exact Or.inr (takesNone.2 answer)

/-- A thread that is about to test the queue holds nothing and takes nothing after. -/
theorem single_checkout {guards : List Conn} {next : Unit → AdapterProg Unit}
    (single : (Spot.running guards (.op .checkout next)).Single) :
    guards = [] ∧ TakesNone (next ()) := by
  cases guards with
  | cons conn outer => cases single.1
  | nil =>
      rcases single with takesOne | takesNone
      · exact ⟨rfl, takesOne⟩
      · cases takesNone.1

/-- A step that moves no connection and neither starts nor ends a wait. -/
theorem Fair.proceed {guards : List Conn} {rest : AdapterProg Unit} {todo : List PgOperation}
    (fair : Fair 0 ⟨queue, callers⟩) (found : callers[index]? = some ⟨.running guards rest, todo⟩)
    (single : moved.spot.Single) (keeps : moved.guards = guards)
    (quiet : moved.isAsleep = false) : Fair 0 ⟨queue, callers.set index moved⟩ := by
  refine fair.move found single ?_ (Or.inr (Or.inr ⟨?_, ?_⟩))
  · rw [keeps]
    rfl
  · rw [quiet]
    exact nofun
  · simp only [Caller.isNotifying, Caller.isWoken, Bool.toNat_false]
    omega

/-- An operation takes a step other than the test of the queue, or throws there. -/
theorem Fair.operate {i : Instr} (apart : i.checksOut = false) {guards : List Conn}
    {next : i.Answer → AdapterProg Unit} {todo : List PgOperation}
    (fair : Fair 0 ⟨queue, callers⟩)
    (found : callers[index]? = some ⟨.running guards (.op i next), todo⟩)
    {choice : Option ((i : Instr) → i.Answer)}
    (stepped : Caller.step choice queue ⟨.running guards (.op i next), todo⟩ =
      some (after, moved)) : Fair 0 ⟨after, callers.set index moved⟩ := by
  have single := fair.single _ (List.mem_of_getElem? found)
  rw [step_running apart] at stepped
  cases choice with
  | none =>
      dsimp only at stepped
      split at stepped
      · cases stepped
        exact fair.proceed found trivial rfl rfl
      · cases stepped
  | some answers =>
      cases stepped
      exact fair.proceed found (single_next apart single _) rfl rfl

/-- A guard queues its connection, and `notify_one` is to come. -/
theorem Fair.release {conn : Conn} {outer : List Conn} {todo : List PgOperation}
    (fair : Fair 0 ⟨queue, callers⟩)
    (found : callers[index]? = some ⟨.leaving (conn :: outer), todo⟩) :
    Fair 0 ⟨queue ++ [conn], callers.set index ⟨.notifying outer, todo⟩⟩ := by
  refine fair.move found trivial ?_ (Or.inr (Or.inr ⟨nofun, ?_⟩))
  · simp [Caller.guards, Spot.guards]
    omega
  · simp [Caller.isNotifying, Caller.isWoken]

/-- Step: a thread takes a step of its own. -/
theorem Fair.step (fair : Fair 0 ⟨queue, callers⟩) (found : callers[index]? = some caller)
    {choice : Option ((i : Instr) → i.Answer)}
    (stepped : caller.step choice queue = some (after, moved)) :
    Fair 0 ⟨after, callers.set index moved⟩ := by
  have single := fair.single caller (List.mem_of_getElem? found)
  obtain ⟨spot, todo⟩ := caller
  cases spot with
  | asleep guards next => cases stepped
  | notifying guards => cases stepped
  | woken guards next =>
      obtain ⟨rfl, none⟩ := single
      cases stepped
      exact fair.test found none rfl rfl rfl
  | leaving guards =>
      cases guards with
      | cons conn outer =>
          cases stepped
          exact fair.release found
      | nil =>
          cases todo with
          | nil => cases stepped
          | cons operation more =>
              cases stepped
              exact fair.move found (Or.inl (takesOne_program operation)) rfl
                (Or.inr (Or.inr ⟨nofun, Nat.le_refl _⟩))
  | running guards rest =>
      cases rest with
      | ret value =>
          cases stepped
          exact fair.proceed found trivial rfl rfl
      | op i next =>
          cases checks : i.checksOut with
          | false => exact fair.operate checks found stepped
          | true =>
              cases i with
              | checkout =>
                  obtain ⟨rfl, none⟩ := single_checkout single
                  cases stepped
                  exact fair.test found none rfl rfl rfl
              | _ => cases checks

theorem wake_cases {caller woken : Caller} (wakes : caller.wake = some woken) :
    ∃ guards next, caller.spot = .asleep guards next ∧
      woken = { caller with spot := .woken guards next } := by
  unfold Caller.wake at wakes
  split at wakes
  · next guards next asleep => exact ⟨guards, next, asleep, (Option.some.inj wakes).symm⟩
  · cases wakes

end

section

variable {monitor after : Monitor} {index sleeper : Nat}

/-- A thread whose `notify_one` is over goes on to leave. -/
theorem notified_cases (done : monitor.notified index = some after) :
    ∃ caller guards, monitor.callers[index]? = some caller ∧ caller.spot = .notifying guards ∧
      after = { monitor with
        callers := monitor.callers.set index { caller with spot := .leaving guards } } := by
  obtain ⟨caller, found, rest⟩ := Option.bind_eq_some_iff.mp done
  obtain ⟨past, ends, ended⟩ := Option.bind_eq_some_iff.mp rest
  cases ended
  unfold Caller.notified at ends
  split at ends
  · next guards notifying =>
      cases ends
      exact ⟨caller, guards, found, notifying, rfl⟩
  · cases ends

/-- A thread that wakes makes up for a missing herald. -/
theorem Fair.wake {missing : Nat} (fair : Fair missing monitor)
    (wakes : monitor.wake sleeper = some after) : Fair (missing - 1) after := by
  obtain ⟨caller, found, rest⟩ := Option.bind_eq_some_iff.mp wakes
  obtain ⟨woken, rouses, ended⟩ := Option.bind_eq_some_iff.mp rest
  cases ended
  have single := fair.single caller (List.mem_of_getElem? found)
  obtain ⟨guards, next, asleep, rfl⟩ := wake_cases rouses
  rw [asleep] at single
  refine fair.move found single ?_ (Or.inr (Or.inr ⟨nofun, ?_⟩))
  · rw [Caller.guards, Caller.guards, asleep]
    rfl
  · simp only [Caller.isNotifying, Caller.isWoken, asleep, Bool.toNat_false, Bool.toNat_true]
    omega

/-- A `notify_one` takes its herald away. -/
theorem Fair.notified (fair : Fair 0 monitor) (done : monitor.notified index = some after) :
    Fair 1 after := by
  obtain ⟨caller, guards, found, notifying, rfl⟩ := notified_cases done
  refine fair.move found trivial ?_ (Or.inr (Or.inr ⟨nofun, ?_⟩))
  · rw [Caller.guards, Caller.guards, notifying]
    rfl
  · simp [Caller.isNotifying, Caller.isWoken, notifying]

/-- Nobody misses it where nobody sleeps. -/
theorem Fair.notifiedNobody (fair : Fair 0 monitor)
    (nobody : ¬ monitor.callers.any Caller.isAsleep = true)
    (done : monitor.notified index = some after) : Fair 0 after := by
  obtain ⟨caller, guards, found, notifying, rfl⟩ := notified_cases done
  refine fair.move found trivial ?_ (Or.inr (Or.inl ?_))
  · rw [Caller.guards, Caller.guards, notifying]
    rfl
  · have none : monitor.callers.countP Caller.isAsleep = 0 := by
      rw [List.countP_eq_zero]
      exact fun other member sleeps => nobody (List.any_eq_true.mpr ⟨other, member, sleeps⟩)
    rw [none]
    rfl

theorem fair_created : Fair 0 Monitor.created where
  single caller member := by cases member
  each := by simp [Monitor.created, Monitor.held]
  heard sleeps := absurd sleeps (Nat.lt_irrefl 0)

/-- A new thread holds nothing and waits for nothing. -/
theorem countP_started (todo : List PgOperation) (check : Caller → Bool)
    (idle : check (Caller.spawn todo) = false) (callers : List Caller) :
    (callers ++ [Caller.spawn todo]).countP check = callers.countP check := by
  rw [List.countP_append, List.countP_singleton, idle]
  rfl

theorem Fair.start (fair : Fair 0 monitor) (todo : List PgOperation) :
    Fair 0 { monitor with callers := monitor.callers ++ [Caller.spawn todo] } := by
  refine ⟨forall_started fair.single trivial, ?_, fun sleeps => ?_⟩
  · have same : (monitor.callers ++ [Caller.spawn todo]).flatMap Caller.guards = monitor.held := by
      simp [Monitor.held, Caller.guards, Spot.guards, Caller.spawn]
    rw [Monitor.held, same]
    exact fair.each
  · rw [countP_started todo Caller.isAsleep rfl] at sleeps
    rw [Monitor.heralds, countP_started todo Caller.isNotifying rfl,
      countP_started todo Caller.isWoken rfl]
    exact fair.heard sleeps

/-- Step: every move keeps the monitor fair. -/
theorem Fair.next (fair : Fair 0 monitor) {move : Move} (stepped : monitor.Step move after) :
    Fair 0 after := by
  cases move with
  | start todo =>
      cases stepped
      exact fair.start todo
  | step index choice =>
      obtain ⟨caller, found, rest⟩ := Option.bind_eq_some_iff.mp stepped
      obtain ⟨⟨queue, moved⟩, advanced, ended⟩ := Option.bind_eq_some_iff.mp rest
      cases ended
      exact fair.step found advanced
  | notify index waiter =>
      cases waiter with
      | some sleeper =>
          obtain ⟨middle, done, wakes⟩ := Option.bind_eq_some_iff.mp stepped
          exact (fair.notified done).wake wakes
      | none =>
          simp only [Monitor.Step, Monitor.next] at stepped
          split at stepped
          · cases stepped
          · next nobody => exact fair.notifiedNobody nobody stepped
  | spurious sleeper => exact fair.wake stepped

/-! ## Somebody can go on -/

/-- The thread can take a step now. -/
def Monitor.CanMove (monitor : Monitor) (index : Nat) : Prop :=
  ∃ move after, move.mover = some index ∧ monitor.Step move after

theorem canMove_of_step {caller : Caller} (found : monitor.callers[index]? = some caller)
    {choice : Option ((i : Instr) → i.Answer)}
    (steps : (caller.step choice monitor.queue).isSome = true) : monitor.CanMove index := by
  obtain ⟨⟨queue, moved⟩, advanced⟩ := Option.isSome_iff_exists.mp steps
  refine ⟨.step index choice, ⟨queue, monitor.callers.set index moved⟩, rfl, ?_⟩
  simp only [Monitor.Step, Monitor.next, found, Option.bind_some, advanced, bind, pure]

/-- A thread that holds a connection or was woken takes a step of its own. -/
theorem step_isSome {caller : Caller} (awake : caller.isAsleep = false)
    (quiet : caller.isNotifying = false)
    (busy : caller.guards ≠ [] ∨ caller.isWoken = true) (queue : List Conn) :
    (caller.step (some answering) queue).isSome = true := by
  obtain ⟨spot, todo⟩ := caller
  cases spot with
  | asleep guards next => cases awake
  | notifying guards => cases quiet
  | woken guards next => rfl
  | leaving guards =>
      cases guards with
      | cons conn outer => rfl
      | nil =>
          rcases busy with some | woken
          · exact absurd rfl some
          · cases woken
  | running guards rest =>
      cases rest with
      | ret value => rfl
      | op i next => cases i <;> rfl

theorem awake_of_notifying {caller : Caller} (notifying : caller.isNotifying = true) :
    caller.isAsleep = false := by
  obtain ⟨spot, todo⟩ := caller
  cases spot with
  | notifying guards => rfl
  | _ => cases notifying

theorem awake_of_woken {caller : Caller} (woken : caller.isWoken = true) :
    caller.isAsleep = false := by
  obtain ⟨spot, todo⟩ := caller
  cases spot with
  | woken guards next => rfl
  | _ => cases woken

/-- Without a pending `notify_one`, a sleeping thread leaves a woken thread or a holder. -/
theorem Fair.exists_busy (fair : Fair 0 monitor)
    (sleeps : 0 < monitor.callers.countP Caller.isAsleep)
    (quiet : ¬ ∃ caller ∈ monitor.callers, caller.isNotifying = true) :
    ∃ caller ∈ monitor.callers, caller.isAsleep = false ∧
      (caller.guards ≠ [] ∨ caller.isWoken = true) := by
  by_cases wakes : ∃ caller ∈ monitor.callers, caller.isWoken = true
  · obtain ⟨caller, member, woken⟩ := wakes
    exact ⟨caller, member, awake_of_woken woken, Or.inr woken⟩
  · have heard := fair.heard sleeps
    have total := fair.each
    rw [Monitor.heralds, List.countP_eq_zero.mpr fun caller member notifying =>
        quiet ⟨caller, member, notifying⟩,
      List.countP_eq_zero.mpr fun caller member woken => wakes ⟨caller, member, woken⟩] at heard
    have positive : 0 < monitor.held.length := by
      have four : poolSize = 4 := rfl
      omega
    obtain ⟨conn, member⟩ := List.exists_mem_of_length_pos positive
    obtain ⟨caller, inCallers, holds⟩ := List.mem_flatMap.mp member
    have some : caller.guards ≠ [] := List.ne_nil_of_mem holds
    refine ⟨caller, inCallers, ?_, Or.inl some⟩
    have single := fair.single caller inCallers
    obtain ⟨spot, todo⟩ := caller
    cases spot with
    | asleep guards next => exact absurd single.1 some
    | _ => rfl

/-- A thread that is about to notify wakes a sleeper. -/
theorem canMove_of_notifying {caller waiter : Caller}
    (found : monitor.callers[index]? = some caller) (notifying : caller.isNotifying = true)
    (foundWaiter : monitor.callers[sleeper]? = some waiter) (asleep : waiter.isAsleep = true) :
    monitor.CanMove index := by
  obtain ⟨spot, todo⟩ := caller
  obtain ⟨waits, later⟩ := waiter
  cases spot with
  | notifying guards =>
      cases waits with
      | asleep none next =>
          have apart : index ≠ sleeper := by
            rintro rfl
            rw [found] at foundWaiter
            cases foundWaiter
          have waiting : (monitor.callers.set index ⟨.leaving guards, todo⟩)[sleeper]? =
              some ⟨.asleep none next, later⟩ := by
            rw [List.getElem?_set_ne apart]
            exact foundWaiter
          refine ⟨.notify index (some sleeper), ⟨monitor.queue, (monitor.callers.set index
            ⟨.leaving guards, todo⟩).set sleeper ⟨.woken none next, later⟩⟩, rfl, ?_⟩
          simp only [Monitor.Step, Monitor.next, Monitor.notified, Monitor.wake, found,
            Caller.notified, Caller.wake, waiting, bind, pure, Option.bind_some]
      | _ => cases asleep
  | _ => cases notifying

/-- Where a thread sleeps, another one can go on. -/
theorem Fair.canMove (fair : Fair 0 monitor) {waiter : Caller}
    (foundWaiter : monitor.callers[sleeper]? = some waiter) (asleep : waiter.isAsleep = true) :
    ∃ index, index ≠ sleeper ∧ monitor.CanMove index := by
  have sleeps : 0 < monitor.callers.countP Caller.isAsleep :=
    List.countP_pos_iff.mpr ⟨waiter, List.mem_of_getElem? foundWaiter, asleep⟩
  have other {index : Nat} {caller : Caller} (found : monitor.callers[index]? = some caller)
      (awake : caller.isAsleep = false) : index ≠ sleeper := by
    rintro rfl
    rw [found, Option.some.injEq] at foundWaiter
    rw [← foundWaiter, awake] at asleep
    cases asleep
  by_cases notifies : ∃ caller ∈ monitor.callers, caller.isNotifying = true
  · obtain ⟨caller, member, notifying⟩ := notifies
    obtain ⟨index, found⟩ := List.getElem?_of_mem member
    exact ⟨index, other found (awake_of_notifying notifying),
      canMove_of_notifying found notifying foundWaiter asleep⟩
  · -- no `notify_one` is pending: a woken thread or a holder goes on
    obtain ⟨caller, member, awake, busy⟩ := fair.exists_busy sleeps notifies
    obtain ⟨index, found⟩ := List.getElem?_of_mem member
    have quiet : caller.isNotifying = false := by
      rw [← Bool.not_eq_true]
      exact fun notifying => notifies ⟨caller, member, notifying⟩
    exact ⟨index, other found awake, canMove_of_step found (step_isSome awake quiet busy _)⟩

end

/-- No lost wake-up and no deadlock: in every state reached, if a thread sleeps, the
queued connections are at most as many as the pending `notify_one` steps and the woken
threads that have not tested again, and some other thread can take a step. -/
theorem no_lost_wakeup {last : Monitor} (run : Reachable Monitor.Step .created last) :
    (0 < last.callers.countP Caller.isAsleep → last.queue.length ≤
      last.callers.countP Caller.isNotifying + last.callers.countP Caller.isWoken) ∧
    ∀ sleeper caller, last.callers[sleeper]? = some caller → caller.isAsleep = true →
      ∃ index, index ≠ sleeper ∧ last.CanMove index := by
  have fair : Fair 0 last := run.invariant fair_created fun _ _ _ fair _ stepped =>
    fair.next stepped
  exact ⟨fair.heard, fun sleeper caller found asleep => fair.canMove found asleep⟩

/-- Four threads hold the connections and a fifth one sleeps. -/
theorem no_lost_wakeup_fifth :
    ∃ last, Reachable Monitor.Step .created last ∧ last.queue = [] ∧
      last.callers.map Caller.isAsleep = [false, false, false, false, true] ∧
      ∃ index, index ≠ 4 ∧ last.CanMove index := by
  have computed : (follow (fun _ _ => true) Monitor.next .created
      ((List.replicate 5 (.start [.loadPolicy])) ++
        (List.range 5).flatMap fun index => [.step index none, .step index none])).any
      (fun last => decide (last.queue = [] ∧
        last.callers.map Caller.isAsleep = [false, false, false, false, true])) = true := by
    decide +kernel
  obtain ⟨last, run, empty, sleeping⟩ := exists_run_of_follow (fun _ _ _ => trivial) computed
  refine ⟨last, run, empty, sleeping, ?_⟩
  have fifth : (last.callers.map Caller.isAsleep)[4]? = some true := by
    rw [sleeping]
    rfl
  rw [List.getElem?_map] at fifth
  obtain ⟨caller, found, asleep⟩ := Option.map_eq_some_iff.mp fifth
  exact (no_lost_wakeup run).2 4 caller found asleep

end Casbinex.Adapter
