import Casbinex.Adapter.PgAdapter
import Casbinex.Program.Threads
import Mathlib.Data.List.Nodup
import Mathlib.Data.List.Perm.Basic

/-!
# The connection pool

Any number of threads run operations of the adapter on one pool.  An operation has
its locals on a stack: the guard that holds a connection, and the transactions and
the stream opened on it.  However it ends, its locals are destroyed from the innermost
one outwards, one in each step, while the other threads go on.
-/

namespace Casbinex.Adapter

open Casbinex.Program
open Casbinex.Program.Prog
open Casbinex.Sql

/-- A connection made by `createPool`, by its number. -/
abbrev Conn := Nat

def poolSize : Nat := 4

/-- What can be open on a connection. -/
inductive Use where
  | transaction
  | copy
  deriving DecidableEq, Repr

structure Pool where
  /-- `m_pool` -/
  queue : List Conn
  opened : Use → Conn → Bool

namespace Pool

/-- `PGPool::createPool` -/
def createPool : Pool := ⟨List.range poolSize, fun _ _ => false⟩

/-- `PGPool::freeConnection` -/
def freeConnection (pool : Pool) (conn : Conn) : Pool :=
  { pool with queue := pool.queue ++ [conn] }

def mark (pool : Pool) (use : Use) (conn : Conn) (value : Bool) : Pool :=
  { pool with
    opened := fun other c => if other = use ∧ c = conn then value else pool.opened other c }

end Pool

/-- A local of an operation. -/
inductive Local where
  /-- `PoolConnection c` -/
  | guard (conn : Conn)
  /-- `pqxx::work txn` or `pqxx::stream_to stream` -/
  | scope (use : Use) (conn : Conn)
  deriving DecidableEq

/-- What the destructor of a local does: the guard returns its connection, a transaction
that was not committed is aborted, a stream is ended. -/
def Local.destroy (pool : Pool) : Local → Pool
  | .guard conn => pool.freeConnection conn
  | .scope use conn => pool.mark use conn false

/-- The connection of the innermost guard. -/
def holder : List Local → Option Conn
  | [] => none
  | .guard conn :: _ => some conn
  | .scope _ _ :: outer => holder outer

/-- The operations of the adapter. -/
inductive PgOperation where
  | construct
  | loadPolicy
  | savePolicy (model : ModelPtr)
  | addPolicy (sec ptype : Bytes) (rule : Rule)
  | removePolicy (sec ptype : Bytes) (rule : Rule)
  | removeFilteredPolicy (sec ptype : Bytes) (fieldIndex : Int32) (fieldValues : List Bytes)

def PgOperation.program : PgOperation → AdapterProg Unit
  | .construct => Adapter.construct
  | .loadPolicy => Adapter.loadPolicy
  | .savePolicy model => Adapter.savePolicy model
  | .addPolicy sec ptype rule => Adapter.addPolicy sec ptype rule
  | .removePolicy sec ptype rule => Adapter.removePolicy sec ptype rule
  | .removeFilteredPolicy sec ptype fieldIndex fieldValues =>
      Adapter.removeFilteredPolicy sec ptype fieldIndex fieldValues

/-- A thread: its locals, the innermost first, and what is left of its operation;
nothing is left once it has returned or thrown. -/
structure Worker where
  locals : List Local
  rest : Option (AdapterProg Unit)

/-- A step of an operation that does not throw, on the pool and the locals.  An empty
queue lets the thread wait, and undefined behaviour is none of this system. -/
def settle : Instr → Pool → List Local → Option (Pool × List Local)
  | .checkout, pool, locals =>
      match pool.queue with
      | [] => none
      | conn :: queue => some ({ pool with queue := queue }, .guard conn :: locals)
  | .beginWork, pool, locals =>
      (holder locals).map fun conn =>
        (pool.mark .transaction conn true, .scope .transaction conn :: locals)
  | .openStream _ _, pool, locals =>
      (holder locals).map fun conn => (pool.mark .copy conn true, .scope .copy conn :: locals)
  | .complete, pool, locals =>
      (holder locals).map fun conn => (pool.mark .copy conn false, locals)
  | .commit, pool, locals =>
      (holder locals).map fun conn => (pool.mark .transaction conn false, locals)
  | .endWork, pool, innermost :: outer => some (innermost.destroy pool, outer)
  | .endWork, _, [] => none
  | .undefined _, _, _ => none
  | _, pool, locals => some (pool, locals)

/-- The threads on one pool.  In each step the environment lets the operation throw or
answers it. -/
def workers : System Pool Worker PgOperation (Option ((i : Instr) → i.Answer)) where
  spawn operation := ⟨[], some operation.program⟩
  advance choice pool worker :=
    match worker.rest, choice with
    | some (.op i _), none =>
        if i.databaseStep then some (pool, { worker with rest := none }) else none
    | some (.op i next), some answers =>
        (settle i pool worker.locals).map fun (after, locals) =>
          (after, ⟨locals, some (next (answers i))⟩)
    | some (.ret _), _ => some (pool, { worker with rest := none })
    | none, _ =>
        match worker.locals with
        | [] => none
        | innermost :: outer => some (innermost.destroy pool, ⟨outer, none⟩)

/-! ## What a step does to the pool and the locals -/

/-- The effects of a step of a thread. -/
inductive Effect (pool : Pool) (locals : List Local) : Pool → List Local → Prop
  | idle : Effect pool locals pool locals
  | take {conn : Conn} {queue : List Conn} (front : pool.queue = conn :: queue) :
      Effect pool locals { pool with queue := queue } (.guard conn :: locals)
  | enter (use : Use) {conn : Conn} (holds : holder locals = some conn) :
      Effect pool locals (pool.mark use conn true) (.scope use conn :: locals)
  | close (use : Use) (conn : Conn) : Effect pool locals (pool.mark use conn false) locals
  | leave {innermost : Local} {outer : List Local} (split : locals = innermost :: outer) :
      Effect pool locals (innermost.destroy pool) outer

theorem effect_of_settle {i : Instr} {pool after : Pool} {locals kept : List Local}
    (settled : settle i pool locals = some (after, kept)) : Effect pool locals after kept := by
  cases i with
  | checkout =>
      simp only [settle] at settled
      split at settled
      · cases settled
      · next conn queue front =>
          cases settled
          exact .take front
  | beginWork =>
      obtain ⟨conn, holds, same⟩ := Option.map_eq_some_iff.mp settled
      cases same
      exact .enter .transaction holds
  | openStream table columns =>
      obtain ⟨conn, holds, same⟩ := Option.map_eq_some_iff.mp settled
      cases same
      exact .enter .copy holds
  | complete =>
      obtain ⟨conn, holds, same⟩ := Option.map_eq_some_iff.mp settled
      cases same
      exact .close .copy conn
  | commit =>
      obtain ⟨conn, holds, same⟩ := Option.map_eq_some_iff.mp settled
      cases same
      exact .close .transaction conn
  | endWork =>
      cases locals with
      | nil => cases settled
      | cons innermost outer =>
          cases settled
          exact .leave rfl
  | undefined crash => cases settled
  | _ =>
      cases settled
      exact .idle

/-- Inversion: a step that throws or returns is idle; otherwise the operation settles
a step or one local is destroyed. -/
theorem effect_of_advance {choice : Option ((i : Instr) → i.Answer)} {pool after : Pool}
    {worker moved : Worker} (advanced : workers.advance choice pool worker = some (after, moved)) :
    Effect pool worker.locals after moved.locals := by
  obtain ⟨locals, rest⟩ := worker
  cases rest with
  | none =>
      cases locals with
      | nil => cases choice <;> cases advanced
      | cons innermost outer =>
          cases choice <;> cases advanced <;> exact .leave rfl
  | some program =>
      cases program with
      | ret value => cases choice <;> cases advanced <;> exact .idle
      | op i next =>
          cases choice with
          | none =>
              simp only [workers] at advanced
              split at advanced
              · cases advanced
                exact .idle
              · cases advanced
          | some answers =>
              obtain ⟨⟨changed, kept⟩, settled, same⟩ := Option.map_eq_some_iff.mp advanced
              cases same
              exact effect_of_settle settled

/-! ## Conservation -/

def Local.conn? : Local → Option Conn
  | .guard conn => some conn
  | .scope _ _ => none

/-- The connections held by the guards among the locals. -/
def guards (locals : List Local) : List Conn := locals.filterMap Local.conn?

def held (threads : List Worker) : List Conn := threads.flatMap fun worker => guards worker.locals

/-- What is opened on a connection is opened above the guard that holds it. -/
def Stacked : List Local → Prop
  | [] => True
  | .guard _ :: outer => Stacked outer
  | .scope _ conn :: outer => holder outer = some conn ∧ Stacked outer

theorem mem_guards_of_holder {locals : List Local} {conn : Conn}
    (holds : holder locals = some conn) : conn ∈ guards locals := by
  induction locals with
  | nil => cases holds
  | cons innermost outer ih =>
      cases innermost with
      | guard other =>
          cases holds
          exact List.mem_cons_self
      | scope use other => exact ih holds

theorem Stacked.mem_guards {locals : List Local} (stacked : Stacked locals) {use : Use}
    {conn : Conn} (member : .scope use conn ∈ locals) : conn ∈ guards locals := by
  induction locals with
  | nil => cases member
  | cons innermost outer ih =>
      cases innermost with
      | guard other =>
          have inside := (List.mem_cons.mp member).resolve_left (by simp)
          exact List.mem_cons_of_mem other (ih stacked inside)
      | scope opened other =>
          rcases List.mem_cons.mp member with same | inside
          · cases same
            exact mem_guards_of_holder stacked.1
          · exact ih stacked.2 inside

theorem held_split (front back : List Worker) (worker : Worker) :
    (held (front ++ worker :: back)).Perm (guards worker.locals ++ held (front ++ back)) :=
  (List.perm_middle.flatMap_right _ : (held (front ++ worker :: back)).Perm
    (held (worker :: (front ++ back))))

/-- Whether an operation holds a connection. -/
def Worker.holds (worker : Worker) : Bool := !(guards worker.locals).isEmpty

theorem countP_holds_le (threads : List Worker) :
    threads.countP Worker.holds ≤ (held threads).length := by
  induction threads with
  | nil => exact Nat.le_refl 0
  | cons worker more ih =>
      have split : (held (worker :: more)).length =
          (guards worker.locals).length + (held more).length := List.length_append
      rw [List.countP_cons, split]
      by_cases holds : worker.holds = true
      · have some : guards worker.locals ≠ [] := by
          simpa [Worker.holds] using holds
        have positive := List.length_pos_of_ne_nil some
        rw [if_pos holds]
        omega
      · rw [if_neg holds]
        omega

/-- The invariant: the queue and the guards have every connection once between them,
and whatever is open on a connection is the local of some thread. -/
structure Conserved (config : Config Pool Worker) : Prop where
  each : (config.shared.queue ++ held config.threads).Perm (List.range poolSize)
  stacked : ∀ worker ∈ config.threads, Stacked worker.locals
  covered : ∀ use conn, config.shared.opened use conn = true →
    ∃ worker ∈ config.threads, .scope use conn ∈ worker.locals

theorem conserved_createPool : Conserved ⟨Pool.createPool, []⟩ where
  each := by simp [Pool.createPool, held]
  stacked worker member := by cases member
  covered use conn opened := by cases opened

theorem conserved_start {pool : Pool} {threads : List Worker} (operation : PgOperation)
    (conserved : Conserved ⟨pool, threads⟩) :
    Conserved ⟨pool, threads ++ [workers.spawn operation]⟩ := by
  constructor
  · have nothing : held (threads ++ [workers.spawn operation]) = held threads := by
      simp [held, workers, guards]
    rw [nothing]
    exact conserved.each
  · exact forall_started conserved.stacked trivial
  · intro use conn opened
    obtain ⟨worker, member, inside⟩ := conserved.covered use conn opened
    exact ⟨worker, List.mem_append_left _ member, inside⟩

theorem Pool.opened_mark {pool : Pool} {use other : Use} {conn c : Conn} {value : Bool}
    (opened : (pool.mark use conn value).opened other c = true) :
    (other = use ∧ c = conn ∧ value = true) ∨
      (¬ (other = use ∧ c = conn) ∧ pool.opened other c = true) := by
  unfold Pool.mark at opened
  simp only at opened
  split at opened
  · next same => exact Or.inl ⟨same.1, same.2, opened⟩
  · next different => exact Or.inr ⟨different, opened⟩

/-- What a change of the pool and of one thread's locals carries over: the connections
between the two, and for whatever is open a local. -/
structure Carries (pool : Pool) (locals : List Local) (after : Pool) (kept : List Local) :
    Prop where
  each : (after.queue ++ guards kept).Perm (pool.queue ++ guards locals)
  stacked : Stacked kept
  covered : ∀ use conn, after.opened use conn = true → .scope use conn ∈ kept ∨
    (pool.opened use conn = true ∧ (.scope use conn ∈ locals → .scope use conn ∈ kept))

theorem carries_of_effect {pool after : Pool} {locals kept : List Local}
    (stacked : Stacked locals) (effect : Effect pool locals after kept) :
    Carries pool locals after kept := by
  cases effect with
  | idle => exact ⟨List.Perm.refl _, stacked, fun use conn opened => Or.inr ⟨opened, id⟩⟩
  | @take conn queue taken =>
      refine ⟨?_, stacked, fun use other opened => Or.inr ⟨opened, List.mem_cons_of_mem _⟩⟩
      rw [taken]
      exact List.perm_middle
  | @enter use conn holds =>
      refine ⟨List.Perm.refl _, ⟨holds, stacked⟩, fun other c opened => ?_⟩
      rcases Pool.opened_mark opened with ⟨rfl, rfl, _⟩ | ⟨_, already⟩
      · exact Or.inl List.mem_cons_self
      · exact Or.inr ⟨already, List.mem_cons_of_mem _⟩
  | close use conn =>
      refine ⟨List.Perm.refl _, stacked, fun other c opened => ?_⟩
      rcases Pool.opened_mark opened with ⟨_, _, false⟩ | ⟨_, already⟩
      · cases false
      · exact Or.inr ⟨already, id⟩
  | @leave innermost outer split =>
      subst split
      cases innermost with
      | guard conn =>
          refine ⟨List.Perm.of_eq ?_, stacked, fun use c opened => Or.inr ⟨opened, ?_⟩⟩
          · simp [Local.destroy, Pool.freeConnection, guards, Local.conn?]
          · intro member
            exact (List.mem_cons.mp member).resolve_left (by simp)
      | scope use conn =>
          refine ⟨List.Perm.refl _, stacked.2, fun other c opened => ?_⟩
          rcases Pool.opened_mark opened with ⟨_, _, false⟩ | ⟨different, already⟩
          · cases false
          · refine Or.inr ⟨already, fun member => ?_⟩
            refine (List.mem_cons.mp member).resolve_left ?_
            rintro same
            cases same
            exact different ⟨rfl, rfl⟩

/-- Step: one thread changes the pool and its locals, the others keep theirs. -/
theorem conserved_step {pool after : Pool} {front back : List Worker} {worker moved : Worker}
    (conserved : Conserved ⟨pool, front ++ worker :: back⟩)
    (carries : Carries pool worker.locals after moved.locals) :
    Conserved ⟨after, front ++ moved :: back⟩ := by
  constructor
  · refine ((held_split front back moved).append_left _).trans ?_
    refine List.Perm.trans ?_
      (((held_split front back worker).append_left _).symm.trans conserved.each)
    rw [← List.append_assoc, ← List.append_assoc]
    exact carries.each.append_right _
  · exact forall_replaced conserved.stacked carries.stacked
  · intro use conn opened
    rcases carries.covered use conn opened with inside | ⟨already, keeps⟩
    · exact ⟨moved, by simp, inside⟩
    · exact exists_replaced (conserved.covered use conn already) keeps

/-- Run: whatever the interleaving and wherever operations throw, the queue and the
guards have the connections of the pool between them, each once; no two operations
share one, at most `poolSize` hold one, and a connection in the queue is clean. -/
theorem pool_conserved {last : Config Pool Worker}
    (run : Reachable workers.Step ⟨Pool.createPool, []⟩ last) :
    (last.shared.queue ++ held last.threads).Perm (List.range poolSize) ∧
      last.threads.Pairwise (fun first second =>
        (guards first.locals).Disjoint (guards second.locals)) ∧
      last.threads.countP Worker.holds ≤ poolSize ∧
      ∀ conn ∈ last.shared.queue, ∀ use, last.shared.opened use conn = false := by
  have conserved : Conserved last := by
    refine workers.run_invariant Conserved ?_ ?_ conserved_createPool run
    · exact fun pool threads operation holds _ => conserved_start operation holds
    · exact fun pool front worker back choice after moved holds _ advanced =>
        conserved_step holds
          (carries_of_effect (holds.stacked worker (by simp)) (effect_of_advance advanced))
  have once : (last.shared.queue ++ held last.threads).Nodup :=
    conserved.each.nodup_iff.mpr List.nodup_range
  have apart := List.nodup_append.mp once
  refine ⟨conserved.each, (List.nodup_flatMap.mp apart.2.1).2, ?_, ?_⟩
  · have size := conserved.each.length_eq
    rw [List.length_append, List.length_range] at size
    have holders := countP_holds_le last.threads
    omega
  · intro conn inQueue use
    rw [← Bool.not_eq_true]
    intro opened
    obtain ⟨worker, member, inside⟩ := conserved.covered use conn opened
    have inGuards := (conserved.stacked worker member).mem_guards inside
    exact apart.2.2 conn inQueue conn (List.mem_flatMap.mpr ⟨worker, member, inGuards⟩) rfl

/-- Answers of the database for the run below. -/
def answering : (i : Instr) → i.Answer
  | .checkout => ()
  | .beginWork => ()
  | .esc field => field
  | .exec _ => []
  | .openStream _ _ => ()
  | .write _ => ()
  | .complete => ()
  | .commit => ()
  | .endWork => ()
  | .model _ => ∅
  | .undefined _ => ()

/-- Two operations: one has a transaction open when its next step throws, and is half
unwound when the other one takes its connection. -/
theorem pool_conserved_thrown :
    ∃ last, Reachable workers.Step ⟨Pool.createPool, []⟩ last ∧
      last.threads.map Worker.locals = [[.guard 0], [.guard 1]] ∧
      (last.shared.queue ++ held last.threads).Perm (List.range poolSize) := by
  have computed : (follow (fun _ _ => true) workers.next ⟨Pool.createPool, []⟩
      [.start .loadPolicy, .step 0 (some answering), .step 0 (some answering), .start .loadPolicy,
        .step 0 none, .step 0 none, .step 1 (some answering)]).any
      (fun last => decide (last.threads.map Worker.locals = [[.guard 0], [.guard 1]])) = true := by
    decide +kernel
  obtain ⟨last, run, locals⟩ := exists_run_of_follow (fun _ _ _ => trivial) computed
  exact ⟨last, run, locals, (pool_conserved run).1⟩

end Casbinex.Adapter
