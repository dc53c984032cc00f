import Casbinex.Nif.Arguments
import Casbinex.Program.Threads

/-!
# Who owns the global enforcer

One pointer denotes the enforcer, and no lock guards it.  `CreateEnforcer` constructs
an enforcer and then assigns the pointer, `DestroyEnforcer` tests it, deletes what it
denotes and then sets it to null, and every other entry point tests it and then calls
what it denotes.
-/

namespace Casbinex.Nif

open Casbinex.Program
open Casbinex.Program.Prog

/-- What can go wrong at a step. -/
inductive Misuse where
  /-- A method is called on an enforcer that was deleted. -/
  | usedAfterDelete (id : Nat)
  | deletedTwice (id : Nat)
  /-- A method is called through the null pointer. -/
  | usedNull
  deriving DecidableEq, Repr

/-- The global pointer, the live enforcers by their numbers, and what went wrong so far. -/
structure Heap where
  pointer : Option Nat
  live : List Nat
  next : Nat
  misuses : List Misuse
  deriving DecidableEq

namespace Heap

def empty : Heap := ⟨none, [], 0, []⟩

/-- `new casbin::CachedEnforcer(...)` -/
def construct (heap : Heap) : Heap :=
  { heap with live := heap.next :: heap.live, next := heap.next + 1 }

/-- `enforcer = ...` -/
def assign (heap : Heap) (value : Option Nat) : Heap := { heap with pointer := value }

/-- `enforcer->...` -/
def use (heap : Heap) : Heap :=
  match heap.pointer with
  | none => { heap with misuses := .usedNull :: heap.misuses }
  | some id =>
      if id ∈ heap.live then heap
      else { heap with misuses := .usedAfterDelete id :: heap.misuses }

/-- `delete enforcer` -/
def delete (heap : Heap) : Heap :=
  match heap.pointer with
  | none => heap
  | some id =>
      if id ∈ heap.live then { heap with live := heap.live.erase id }
      else { heap with misuses := .deletedTwice id :: heap.misuses }

/-- The pointer denotes an enforcer that was deleted. -/
def Dangling (heap : Heap) : Prop := ∃ id ∈ heap.pointer, id ∉ heap.live

instance (heap : Heap) : Decidable heap.Dangling :=
  inferInstanceAs (Decidable (∃ id ∈ heap.pointer, id ∉ heap.live))

end Heap

/-- How far a call has come; `create` and `destroy` take several steps. -/
inductive Stage where
  | running (rest : NifProg Reply)
  /-- The enforcer is constructed, the pointer not yet assigned. -/
  | constructed (id : Nat) (rest : NifProg Reply)
  /-- The pointer was not null. -/
  | deleting (rest : NifProg Reply)
  /-- The pointer is about to be set to null. -/
  | clearing (rest : NifProg Reply)

/-- The outcome of a construction and the answers of the methods. -/
abbrev Answers := (i : Instr) → i.Answer

/-- The first step of an operation. -/
def begins (answers : Answers) (heap : Heap) :
    (i : Instr) → (i.Answer → NifProg Reply) → Heap × Stage
  | .created, next => (heap, .running (next heap.pointer.isSome))
  | .create modelPath storage, next =>
      match answers (.create modelPath storage) with
      | .ok () => (heap.construct, .constructed heap.next (next (.ok ())))
      | .error thrown => (heap, .running (next (.error thrown)))
  | .destroy, next =>
      (heap, if heap.pointer.isSome then .deleting (next ()) else .clearing (next ()))
  | i, next => (heap.use, .running (next (answers i)))

/-- Any number of processes call the entry points. -/
def callers : System Heap Stage Call Answers where
  spawn call := .running call.program
  advance answers heap
    | .running (.ret _) => none
    | .running (.op i next) => some (begins answers heap i next)
    | .constructed id rest => some (heap.assign (some id), .running rest)
    | .deleting rest => some (heap.delete, .clearing rest)
    | .clearing rest => some (heap.assign none, .running rest)

/-- The operations that call what the pointer denotes. -/
def Instr.isMethod : Instr → Bool
  | .created => false
  | .create _ _ => false
  | .destroy => false
  | _ => true

namespace Stage

/-- The call is about to use the enforcer that its test has found. -/
def uses : Stage → Bool
  | .running (.op i _) => i.isMethod
  | .deleting _ => true
  | _ => false

def clears : Stage → Bool
  | .clearing _ => true
  | _ => false

/-- `DestroyEnforcer` stands between its test and its assignment. -/
def destroys : Stage → Bool
  | .deleting _ => true
  | .clearing _ => true
  | _ => false

/-- The enforcer that is still to be assigned. -/
def pending : Stage → Option Nat
  | .constructed id _ => some id
  | _ => none

def returned : Stage → Bool
  | .running (.ret _) => true
  | _ => false

end Stage

/-- The pointer is assigned only over null and while no `DestroyEnforcer` stands between
its test and its assignment; it is not tested while it dangles; and what it denotes is
deleted only while no other call is about to use it. -/
def Orderly (config : Config Heap Stage) : Act Call Answers → Prop
  | .start _ => True
  | .step index _ =>
      match config.threads[index]? with
      | some (.running (.op .created _)) => ¬ config.shared.Dangling
      | some (.running (.op .destroy _)) => ¬ config.shared.Dangling
      | some (.constructed _ _) =>
          config.shared.pointer = none ∧ ∀ stage ∈ config.threads, stage.destroys = false
      | some (.deleting _) =>
          ∀ other ∈ config.threads.eraseIdx index, other.uses = false
      | _ => True

/-- Nothing went wrong, and when no call is in flight every live enforcer is the one that
the pointer denotes. -/
structure Owned (config : Config Heap Stage) : Prop where
  clean : config.shared.misuses = []
  sole : (∀ stage ∈ config.threads, stage.returned = true) →
    config.shared.live = config.shared.pointer.toList

/-! ## What is left of a call -/

/-- Nothing but the reply. -/
def Over (rest : NifProg Reply) : Prop := ∃ reply, rest = .ret reply

/-- Methods of the enforcer and the reply. -/
def Calls (rest : NifProg Reply) : Prop := Within (fun i => i.isMethod = true) rest

/-- Methods come behind a test that found an enforcer; construction and destruction come
last. -/
def Tame : NifProg Reply → Prop
  | .op .created next => Calls (next true) ∧ Over (next false)
  | .op (.create _ _) next => ∀ answer, Over (next answer)
  | .op .destroy next => Over (next ())
  | rest => Calls rest

def Stage.Tame : Stage → Prop
  | .running rest => Nif.Tame rest
  | .constructed _ rest => Over rest
  | .deleting rest => Over rest
  | .clearing rest => Over rest

theorem tame_of_calls {rest : NifProg Reply} (calls : Calls rest) : Tame rest := by
  cases rest with
  | ret reply => exact trivial
  | op i next =>
      cases i with
      | created => cases calls.1
      | create modelPath storage => cases calls.1
      | destroy => cases calls.1
      | _ => exact calls

theorem tame_of_over {rest : NifProg Reply} (ended : Over rest) : Tame rest := by
  obtain ⟨reply, rfl⟩ := ended
  exact trivial

theorem tame_guarded {body : NifProg Reply} (calls : Calls body) : Tame (guarded body) :=
  ⟨calls, .mustCreate, rfl⟩

theorem calls_updating (mutation : Mutation) (handler : Thrown → Reply) :
    Calls (updating mutation handler) :=
  ⟨rfl, fun _ => ⟨rfl, fun _ => trivial⟩⟩

theorem tame_program (call : Call) : Tame call.program := by
  cases call with
  | createEnforcer modelPath policyPath =>
      intro answer
      cases answer with
      | ok value => exact ⟨_, rfl⟩
      | error thrown => exact ⟨_, rfl⟩
  | destroyEnforcer => exact ⟨_, rfl⟩
  | enforce sub obj act => exact tame_guarded ⟨rfl, fun _ => trivial⟩
  | getUsersForRole role =>
      refine tame_guarded ⟨rfl, fun answer => ?_⟩
      cases answer <;> exact trivial
  | getRolesForUser user =>
      refine tame_guarded ⟨rfl, fun answer => ?_⟩
      cases answer <;> exact trivial
  | removeFilteredPolicy fieldIndex resourceId =>
      apply tame_guarded
      cases enifGetInt fieldIndex with
      | none => exact trivial
      | some index => exact calls_updating _ _
  | getFilteredPolicy fieldIndex resourceId =>
      apply tame_guarded
      cases enifGetInt fieldIndex with
      | none => exact trivial
      | some index =>
          refine ⟨rfl, fun answer => ?_⟩
          cases answer <;> exact trivial
  | _ => exact tame_guarded (calls_updating _ _)

/-! ## The invariant -/

/-- The enforcers that are constructed and not yet assigned. -/
def unassigned (threads : List Stage) : List Nat := threads.filterMap Stage.pending

/-- Who owns the live enforcers: besides the calls that are to assign theirs, nobody, or
the pointer, or nobody while the pointer dangles. -/
inductive Ownership (heap : Heap) (threads : List Stage) : Prop
  | unset (null : heap.pointer = none) (live : heap.live.Perm (unassigned threads))
      (unused : ∀ stage ∈ threads, stage.uses = false)
  | held (id : Nat) (denotes : heap.pointer = some id)
      (live : heap.live.Perm (id :: unassigned threads))
      (kept : ∀ stage ∈ threads, stage.clears = false)
  | freed (id : Nat) (denotes : heap.pointer = some id) (gone : id ∉ heap.live)
      (live : heap.live.Perm (unassigned threads))
      (unused : ∀ stage ∈ threads, stage.uses = false)
      (clearing : ∃ stage ∈ threads, stage.clears = true)

structure Sound (heap : Heap) (threads : List Stage) : Prop where
  tame : ∀ stage ∈ threads, stage.Tame
  clean : heap.misuses = []
  once : heap.live.Nodup
  fresh : ∀ id ∈ heap.live, id < heap.next
  known : ∀ id ∈ heap.pointer, id < heap.next
  ownership : Ownership heap threads

section

variable {heap : Heap} {front back : List Stage} {stage moved : Stage}

theorem unassigned_moved (same : moved.pending = stage.pending) :
    unassigned (front ++ moved :: back) = unassigned (front ++ stage :: back) := by
  simp only [unassigned, List.filterMap_append, List.filterMap_cons, same]

theorem unassigned_started (started : moved.pending = none) :
    unassigned (front ++ [moved]) = unassigned front := by
  simp [unassigned, started]

/-- A stage that is neither to use the pointer nor to clear it. -/
structure Stage.Idle (stage : Stage) : Prop where
  unused : stage.uses = false
  kept : stage.clears = false
  tame : stage.Tame

theorem idle_of_over {rest : NifProg Reply} (ended : Over rest) : (Stage.running rest).Idle := by
  obtain ⟨reply, rfl⟩ := ended
  exact ⟨rfl, rfl, trivial⟩

/-- Where the enforcers stay and one call moves to a stage that fits, the state is sound. -/
theorem Sound.move (sound : Sound heap (front ++ stage :: back))
    (same : moved.pending = stage.pending) (tame : moved.Tame)
    (unset : heap.pointer = none → moved.uses = false)
    (held : ∀ id, heap.pointer = some id → id ∈ heap.live → moved.clears = false)
    (freed : heap.Dangling → moved.uses = false ∧ (stage.clears = true → moved.clears = true)) :
    Sound heap (front ++ moved :: back) := by
  refine ⟨forall_replaced sound.tame tame, sound.clean, sound.once, sound.fresh, sound.known, ?_⟩
  cases sound.ownership with
  | unset null live unused =>
      refine .unset null ?_ (forall_replaced unused (unset null))
      rw [unassigned_moved same]
      exact live
  | held id denotes live kept =>
      have present : id ∈ heap.live := live.mem_iff.mpr List.mem_cons_self
      refine .held id denotes ?_ (forall_replaced kept (held id denotes present))
      rw [unassigned_moved same]
      exact live
  | freed id denotes gone live unused clearing =>
      have dangling : heap.Dangling := ⟨id, denotes, gone⟩
      refine .freed id denotes gone ?_ (forall_replaced unused (freed dangling).1)
        (exists_replaced clearing (freed dangling).2)
      rw [unassigned_moved same]
      exact live

/-- A call that moves on and leaves the pointer alone. -/
theorem Sound.idle (sound : Sound heap (front ++ stage :: back))
    (same : moved.pending = stage.pending) (kept : stage.clears = false) (idle : moved.Idle) :
    Sound heap (front ++ moved :: back) := by
  refine sound.move same idle.tame (fun _ => idle.unused) (fun _ _ _ => idle.kept) fun _ => ?_
  refine ⟨idle.unused, fun clears => ?_⟩
  rw [kept] at clears
  cases clears

theorem Sound.start (sound : Sound heap front) (call : Call) :
    Sound heap (front ++ [.running call.program]) := by
  have idle : (Stage.running call.program).uses = false ∧
      (Stage.running call.program).clears = false := by
    cases call <;> exact ⟨rfl, rfl⟩
  refine ⟨forall_started sound.tame (tame_program call), sound.clean, sound.once, sound.fresh,
    sound.known, ?_⟩
  cases sound.ownership with
  | unset null live unused =>
      refine .unset null ?_ (forall_started unused idle.1)
      rw [unassigned_started rfl]
      exact live
  | held id denotes live kept =>
      refine .held id denotes ?_ (forall_started kept idle.2)
      rw [unassigned_started rfl]
      exact live
  | freed id denotes gone live unused clearing =>
      obtain ⟨other, member, clears⟩ := clearing
      refine .freed id denotes gone ?_ (forall_started unused idle.1)
        ⟨other, List.mem_append_left _ member, clears⟩
      rw [unassigned_started rfl]
      exact live

/-! ## Steps -/

/-- A call that is about to use the enforcer finds a live one. -/
theorem Sound.present (sound : Sound heap (front ++ stage :: back)) (uses : stage.uses = true) :
    ∃ id, heap.pointer = some id ∧ id ∈ heap.live ∧
      heap.live.Perm (id :: unassigned (front ++ stage :: back)) := by
  have here : stage ∈ front ++ stage :: back := by simp
  cases sound.ownership with
  | unset null live unused =>
      rw [unused stage here] at uses
      cases uses
  | held id denotes live kept =>
      exact ⟨id, denotes, live.mem_iff.mpr List.mem_cons_self, live⟩
  | freed id denotes gone live unused clearing =>
      rw [unused stage here] at uses
      cases uses

theorem Heap.use_of_present {id : Nat} (denotes : heap.pointer = some id)
    (present : id ∈ heap.live) : heap.use = heap := by
  simp only [Heap.use, denotes, present, if_true]

/-- A method is called behind a test that found an enforcer. -/
theorem Sound.call {i : Instr} {next : i.Answer → NifProg Reply}
    (sound : Sound heap (front ++ .running (.op i next) :: back)) (method : i.isMethod = true)
    (answer : i.Answer) :
    Sound heap.use (front ++ .running (next answer) :: back) := by
  obtain ⟨id, denotes, present, _⟩ := sound.present method
  have calls : Calls (.op i next) := by
    have tame := sound.tame (.running (.op i next)) (by simp)
    cases i with
    | created => cases method
    | create modelPath storage => cases method
    | destroy => cases method
    | _ => exact tame
  rw [Heap.use_of_present denotes present]
  refine sound.move rfl (tame_of_calls (calls.2 answer)) ?_ (fun _ _ _ => rfl) ?_
  · intro null
    rw [null] at denotes
    cases denotes
  · rintro ⟨other, same, gone⟩
    rw [denotes] at same
    cases same
    exact absurd present gone

theorem Sound.test {next : Bool → NifProg Reply}
    (sound : Sound heap (front ++ .running (.op .created next) :: back))
    (orderly : ¬ heap.Dangling) :
    Sound heap (front ++ .running (next heap.pointer.isSome) :: back) := by
  obtain ⟨calls, ended⟩ := sound.tame (.running (.op .created next)) (by simp)
  cases denotes : heap.pointer with
  | none =>
      exact sound.idle rfl rfl (idle_of_over ended)
  | some id =>
      refine sound.move rfl (tame_of_calls calls) ?_ (fun _ _ _ => rfl) (absurd · orderly)
      intro null
      rw [denotes] at null
      cases null

theorem Sound.testDestroy {next : Unit → NifProg Reply}
    (sound : Sound heap (front ++ .running (.op .destroy next) :: back))
    (orderly : ¬ heap.Dangling) :
    Sound heap (front ++ (if heap.pointer.isSome then .deleting (next ()) else
      .clearing (next ())) :: back) := by
  have ended := sound.tame (.running (.op .destroy next)) (by simp)
  cases denotes : heap.pointer with
  | none =>
      refine sound.move rfl ended (fun _ => rfl) ?_ (absurd · orderly)
      intro id other
      rw [denotes] at other
      cases other
  | some id =>
      refine sound.move rfl ended ?_ (fun _ _ _ => rfl) (absurd · orderly)
      intro null
      rw [denotes] at null
      cases null

/-- A new enforcer is live and still to be assigned. -/
theorem Sound.construct {rest : NifProg Reply} (sound : Sound heap (front ++ stage :: back))
    (plain : stage.pending = none) (kept : stage.clears = false) (ended : Over rest) :
    Sound heap.construct (front ++ .constructed heap.next rest :: back) := by
  have new : heap.next ∉ heap.live := fun member => Nat.lt_irrefl _ (sound.fresh _ member)
  have owed (owned : List Nat)
      (live : heap.live.Perm (owned ++ unassigned (front ++ stage :: back))) :
      heap.construct.live.Perm
        (owned ++ unassigned (front ++ .constructed heap.next rest :: back)) := by
    have added : (unassigned (front ++ .constructed heap.next rest :: back)).Perm
        (heap.next :: unassigned (front ++ stage :: back)) := by
      refine (filterMap_split Stage.pending front back _).trans (List.Perm.cons heap.next ?_)
      refine ((filterMap_split Stage.pending front back stage).trans (List.Perm.of_eq ?_)).symm
      rw [plain]
      rfl
    exact (live.cons heap.next).trans
      (List.perm_middle.symm.trans (added.symm.append_left owned))
  refine ⟨forall_replaced sound.tame ended, sound.clean, List.nodup_cons.mpr ⟨new, sound.once⟩,
    ?_, ?_, ?_⟩
  · intro id member
    rcases List.mem_cons.mp member with rfl | old
    · exact Nat.lt_succ_self _
    · exact Nat.lt_succ_of_lt (sound.fresh id old)
  · exact fun id denotes => Nat.lt_succ_of_lt (sound.known id denotes)
  · cases sound.ownership with
    | unset null live unused =>
        exact .unset null (owed [] live) (forall_replaced unused rfl)
    | held id denotes live keeps =>
        exact .held id denotes (owed [id] live) (forall_replaced keeps rfl)
    | freed id denotes gone live unused clearing =>
        refine .freed id denotes ?_ (owed [] live) (forall_replaced unused rfl)
          (exists_replaced clearing fun clears => absurd (kept.symm.trans clears) nofun)
        intro member
        rcases List.mem_cons.mp member with rfl | old
        · exact Nat.lt_irrefl _ (sound.known _ denotes)
        · exact gone old

/-- The constructed enforcer is assigned over null. -/
theorem Sound.assign {id : Nat} {rest : NifProg Reply}
    (sound : Sound heap (front ++ .constructed id rest :: back)) (null : heap.pointer = none)
    (apart : ∀ other ∈ front ++ .constructed id rest :: back, other.destroys = false) :
    Sound (heap.assign (some id)) (front ++ .running rest :: back) := by
  have ended := sound.tame (.constructed id rest) (by simp)
  have quiet : ∀ other ∈ front ++ .constructed id rest :: back, other.clears = false := by
    intro other member
    have none := apart other member
    cases other with
    | clearing rest => cases none
    | _ => rfl
  have owed : (unassigned (front ++ .constructed id rest :: back)).Perm
      (id :: unassigned (front ++ .running rest :: back)) := by
    refine (filterMap_split Stage.pending front back _).trans (List.Perm.cons id ?_)
    exact (filterMap_split Stage.pending front back (.running rest)).symm
  have live : heap.live.Perm (unassigned (front ++ .constructed id rest :: back)) := by
    cases sound.ownership with
    | unset _ live _ => exact live
    | held other denotes _ _ =>
        rw [null] at denotes
        cases denotes
    | freed other denotes _ _ _ _ =>
        rw [null] at denotes
        cases denotes
  refine ⟨forall_replaced sound.tame (tame_of_over ended), sound.clean, sound.once, sound.fresh, ?_,
    .held id rfl (live.trans owed) (forall_replaced quiet rfl)⟩
  rintro other same
  cases same
  exact sound.fresh id ((live.trans owed).mem_iff.mpr List.mem_cons_self)

/-- What the pointer denotes is deleted while nobody else is about to use it. -/
theorem Sound.delete {rest : NifProg Reply}
    (sound : Sound heap (front ++ .deleting rest :: back))
    (alone : ∀ other ∈ front ++ back, other.uses = false) :
    Sound heap.delete (front ++ .clearing rest :: back) := by
  obtain ⟨id, denotes, present, live⟩ := sound.present rfl
  have ended := sound.tame (.deleting rest) (by simp)
  have deleted : heap.delete = { heap with live := heap.live.erase id } := by
    simp only [Heap.delete, denotes, present, if_true]
  rw [deleted]
  refine ⟨forall_replaced sound.tame ended, sound.clean, sound.once.erase id,
    fun other member => sound.fresh other (List.mem_of_mem_erase member), sound.known,
    .freed id denotes sound.once.not_mem_erase ?_ ?_ ⟨.clearing rest, by simp, rfl⟩⟩
  · have same : unassigned (front ++ .clearing rest :: back) =
        unassigned (front ++ .deleting rest :: back) := unassigned_moved rfl
    have left := live.erase id
    rw [List.erase_cons_head] at left
    rw [same]
    exact left
  · intro other member
    rcases List.mem_append.mp member with inFront | inRest
    · exact alone other (List.mem_append_left _ inFront)
    · rcases List.mem_cons.mp inRest with rfl | inBack
      · rfl
      · exact alone other (List.mem_append_right _ inBack)

/-- The pointer is set to null. -/
theorem Sound.clear {rest : NifProg Reply}
    (sound : Sound heap (front ++ .clearing rest :: back)) :
    Sound (heap.assign none) (front ++ .running rest :: back) := by
  have ended := sound.tame (.clearing rest) (by simp)
  have idle := idle_of_over ended
  have same : unassigned (front ++ .running rest :: back) =
      unassigned (front ++ .clearing rest :: back) := unassigned_moved rfl
  refine ⟨forall_replaced sound.tame idle.tame, sound.clean, sound.once, sound.fresh, nofun, ?_⟩
  cases sound.ownership with
  | unset null live unused => exact .unset rfl (same ▸ live) (forall_replaced unused idle.unused)
  | held id denotes live kept =>
      have held := kept (.clearing rest) (by simp)
      cases held
  | freed id denotes gone live unused clearing =>
      exact .unset rfl (same ▸ live) (forall_replaced unused idle.unused)

/-- Step: one call takes an orderly step. -/
theorem Sound.step {answers : Answers} {changed : Heap}
    (sound : Sound heap (front ++ stage :: back))
    (orderly : Orderly ⟨heap, front ++ stage :: back⟩ (.step front.length answers))
    (advanced : callers.advance answers heap stage = some (changed, moved)) :
    Sound changed (front ++ moved :: back) := by
  have found : (front ++ stage :: back)[front.length]? = some stage := by simp
  have others : (front ++ stage :: back).eraseIdx front.length = front ++ back := by
    rw [List.eraseIdx_append_of_length_le (Nat.le_refl _), Nat.sub_self, List.eraseIdx_cons_zero]
  simp only [Orderly, found, others] at orderly
  cases stage with
  | constructed id rest =>
      cases advanced
      exact sound.assign orderly.1 orderly.2
  | deleting rest =>
      cases advanced
      exact sound.delete orderly
  | clearing rest =>
      cases advanced
      exact sound.clear
  | running rest =>
      cases rest with
      | ret reply => cases advanced
      | op i next =>
          cases i with
          | created =>
              cases advanced
              exact sound.test orderly
          | destroy =>
              cases advanced
              exact sound.testDestroy orderly
          | create modelPath storage =>
              have ended := sound.tame (.running (.op (.create modelPath storage) next)) (by simp)
              simp only [callers, begins, Option.some.injEq] at advanced
              split at advanced
              · cases advanced
                exact sound.construct rfl rfl (ended _)
              · cases advanced
                exact sound.idle rfl rfl (idle_of_over (ended _))
          | _ =>
              cases advanced
              exact sound.call rfl _

end

/-- Run: the enforcer is owned once in every state that orderly steps reach. -/
theorem enforcer_owned_once {last : Config Heap Stage}
    (run : RunFrom callers.Step Orderly ⟨Heap.empty, []⟩ last) : Owned last := by
  have sound : Sound last.shared last.threads := by
    refine callers.run_invariant (fun config => Sound config.shared config.threads) ?_ ?_ ?_ run
    · exact fun heap threads call sound _ => sound.start call
    · exact fun heap front stage back answers changed moved sound orderly => sound.step orderly
    · exact ⟨nofun, rfl, List.nodup_nil, nofun, nofun, .unset rfl .nil nofun⟩
  refine ⟨sound.clean, fun quiet => ?_⟩
  have settled : unassigned last.threads = [] := by
    apply List.filterMap_eq_nil_iff.mpr
    intro stage member
    have returned := quiet stage member
    cases stage with
    | constructed id rest => cases returned
    | _ => rfl
  cases sound.ownership with
  | unset null live unused =>
      rw [settled, List.perm_nil] at live
      rw [live, null]
      rfl
  | held id denotes live kept =>
      rw [settled, List.perm_singleton] at live
      rw [live, denotes]
      rfl
  | freed id denotes gone live unused clearing =>
      obtain ⟨stage, member, clears⟩ := clearing
      have returned := quiet stage member
      cases stage with
      | clearing rest => cases returned
      | _ => cases clears

/-! ## One enforcer after the other -/

/-- All calls have returned and the heap is as given. -/
def Settled (heap : Heap) (config : Config Heap Stage) : Prop :=
  config.shared = heap ∧ ∀ stage ∈ config.threads, stage.returned = true

instance (heap : Heap) : DecidablePred (Settled heap) :=
  fun _ => inferInstanceAs (Decidable (_ ∧ _))

def creates : Call := .createEnforcer (Term.ofBytes []) (Term.ofBytes [])

def asks : Call := .enforce (Term.ofBytes []) (Term.ofBytes []) (Term.ofBytes [])

/-- The steps that the check of a computed run admits. -/
def orderly (config : Config Heap Stage) : Act Call Answers → Bool
  | .start _ => true
  | .step index _ =>
      match config.threads[index]? with
      | some (.running (.op .created _)) => !decide config.shared.Dangling
      | some (.running (.op .destroy _)) => !decide config.shared.Dangling
      | some (.constructed _ _) =>
          config.shared.pointer.isNone && config.threads.all fun stage => !stage.destroys
      | some (.deleting _) => (config.threads.eraseIdx index).all fun other => !other.uses
      | _ => true

theorem orderly_of_check (config : Config Heap Stage) (act : Act Call Answers)
    (admitted : orderly config act = true) : Orderly config act := by
  cases act with
  | start call => exact trivial
  | step index answers =>
      unfold orderly at admitted
      unfold Orderly
      dsimp only at admitted ⊢
      split
      · next found => simpa [found] using admitted
      · next found => simpa [found] using admitted
      · next found => simpa [found] using admitted
      · next found => simpa [found] using admitted
      · exact trivial

/-- An enforcer is created, asked and destroyed. -/
theorem enforcer_owned_once_destroyed :
    ∃ last, RunFrom callers.Step Orderly ⟨Heap.empty, []⟩ last ∧
      Settled ⟨none, [], 1, []⟩ last ∧ Owned last := by
  have computed : (follow orderly callers.next ⟨Heap.empty, []⟩
      [.start creates, .step 0 allowing, .step 0 allowing, .start asks, .step 1 allowing,
        .step 1 allowing, .start .destroyEnforcer, .step 2 allowing, .step 2 allowing,
        .step 2 allowing]).any (decide <| Settled ⟨none, [], 1, []⟩ ·) = true := by
    decide +kernel
  obtain ⟨last, run, settled⟩ := exists_run_of_follow orderly_of_check computed
  exact ⟨last, run, settled, enforcer_owned_once run⟩

/-- A second `CreateEnforcer` leaves the first enforcer live and out of reach, and an
`Enforce` between its test and its call meets a `DestroyEnforcer`. -/
theorem second_creation_leaks :
    (∃ last, Reachable callers.Step ⟨Heap.empty, []⟩ last ∧
      Settled ⟨some 1, [1, 0], 2, []⟩ last ∧ ¬ Owned last) ∧
    ∃ last, Reachable callers.Step ⟨Heap.empty, []⟩ last ∧
      last.shared.misuses = [.usedAfterDelete 0] := by
  constructor
  · have computed : (follow (fun _ _ => true) callers.next ⟨Heap.empty, []⟩
        [.start creates, .step 0 allowing, .step 0 allowing, .start creates, .step 1 allowing,
          .step 1 allowing]).any (decide <| Settled ⟨some 1, [1, 0], 2, []⟩ ·) = true := by
      decide +kernel
    obtain ⟨last, run, settled⟩ := exists_run_of_follow (fun _ _ _ => trivial) computed
    refine ⟨last, run, settled, fun owned => ?_⟩
    have sole := owned.sole settled.2
    rw [settled.1] at sole
    cases sole
  · have computed : (follow (fun _ _ => true) callers.next ⟨Heap.empty, []⟩
        [.start creates, .step 0 allowing, .step 0 allowing, .start asks, .step 1 allowing,
          .start .destroyEnforcer, .step 2 allowing, .step 2 allowing, .step 1 allowing]).any
          (decide <| ·.shared.misuses = [.usedAfterDelete 0]) = true := by
      decide +kernel
    exact exists_run_of_follow (fun _ _ _ => trivial) computed

end Casbinex.Nif
