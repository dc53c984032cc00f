import Casbinex.Program.Transition
import Mathlib.Data.List.Perm.Basic

/-!
# Threads on a shared state

Any number of threads are started in the course of a run, and each step of the
run advances one of them.  A choice stands for what the environment decides in
the step.  Finished threads stay in the list.
-/

namespace Casbinex.Program

structure Config (σ τ : Type) where
  shared : σ
  threads : List τ

inductive Act (ι κ : Type) where
  | start (input : ι)
  | step (index : Nat) (choice : κ)
  deriving DecidableEq

/-- How threads begin and how one of them advances on the shared state. -/
structure System (σ τ ι κ : Type) where
  spawn : ι → τ
  advance : κ → σ → τ → Option (σ × τ)

/-! ## One thread among the others -/

section

variable {τ β : Type} {front back : List τ} {thread moved other : τ}

/-- Where one thread is replaced, every other one was there before. -/
theorem mem_of_replaced (thread : τ) (member : other ∈ front ++ moved :: back) :
    other = moved ∨ other ∈ front ++ thread :: back := by
  rcases List.mem_append.mp member with inFront | inRest
  · exact Or.inr (List.mem_append_left _ inFront)
  · rcases List.mem_cons.mp inRest with same | inBack
    · exact Or.inl same
    · exact Or.inr (List.mem_append_right _ (List.mem_cons_of_mem thread inBack))

theorem forall_replaced {holds : τ → Prop} (before : ∀ other ∈ front ++ thread :: back, holds other)
    (here : holds moved) : ∀ other ∈ front ++ moved :: back, holds other := by
  intro other member
  rcases mem_of_replaced thread member with rfl | there
  · exact here
  · exact before other there

theorem exists_replaced {holds : τ → Prop}
    (before : ∃ other ∈ front ++ thread :: back, holds other)
    (keeps : holds thread → holds moved) : ∃ other ∈ front ++ moved :: back, holds other := by
  obtain ⟨other, member, inside⟩ := before
  rcases mem_of_replaced moved member with rfl | there
  · exact ⟨moved, by simp, keeps inside⟩
  · exact ⟨other, there, inside⟩

theorem forall_started {threads : List τ} {holds : τ → Prop}
    (before : ∀ other ∈ threads, holds other) (here : holds moved) :
    ∀ other ∈ threads ++ [moved], holds other := by
  intro other member
  rcases List.mem_append.mp member with there | new
  · exact before other there
  · exact List.mem_singleton.mp new ▸ here

/-- What the threads contribute is what one contributes and what the others do. -/
theorem filterMap_split (f : τ → Option β) (front back : List τ) (thread : τ) :
    ((front ++ thread :: back).filterMap f).Perm
      ((f thread).toList ++ (front ++ back).filterMap f) := by
  have moved : (front ++ thread :: back).Perm (thread :: (front ++ back)) := List.perm_middle
  refine (moved.filterMap f).trans (List.Perm.of_eq ?_)
  rw [List.filterMap_cons]
  cases f thread <;> rfl

end

/-! ## Counting threads -/

section

variable {τ β : Type} {threads : List τ} {index : Nat} {thread : τ}

theorem forall_set {holds : τ → Prop} {moved : τ} (before : ∀ other ∈ threads, holds other)
    (here : holds moved) : ∀ other ∈ threads.set index moved, holds other := by
  intro other member
  rcases List.mem_or_eq_of_mem_set member with there | rfl
  · exact before other there
  · exact here

/-- Where one thread is replaced, a count changes by what the two count. -/
theorem countP_replaced (test : τ → Bool) (found : threads[index]? = some thread) (moved : τ) :
    (threads.set index moved).countP test + (test thread).toNat =
      threads.countP test + (test moved).toNat := by
  induction threads generalizing index with
  | nil => cases found
  | cons head more ih =>
      cases index with
      | zero =>
          cases found
          rw [List.set_cons_zero, List.countP_cons, List.countP_cons]
          cases test thread <;> cases test moved <;> simp
      | succ index =>
          have rest := ih found
          rw [List.set_cons_succ, List.countP_cons, List.countP_cons]
          omega

/-- Where one thread is replaced, what the threads hold changes by what the two hold. -/
theorem length_flatMap_replaced (holds : τ → List β) (found : threads[index]? = some thread)
    (moved : τ) :
    ((threads.set index moved).flatMap holds).length + (holds thread).length =
      (threads.flatMap holds).length + (holds moved).length := by
  induction threads generalizing index with
  | nil => cases found
  | cons head more ih =>
      cases index with
      | zero =>
          cases found
          simp only [List.set_cons_zero, List.flatMap_cons, List.length_append]
          omega
      | succ index =>
          have rest := ih found
          simp only [List.set_cons_succ, List.flatMap_cons, List.length_append]
          omega

end

namespace System

variable {σ τ ι κ : Type} (system : System σ τ ι κ)

def next (config : Config σ τ) : Act ι κ → Option (Config σ τ)
  | .start input => some { config with threads := config.threads ++ [system.spawn input] }
  | .step index choice => do
      let thread ← config.threads[index]?
      let (changed, moved) ← system.advance choice config.shared thread
      return ⟨changed, config.threads.set index moved⟩

def Step (config : Config σ τ) (act : Act ι κ) (after : Config σ τ) : Prop :=
  system.next config act = some after

/-- What an act does: it adds a thread, or it replaces one thread and the shared state. -/
theorem next_cases {config after : Config σ τ} {act : Act ι κ}
    (step : system.Step config act after) :
    (∃ input, act = .start input ∧
      after = ⟨config.shared, config.threads ++ [system.spawn input]⟩) ∨
    ∃ front thread back choice changed moved,
      act = .step front.length choice ∧ config.threads = front ++ thread :: back ∧
      system.advance choice config.shared thread = some (changed, moved) ∧
      after = ⟨changed, front ++ moved :: back⟩ := by
  cases act with
  | start input => exact Or.inl ⟨input, rfl, (Option.some.inj step).symm⟩
  | step index choice =>
      right
      obtain ⟨thread, found, rest⟩ := Option.bind_eq_some_iff.mp step
      obtain ⟨⟨changed, moved⟩, advanced, ended⟩ := Option.bind_eq_some_iff.mp rest
      obtain ⟨inside, rfl⟩ := List.getElem?_eq_some_iff.mp found
      have size : (config.threads.take index).length = index :=
        List.length_take_of_le (Nat.le_of_lt inside)
      refine ⟨config.threads.take index, config.threads[index], config.threads.drop (index + 1),
        choice, changed, moved, ?_, ?_, advanced, ?_⟩
      · rw [size]
      · rw [List.getElem_cons_drop, List.take_append_drop]
      · rw [← List.set_eq_take_cons_drop moved inside]
        exact (Option.some.inj ended).symm

/-- A property that starts and steps keep holds along every run. -/
theorem run_invariant {allowed : Config σ τ → Act ι κ → Prop} (Inv : Config σ τ → Prop)
    (starts : ∀ shared threads input, Inv ⟨shared, threads⟩ →
      allowed ⟨shared, threads⟩ (.start input) →
      Inv ⟨shared, threads ++ [system.spawn input]⟩)
    (steps : ∀ shared front thread back choice changed moved,
      Inv ⟨shared, front ++ thread :: back⟩ →
      allowed ⟨shared, front ++ thread :: back⟩ (.step front.length choice) →
      system.advance choice shared thread = some (changed, moved) →
      Inv ⟨changed, front ++ moved :: back⟩)
    {start last : Config σ τ} (init : Inv start)
    (run : RunFrom system.Step allowed start last) : Inv last := by
  refine run.invariant init fun config act after holds ok step => ?_
  obtain ⟨shared, threads⟩ := config
  rcases system.next_cases step with
    ⟨input, rfl, rfl⟩ | ⟨front, thread, back, choice, changed, moved, rfl, split, advanced, rfl⟩
  · exact starts shared threads input holds ok
  · obtain rfl : threads = front ++ thread :: back := split
    exact steps shared front thread back choice changed moved holds ok advanced

end System

end Casbinex.Program
