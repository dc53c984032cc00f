import Casbinex.Program.Prog
import Casbinex.Program.Transition
import Mathlib.Data.Multiset.DershowitzManna
import Mathlib.Data.Prod.Lex
import Mathlib.SetTheory.Ordinal.Family

/-!
# Steps that use something up

A program has a rank that each of its operations lowers, however many answers the
operation may get.  Where a step lowers the weight of the thread that takes it, it
lowers the weights of all threads together in a well-founded order, and a run without
end goes on taking other steps for ever.
-/

namespace Casbinex.Program

/-- How far a program is from its end. -/
noncomputable def Prog.rank {I : Type} {R : I → Type} {α : Type} : Prog I R α → Ordinal.{0}
  | .ret _ => 0
  | .op _ next => ⨆ answer, (next answer).rank + 1

theorem Prog.rank_next_lt {I : Type} {R : I → Type} {α : Type} (i : I)
    (next : R i → Prog I R α) (answer : R i) : (next answer).rank < (Prog.op i next).rank := by
  rw [Prog.rank]
  exact Ordinal.lt_iSup_add_one (fun answer => (next answer).rank) answer

/-! ## The weights of all threads -/

section

variable {τ ω : Type*} {threads : List τ} {index : Nat} {thread moved : τ}

/-- What the threads weigh together, and how many of them a test finds. -/
def weighed (weight : τ → ω) (test : τ → Bool) (threads : List τ) : Multiset ω × Nat :=
  (Multiset.ofList (threads.map weight), threads.countP test)

/-- The threads weigh what one weighs and what the others do. -/
theorem weighed_split (weight : τ → ω) (test : τ → Bool) (front back : List τ) (thread : τ) :
    (weighed weight test (front ++ thread :: back)).1 =
      Multiset.ofList ((front ++ back).map weight) + {weight thread} := by
  rw [weighed, ← Multiset.coe_singleton, Multiset.coe_add, Multiset.coe_eq_coe, List.map_append,
    List.map_append, List.map_cons]
  exact List.perm_middle.trans (List.perm_append_singleton _ _).symm

/-- Where one thread of a list is replaced, the others stay around it. -/
theorem exists_split (found : threads[index]? = some thread) :
    ∃ front back, threads = front ++ thread :: back ∧
      ∀ moved, threads.set index moved = front ++ moved :: back := by
  obtain ⟨inside, rfl⟩ := List.getElem?_eq_some_iff.mp found
  refine ⟨threads.take index, threads.drop (index + 1), ?_, fun moved => ?_⟩
  · rw [List.getElem_cons_drop, List.take_append_drop]
  · exact List.set_eq_take_cons_drop moved inside

/-- The weights stay if the weight of the thread does. -/
theorem weighed_of_eq {weight : τ → ω} (test : τ → Bool)
    (found : threads[index]? = some thread) (same : weight moved = weight thread) :
    (weighed weight test (threads.set index moved)).1 = (weighed weight test threads).1 := by
  obtain ⟨front, back, split, replaced⟩ := exists_split found
  rw [replaced, split, weighed_split, weighed_split, same]

variable [Preorder ω]

/-- The weights go down, or they stay and the test finds fewer threads. -/
def Lower : Multiset ω × Nat → Multiset ω × Nat → Prop :=
  Prod.Lex Multiset.IsDershowitzMannaLT (· < ·)

theorem wellFounded_lower [WellFoundedLT ω] : WellFounded (@Lower ω _) :=
  Multiset.wellFounded_isDershowitzMannaLT.prod_lex Nat.lt_wfRel.wf

/-- A step of one thread lowers the weights if it lowers the weight of that thread. -/
theorem lower_of_lt {weight : τ → ω} (test : τ → Bool) (found : threads[index]? = some thread)
    (less : weight moved < weight thread) {after : Multiset ω × Nat}
    (same : after.1 = (weighed weight test (threads.set index moved)).1) :
    Lower after (weighed weight test threads) := by
  obtain ⟨front, back, split, replaced⟩ := exists_split found
  rw [replaced, weighed_split] at same
  apply Prod.lex_def.mpr
  left
  refine ⟨_, {weight moved}, {weight thread}, by simp, same, ?_, ?_⟩
  · rw [split]
    exact weighed_split weight test front back thread
  · intro mine member
    rw [Multiset.mem_singleton.mp member]
    exact ⟨_, Multiset.mem_singleton_self _, less⟩

end

/-! ## Runs without end -/

/-- A run that takes a step at every moment. -/
structure Endless {σ Act : Type} (step : σ → Act → σ → Prop) where
  state : Nat → σ
  act : Nat → Act
  steps : ∀ n, step (state n) (act n) (state (n + 1))

namespace Endless

variable {σ Act : Type} {β : Type*} {step : σ → Act → σ → Prop} {allowed : σ → Act → Prop}

theorem reachable (run : Endless step) (sound : ∀ n, allowed (run.state n) (run.act n)) (n : Nat) :
    RunFrom step allowed (run.state 0) (run.state n) := by
  induction n with
  | zero => exact .refl
  | succ n ih => exact .tail ih (sound n) (run.steps n)

/-- Where the steps of a kind lower a measure, a run without end takes steps of another
kind again and again. -/
theorem exists_other {less : β → β → Prop} (wellFounded : WellFounded less)
    (measure : σ → β) (busy : σ → Act → Prop) (run : Endless step)
    (lowers : ∀ n, busy (run.state n) (run.act n) →
      less (measure (run.state (n + 1))) (measure (run.state n))) (n : Nat) :
    ∃ m, n ≤ m ∧ ¬ busy (run.state m) (run.act m) := by
  by_contra always
  have all : ∀ m, n ≤ m → busy (run.state m) (run.act m) := by
    intro m after
    by_contra idle
    exact always ⟨m, after, idle⟩
  suffices none : ∀ value m, n ≤ m → measure (run.state m) ≠ value from
    none _ n (Nat.le_refl n) rfl
  intro value
  induction value using wellFounded.induction with
  | h value ih =>
      rintro m after rfl
      exact ih _ (lowers m (all m after)) (m + 1) (Nat.le_succ_of_le after) rfl

end Endless

end Casbinex.Program
