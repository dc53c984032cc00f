import Mathlib.Logic.Basic

/-!
# Programs over an interface of operations

A program either returns or issues one operation and goes on with its answer.
A machine gives the operations a meaning on a state.  A run draws one flag from
a fault schedule at every fallible operation; a raised flag makes that operation
throw before it has any effect.
-/

namespace Casbinex.Program

inductive Prog (I : Type) (R : I → Type) (α : Type) where
  | ret (value : α)
  | op (i : I) (next : R i → Prog I R α)

/-- The meaning of the operations on a state. -/
structure Machine (I : Type) (R : I → Type) (σ ε : Type) where
  step : (i : I) → σ → Except ε (R i × σ)
  fallible : I → Bool
  /-- The exception of an operation that is made to fail. -/
  fault : ε

/-- How a run ends: its result, the state it leaves and the rest of the schedule. -/
structure Ending (σ ε α : Type) where
  result : Except ε α
  state : σ
  faults : List Bool

theorem Ending.of_result {σ ε α : Type} {ending : Ending σ ε α} {result : Except ε α}
    (same : ending.result = result) : ending = ⟨result, ending.state, ending.faults⟩ := by
  rw [← same]

namespace Prog

variable {I : Type} {R : I → Type} {σ ε δ α β : Type}

protected def bind : Prog I R α → (α → Prog I R β) → Prog I R β
  | .ret value, next => next value
  | .op i rest, next => .op i fun answer => (rest answer).bind next

instance : Monad (Prog I R) where
  pure := .ret
  bind := Prog.bind

def perform (i : I) : Prog I R (R i) := .op i .ret

@[simp] theorem pure_eq (value : α) : (pure value : Prog I R α) = .ret value := rfl

@[simp] theorem ret_bind (value : α) (next : α → Prog I R β) :
    (Prog.ret value >>= next) = next value := rfl

@[simp] theorem op_bind (i : I) (rest : R i → Prog I R α) (next : α → Prog I R β) :
    (Prog.op i rest >>= next) = .op i fun answer => rest answer >>= next := rfl

@[simp] theorem perform_bind (i : I) (next : R i → Prog I R β) :
    (perform i >>= next) = .op i next := rfl

theorem bind_assoc {γ : Type} (p : Prog I R α) (f : α → Prog I R β) (g : β → Prog I R γ) :
    (p >>= f >>= g) = p >>= fun value => f value >>= g := by
  induction p with
  | ret value => rfl
  | op i rest ih => simp [ih]

/-! ## Runs -/

/-- The flag for the next fallible operation; an exhausted schedule raises none. -/
def draw : List Bool → Bool × List Bool
  | [] => (false, [])
  | flag :: rest => (flag, rest)

variable (machine : Machine I R σ ε)

def run : Prog I R α → List Bool → σ → Ending σ ε α
  | .ret value, faults, state => ⟨.ok value, state, faults⟩
  | .op i next, faults, state =>
      let (flag, later) := if machine.fallible i then draw faults else (false, faults)
      if flag then ⟨.error machine.fault, state, later⟩
      else
        match machine.step i state with
        | .error error => ⟨.error error, state, later⟩
        | .ok (answer, changed) => run (next answer) later changed

@[simp] theorem run_ret (value : α) (faults : List Bool) (state : σ) :
    run machine (.ret value : Prog I R α) faults state = ⟨.ok value, state, faults⟩ := rfl

/-- What a run does at one operation: it throws and leaves the state as it is,
or it takes the step of the machine. -/
theorem run_op_cases (i : I) (next : R i → Prog I R α) (faults : List Bool) (state : σ) :
    (∃ error later, run machine (.op i next) faults state = ⟨.error error, state, later⟩) ∨
    (∃ answer changed later, machine.step i state = .ok (answer, changed) ∧
      run machine (.op i next) faults state = run machine (next answer) later changed) := by
  simp only [run]
  generalize (if machine.fallible i then draw faults else (false, faults)) = drawn
  obtain ⟨flag, later⟩ := drawn
  cases flag with
  | true => exact Or.inl ⟨_, _, rfl⟩
  | false =>
      cases stepped : machine.step i state with
      | error error => exact Or.inl ⟨error, later, rfl⟩
      | ok pair => exact Or.inr ⟨pair.1, pair.2, later, rfl, rfl⟩

/-- Without faults an operation takes the step of the machine. -/
theorem run_op_nil (i : I) (next : R i → Prog I R α) (state : σ) :
    run machine (.op i next) [] state =
      match machine.step i state with
      | .error error => ⟨.error error, state, []⟩
      | .ok (answer, changed) => run machine (next answer) [] changed := by
  simp [run, draw]

theorem run_bind (p : Prog I R α) (next : α → Prog I R β) (faults : List Bool) (state : σ) :
    run machine (p >>= next) faults state =
      match run machine p faults state with
      | ⟨.ok value, changed, later⟩ => run machine (next value) later changed
      | ⟨.error error, changed, later⟩ => ⟨.error error, changed, later⟩ := by
  induction p generalizing faults state with
  | ret value => rfl
  | op i rest ih =>
      simp only [op_bind, run]
      generalize (if machine.fallible i then draw faults else (false, faults)) = drawn
      obtain ⟨flag, later⟩ := drawn
      cases flag with
      | true => rfl
      | false =>
          cases machine.step i state with
          | error error => rfl
          | ok pair => exact ih pair.1 later pair.2

/-- A run that returns, returns what the run without faults returns. -/
theorem run_nil_of_ok {p : Prog I R α} {faults later : List Bool} {state final : σ} {value : α}
    (ended : run machine p faults state = ⟨.ok value, final, later⟩) :
    run machine p [] state = ⟨.ok value, final, []⟩ := by
  induction p generalizing faults state with
  | ret result =>
      rw [run_ret] at ended ⊢
      cases ended
      rfl
  | op i rest ih =>
      rcases run_op_cases machine i rest faults state with
        ⟨error, rem, failed⟩ | ⟨answer, changed, rem, stepped, went⟩
      · rw [failed] at ended
        cases ended
      · rw [went] at ended
        rw [run_op_nil, stepped]
        exact ih answer ended

/-- A run meets a raised flag or ends as the run without faults. -/
theorem run_fault_or_nil (p : Prog I R α) (faults : List Bool) (state : σ) :
    (run machine p faults state).result = .error machine.fault ∨
      ∃ later, run machine p faults state =
        ⟨(run machine p [] state).result, (run machine p [] state).state, later⟩ := by
  induction p generalizing faults state with
  | ret value => exact Or.inr ⟨faults, rfl⟩
  | op i rest ih =>
      rw [run_op_nil]
      simp only [run]
      generalize (if machine.fallible i then draw faults else (false, faults)) = drawn
      obtain ⟨flag, later⟩ := drawn
      cases flag with
      | true => exact Or.inl rfl
      | false =>
          cases machine.step i state with
          | error error => exact Or.inr ⟨later, rfl⟩
          | ok pair => exact ih pair.1 later pair.2

/-- A program that returns a value and leaves the state hands the value on. -/
theorem run_bind_of_yields {p : Prog I R α} {state : σ} {value : α}
    (yields : run machine p [] state = ⟨.ok value, state, []⟩) (next : α → Prog I R β) :
    run machine (p >>= next) [] state = run machine (next value) [] state := by
  rw [run_bind, yields]

/-- A loop whose turns return a value and leave the state computes their fold. -/
theorem run_foldlM_of_yields {body : β → α → Prog I R β} {value : β → α → β} {state : σ}
    (turn : ∀ acc item, run machine (body acc item) [] state = ⟨.ok (value acc item), state, []⟩)
    (items : List α) (acc : β) :
    run machine (items.foldlM body acc) [] state = ⟨.ok (items.foldl value acc), state, []⟩ := by
  induction items generalizing acc with
  | nil => rfl
  | cons item more ih =>
      rw [List.foldlM_cons, run_bind_of_yields machine (turn acc item)]
      exact ih (value acc item)

/-! ## Runs in pieces -/

/-- Run up to and including the next operation at a boundary; what is left of the
program goes on from there. -/
def runTo (boundary : I → Bool) : Prog I R α → σ → Except ε (Prog I R α × σ)
  | .ret value, state => .ok (.ret value, state)
  | .op i next, state =>
      match machine.step i state with
      | .error error => .error error
      | .ok (answer, changed) =>
          if boundary i then .ok (next answer, changed) else runTo boundary (next answer) changed

/-! ## Programs of some operations -/

/-- The operations a program issues when an oracle answers them. -/
def trace (answers : (i : I) → R i) : Prog I R α → List I
  | .ret _ => []
  | .op i next => i :: trace answers (next (answers i))

/-- What a program returns when an oracle answers its operations. -/
def eval (answers : (i : I) → R i) : Prog I R α → α
  | .ret value => value
  | .op i next => eval answers (next (answers i))

/-- Under the oracle the program issues these operations and returns this value. -/
structure Plays (answers : (i : I) → R i) (p : Prog I R α) (ops : List I) (value : α) : Prop where
  trace_eq : trace answers p = ops
  eval_eq : eval answers p = value

namespace Plays

variable {answers : (i : I) → R i}

theorem ret (value : α) : Plays answers (.ret value) [] value := ⟨rfl, rfl⟩

theorem perform (i : I) : Plays answers (perform i) [i] (answers i) := ⟨rfl, rfl⟩

theorem op {i : I} {next : R i → Prog I R α} {ops : List I} {value : α}
    (rest : Plays answers (next (answers i)) ops value) :
    Plays answers (.op i next) (i :: ops) value :=
  ⟨congrArg (i :: ·) rest.trace_eq, rest.eval_eq⟩

theorem bind {p : Prog I R α} {next : α → Prog I R β} {ops more : List I} {value : α}
    {result : β} (first : Plays answers p ops value)
    (second : Plays answers (next value) more result) :
    Plays answers (p >>= next) (ops ++ more) result := by
  induction p generalizing ops with
  | ret returned =>
      obtain ⟨rfl, rfl⟩ := first
      exact second
  | op i rest ih =>
      obtain ⟨rfl, rfl⟩ := first
      exact op (ih (answers i) ⟨rfl, rfl⟩)

theorem bind_ret {p : Prog I R α} {next : α → Prog I R β} {ops : List I} {value : α}
    {result : β} (first : Plays answers p ops value) (last : next value = .ret result) :
    Plays answers (p >>= next) ops result := by
  have second : Plays answers (next value) [] result := by
    rw [last]
    exact ret result
  simpa using first.bind second

/-- A loop issues the operations of its first turn and then those of the others. -/
theorem foldlM_cons {body : β → α → Prog I R β} {acc between result : β} {item : α}
    {items : List α} {ops more : List I} (turn : Plays answers (body acc item) ops between)
    (rest : Plays answers (items.foldlM body between) more result) :
    Plays answers ((item :: items).foldlM body acc) (ops ++ more) result := by
  rw [List.foldlM_cons]
  exact turn.bind rest

/-- Where the machine answers like the oracle and stays in its state, so does the run. -/
theorem run {p : Prog I R α} {ops : List I} {value : α} (plays : Plays answers p ops value)
    {state : σ} (stays : ∀ i ∈ ops, machine.step i state = .ok (answers i, state)) :
    run machine p [] state = ⟨.ok value, state, []⟩ := by
  induction p generalizing ops with
  | ret returned =>
      obtain ⟨rfl, rfl⟩ := plays
      rfl
  | op i rest ih =>
      obtain ⟨rfl, rfl⟩ := plays
      rw [run_op_nil, stays i List.mem_cons_self]
      exact ih (answers i) ⟨rfl, rfl⟩ fun other member =>
        stays other (List.mem_cons_of_mem i member)

end Plays

theorem trace_bind (answers : (i : I) → R i) (p : Prog I R α) (next : α → Prog I R β) :
    trace answers (p >>= next) = trace answers p ++ trace answers (next (eval answers p)) :=
  (Plays.bind (p := p) ⟨rfl, rfl⟩ ⟨rfl, rfl⟩).trace_eq

theorem eval_bind (answers : (i : I) → R i) (p : Prog I R α) (next : α → Prog I R β) :
    eval answers (p >>= next) = eval answers (next (eval answers p)) :=
  (Plays.bind (p := p) ⟨rfl, rfl⟩ ⟨rfl, rfl⟩).eval_eq

/-- Every way through the program meets an operation of a kind. -/
def Meets (kind : I → Prop) : Prog I R α → Prop
  | .ret _ => False
  | .op i next => kind i ∨ ∀ answer, Meets kind (next answer)

namespace Meets

variable {kind : I → Prop} {p : Prog I R α}

theorem bind_left (first : Meets kind p) (next : α → Prog I R β) : Meets kind (p >>= next) := by
  induction p with
  | ret value => exact first.elim
  | op i rest ih =>
      rcases first with here | later
      · exact Or.inl here
      · exact Or.inr fun answer => ih answer (later answer)

theorem bind_right {next : α → Prog I R β} (second : ∀ value, Meets kind (next value)) :
    Meets kind (p >>= next) := by
  induction p with
  | ret value => exact second value
  | op i rest ih => exact Or.inr ih

theorem exists_mem_trace (meets : Meets kind p) (answers : (i : I) → R i) :
    ∃ i ∈ trace answers p, kind i := by
  induction p with
  | ret value => exact meets.elim
  | op i rest ih =>
      rcases meets with here | later
      · exact ⟨i, List.mem_cons_self, here⟩
      · obtain ⟨other, member, found⟩ := ih (answers i) (later (answers i))
        exact ⟨other, List.mem_cons_of_mem i member, found⟩

/-- Where the operations of the kind throw, no run returns. -/
theorem run_ne_ok (meets : Meets kind p)
    (throws : ∀ i state answer changed, kind i → machine.step i state ≠ .ok (answer, changed))
    (faults : List Bool) (state : σ) (value : α) :
    (run machine p faults state).result ≠ .ok value := by
  induction p generalizing faults state with
  | ret returned => exact meets.elim
  | op i rest ih =>
      intro returns
      rcases run_op_cases machine i rest faults state with
        ⟨error, rem, failed⟩ | ⟨answer, changed, rem, stepped, went⟩
      · rw [failed] at returns
        cases returns
      · rw [went] at returns
        rcases meets with here | later
        · exact throws i state answer changed here stepped
        · exact ih answer (later answer) rem changed returns

end Meets

/-- Every operation the program issues satisfies a condition. -/
def Within (ok : I → Prop) : Prog I R α → Prop
  | .ret _ => True
  | .op i next => ok i ∧ ∀ answer, Within ok (next answer)

theorem Within.bind {ok : I → Prop} {p : Prog I R α} {next : α → Prog I R β}
    (first : Within ok p) (second : ∀ value, Within ok (next value)) :
    Within ok (p >>= next) := by
  induction p with
  | ret value => exact second value
  | op i rest ih => exact ⟨first.1, fun answer => ih answer (first.2 answer)⟩

theorem Within.mono {ok weaker : I → Prop} (implies : ∀ i, ok i → weaker i) {p : Prog I R α}
    (within : Within ok p) : Within weaker p := by
  induction p with
  | ret value => trivial
  | op i rest ih => exact ⟨implies i within.1, fun answer => ih answer (within.2 answer)⟩

theorem Within.and {ok other : I → Prop} {p : Prog I R α} (first : Within ok p)
    (second : Within other p) : Within (fun i => ok i ∧ other i) p := by
  induction p with
  | ret value => trivial
  | op i rest ih =>
      exact ⟨⟨first.1, second.1⟩, fun answer => ih answer (first.2 answer) (second.2 answer)⟩

theorem Within.foldlM {ok : I → Prop} {body : β → α → Prog I R β}
    (turn : ∀ acc item, Within ok (body acc item)) (items : List α) (acc : β) :
    Within ok (items.foldlM body acc) := by
  induction items generalizing acc with
  | nil => trivial
  | cons item more ih =>
      rw [List.foldlM_cons]
      exact (turn acc item).bind ih

/-- What is read off the operations of a program, if nothing is read off any of them. -/
theorem Within.filterMap_trace {ok : I → Prop} {read : I → Option β}
    (silent : ∀ i, ok i → read i = none) {p : Prog I R α} (within : Within ok p)
    (answers : (i : I) → R i) : (trace answers p).filterMap read = [] := by
  induction p with
  | ret value => rfl
  | op i rest ih =>
      rw [trace, List.filterMap_cons_none (silent i within.1)]
      exact ih (answers i) (within.2 (answers i))

/-- A run that returns, returns what the program returns under an oracle that answers like
the steps of the machine. -/
theorem Within.eval_of_run {ok : I → Prop} {answers : (i : I) → R i}
    (agrees : ∀ i state answer changed, ok i → machine.step i state = .ok (answer, changed) →
      answer = answers i)
    {p : Prog I R α} (within : Within ok p) {faults later : List Bool} {state final : σ}
    {value : α} (ended : run machine p faults state = ⟨.ok value, final, later⟩) :
    eval answers p = value := by
  induction p generalizing faults state with
  | ret returned =>
      rw [run_ret] at ended
      cases ended
      rfl
  | op i rest ih =>
      rcases run_op_cases machine i rest faults state with
        ⟨error, rem, failed⟩ | ⟨answer, changed, rem, stepped, went⟩
      · rw [failed] at ended
        cases ended
      · rw [went] at ended
        obtain rfl := agrees i state answer changed within.1 stepped
        exact ih (answers i) (within.2 _) ended

/-- A property that the steps of a program keep is kept by its runs, however they end. -/
theorem Within.run_invariant {ok : I → Prop} (Inv : σ → Prop)
    (keeps : ∀ i state answer changed, ok i → Inv state →
      machine.step i state = .ok (answer, changed) → Inv changed)
    {p : Prog I R α} (within : Within ok p) (faults : List Bool) {state : σ} (start : Inv state) :
    Inv (run machine p faults state).state := by
  induction p generalizing faults state with
  | ret value => exact start
  | op i rest ih =>
      rcases run_op_cases machine i rest faults state with
        ⟨error, rem, failed⟩ | ⟨answer, changed, rem, stepped, went⟩
      · rw [failed]
        exact start
      · rw [went]
        exact ih answer (within.2 answer) rem (keeps i state answer changed within.1 start stepped)

/-- A run that throws does so at an operation that is made to fail or at a step that throws. -/
theorem Within.error_of_run {ok : I → Prop} {p : Prog I R α} (within : Within ok p)
    {faults later : List Bool} {state final : σ} {error : ε}
    (ended : run machine p faults state = ⟨.error error, final, later⟩) :
    ∃ i, ok i ∧ (machine.fallible i = true ∧ error = machine.fault ∨
      ∃ before, machine.step i before = .error error) := by
  induction p generalizing faults state with
  | ret value =>
      rw [run_ret] at ended
      cases ended
  | op i rest ih =>
      -- the step of the machine, once no flag is raised
      have stepped {rem : List Bool} (went : (match machine.step i state with
          | .error thrown => (⟨.error thrown, state, rem⟩ : Ending σ ε α)
          | .ok (answer, changed) => run machine (rest answer) rem changed) =
            ⟨.error error, final, later⟩) :
          ∃ i, ok i ∧ (machine.fallible i = true ∧ error = machine.fault ∨
            ∃ before, machine.step i before = .error error) := by
        cases taken : machine.step i state with
        | error thrown =>
            rw [taken] at went
            cases went
            exact ⟨i, within.1, Or.inr ⟨final, taken⟩⟩
        | ok pair =>
            rw [taken] at went
            exact ih pair.1 (within.2 pair.1) went
      cases fallible : machine.fallible i with
      | false =>
          simp only [run, fallible, if_neg Bool.false_ne_true] at ended
          exact stepped ended
      | true =>
          simp only [run, fallible, if_true] at ended
          split at ended
          · cases ended
            exact ⟨i, within.1, Or.inl ⟨fallible, rfl⟩⟩
          · exact stepped ended

/-- Two machines whose steps agree on related states, for the operations that a
program issues, run the program to the same result and to related states. -/
theorem run_related {τ : Type} {machine : Machine I R σ ε} {other : Machine I R τ ε}
    {ok : I → Prop} {Related : σ → τ → Prop}
    (steps : ∀ i state mirror, ok i → Related state mirror →
      (∃ error, machine.step i state = .error error ∧ other.step i mirror = .error error) ∨
      ∃ answer changed moved, machine.step i state = .ok (answer, changed) ∧
        other.step i mirror = .ok (answer, moved) ∧ Related changed moved)
    {p : Prog I R α} (within : Within ok p) {state : σ} {mirror : τ}
    (related : Related state mirror) :
    (run machine p [] state).result = (run other p [] mirror).result ∧
      Related (run machine p [] state).state (run other p [] mirror).state := by
  induction p generalizing state mirror with
  | ret value => exact ⟨rfl, related⟩
  | op i rest ih =>
      rw [run_op_nil, run_op_nil]
      rcases steps i state mirror within.1 related with
        ⟨error, first, second⟩ | ⟨answer, changed, moved, first, second, again⟩
      · rw [first, second]
        exact ⟨rfl, related⟩
      · rw [first, second]
        exact ih answer (within.2 answer) again

/-! ## Publishing last -/

/-- A publishing operation is the last one of the program. -/
def PublishesLast (publishes : I → Bool) : Prog I R α → Prop
  | .ret _ => True
  | .op i next =>
      (publishes i = true → ∀ answer, ∃ value, next answer = .ret value) ∧
      ∀ answer, PublishesLast publishes (next answer)

theorem Within.publishesLast_bind {publishes : I → Bool} {p : Prog I R α}
    {next : α → Prog I R β} (first : Within (fun i => publishes i = false) p)
    (second : ∀ value, PublishesLast publishes (next value)) :
    PublishesLast publishes (p >>= next) := by
  induction p with
  | ret value => exact second value
  | op i rest ih =>
      refine ⟨fun loud => ?_, fun answer => ih answer (first.2 answer)⟩
      rw [first.1] at loud
      cases loud

/-- All or nothing: if only publishing operations change what is observed and
they come last, a run that throws leaves the observation as it was. -/
theorem observe_of_error {publishes : I → Bool} (observe : σ → δ)
    (quiet : ∀ i state answer changed, publishes i = false →
      machine.step i state = .ok (answer, changed) → observe changed = observe state)
    {p : Prog I R α} (last : PublishesLast publishes p) {faults later : List Bool}
    {state final : σ} {error : ε}
    (ended : run machine p faults state = ⟨.error error, final, later⟩) :
    observe final = observe state := by
  induction p generalizing faults state with
  | ret value =>
      rw [run_ret] at ended
      cases ended
  | op i rest ih =>
      rcases run_op_cases machine i rest faults state with
        ⟨error, rem, failed⟩ | ⟨answer, changed, rem, stepped, went⟩
      · rw [failed] at ended
        cases ended
        rfl
      · rw [went] at ended
        cases loud : publishes i with
        | true =>
            obtain ⟨value, ending⟩ := last.1 loud answer
            rw [ending, run_ret] at ended
            cases ended
        | false =>
            rw [ih answer (last.2 answer) ended]
            exact quiet i state answer changed loud stepped

end Prog

end Casbinex.Program
