import Casbinex.Program.Transition

/-!
# Recorded runs

A recorded run keeps its states and steps.  What a state remembers was decided in an
earlier state of the run, and no step since then has made the run forget.  A logged run
keeps what its steps report, and its end is what the log makes of its start.
-/

namespace Casbinex.Program

variable {σ Act κ : Type} {step : σ → Act → σ → Prop} {length : Nat}

/-- The states and the steps of a run. -/
structure Recorded (step : σ → Act → σ → Prop) (length : Nat) where
  state : Nat → σ
  act : Nat → Act
  steps : ∀ n, n < length → step (state n) (act n) (state (n + 1))

namespace Recorded

variable (run : Recorded step length)

/-- No step between the two moments is of a kind. -/
def Without (kind : σ → Act → Prop) (first last : Nat) : Prop :=
  ∀ i, first ≤ i → i < last → ¬ kind (run.state i) (run.act i)

theorem reachable {n : Nat} (reached : n ≤ length) :
    Reachable step (run.state 0) (run.state n) := by
  induction n with
  | zero => exact .refl
  | succ n ih => exact .tail (ih (Nat.le_of_succ_le reached)) trivial (run.steps n reached)

/-- A property that the steps of a stretch keep holds at its end. -/
theorem invariant {kind : σ → Act → Prop} {Inv : σ → Prop} {first last : Nat}
    (without : run.Without kind first last) (ordered : first ≤ last) (reached : last ≤ length)
    (keeps : ∀ state act after, Inv state → ¬ kind state act → step state act after → Inv after)
    (begins : Inv (run.state first)) : Inv (run.state last) := by
  induction ordered with
  | refl => exact begins
  | @step n after ih =>
      have before : run.Without kind first n := fun i from' until' =>
        without i from' (Nat.lt_succ_of_lt until')
      exact keeps _ _ _ (ih before (Nat.le_of_succ_le reached))
        (without n after (Nat.lt_succ_self n)) (run.steps n reached)

/-- Where a step only learns what is decided in its state, and a resetting step forgets
everything, what is remembered was decided since the last resetting step. -/
theorem decided_since {remembers decides : σ → κ → Prop} {resets : σ → Act → Prop}
    (learns : ∀ state act after key, step state act after → remembers after key →
      ¬ resets state act ∧ (remembers state key ∨ decides state key))
    (start : ∀ key, ¬ remembers (run.state 0) key) {n : Nat} (reached : n ≤ length) {key : κ}
    (known : remembers (run.state n) key) :
    ∃ m, m ≤ n ∧ decides (run.state m) key ∧ run.Without resets m n := by
  induction n with
  | zero => exact absurd known (start key)
  | succ n ih =>
      obtain ⟨lasting, before | now⟩ := learns _ _ _ key (run.steps n reached) known
      · obtain ⟨m, earlier, decided, without⟩ := ih (Nat.le_of_succ_le reached) before
        refine ⟨m, Nat.le_succ_of_le earlier, decided, fun i from' until' => ?_⟩
        rcases Nat.lt_succ_iff_lt_or_eq.mp until' with below | rfl
        · exact without i from' below
        · exact lasting
      · refine ⟨n, Nat.le_succ n, now, fun i from' until' => ?_⟩
        obtain rfl : i = n := Nat.le_antisymm (Nat.le_of_lt_succ until') from'
        exact lasting

/-- Every run can be recorded. -/
theorem exists_of_run {allowed : σ → Act → Prop} {start last : σ} (any : Act)
    (run : RunFrom step allowed start last) :
    ∃ (length : Nat) (recorded : Recorded step length),
      recorded.state 0 = start ∧ recorded.state length = last := by
  induction run with
  | refl => exact ⟨0, ⟨fun _ => start, fun _ => any, fun n below => by cases below⟩, rfl, rfl⟩
  | @tail middle last act _ _ edge ih =>
      obtain ⟨length, before, begins, ends⟩ := ih
      refine ⟨length + 1, ⟨fun n => if n ≤ length then before.state n else last,
        fun n => if n < length then before.act n else act, fun n below => ?_⟩, ?_, ?_⟩
      · rcases Nat.lt_succ_iff_lt_or_eq.mp below with inside | rfl
        · simpa [inside, Nat.le_of_lt inside, Nat.succ_le_iff] using before.steps n inside
        · simpa [ends, Nat.not_succ_le_self] using edge
      · simpa using begins
      · exact if_neg (Nat.not_succ_le_self length)

end Recorded

/-! ## Logs -/

section

variable {ω β : Type} {reports : σ → Act → List ω} {start last : σ} {log : List ω}

/-- States reached by any steps, with what the steps report, in their order. -/
inductive Logged (step : σ → Act → σ → Prop) (reports : σ → Act → List ω) (start : σ) :
    List ω → σ → Prop
  | refl : Logged step reports start [] start
  | tail {log : List ω} {middle last : σ} {act : Act} :
      Logged step reports start log middle → step middle act last →
      Logged step reports start (log ++ reports middle act) last

/-- A step before a logged run reports first. -/
theorem Logged.head {middle : σ} {act : Act} (edge : step start act middle)
    (run : Logged step reports middle log last) :
    Logged step reports start (reports start act ++ log) last := by
  induction run with
  | refl =>
      rw [List.append_nil]
      exact Logged.refl.tail edge
  | tail _ later ih =>
      rw [← List.append_assoc]
      exact ih.tail later

/-- Take the steps of a list in order, and note what they report. -/
def followLog (next : σ → Act → Option σ) (reports : σ → Act → List ω) :
    σ → List Act → Option (List ω × σ)
  | state, [] => some ([], state)
  | state, act :: more =>
      (next state act).bind fun after =>
        (followLog next reports after more).map fun ended => (reports state act ++ ended.1, ended.2)

/-- A computed trace with its log is a logged run. -/
theorem logged_of_followLog {next : σ → Act → Option σ} {acts : List Act}
    (computed : followLog next reports start acts = some (log, last)) :
    Logged (fun state act after => next state act = some after) reports start log last := by
  induction acts generalizing start log with
  | nil =>
      cases computed
      exact .refl
  | cons act more ih =>
      obtain ⟨after, taken, rest⟩ := Option.bind_eq_some_iff.mp computed
      obtain ⟨⟨later, reached⟩, followed, ended⟩ := Option.map_eq_some_iff.mp rest
      cases ended
      exact (ih followed).head taken

/-- Where each step takes effect by what it reports, a run does by its log. -/
theorem Logged.replay {Stands : σ → β → Prop} {apply : β → ω → β} {sound : ω → Prop}
    (steps : ∀ state act next held, Stands state held → (∀ entry ∈ reports state act, sound entry) →
      step state act next → Stands next ((reports state act).foldl apply held))
    (run : Logged step reports start log last) {held : β} (begins : Stands start held)
    (all : ∀ entry ∈ log, sound entry) : Stands last (log.foldl apply held) := by
  induction run with
  | refl => exact begins
  | tail _ edge ih =>
      obtain ⟨earlier, now⟩ := List.forall_mem_append.mp all
      rw [List.foldl_append]
      exact steps _ _ _ _ (ih earlier) now edge

end

end Casbinex.Program
