import Mathlib.Data.List.Basic

/-!
# Runs of labelled transition systems

Runs are sequences of steps, each allowed in the state where it is taken.  An
invariant of the allowed steps holds in every state reached.
-/

namespace Casbinex.Program

variable {σ Act : Type}

/-- States reached from `start` by steps that are all allowed. -/
inductive RunFrom (step : σ → Act → σ → Prop) (allowed : σ → Act → Prop) (start : σ) : σ → Prop
  | refl : RunFrom step allowed start start
  | tail {middle last : σ} {act : Act} :
      RunFrom step allowed start middle → allowed middle act → step middle act last →
      RunFrom step allowed start last

/-- States reached by any steps. -/
def Reachable (step : σ → Act → σ → Prop) (start : σ) : σ → Prop :=
  RunFrom step (fun _ _ => True) start

namespace RunFrom

variable {step : σ → Act → σ → Prop} {allowed : σ → Act → Prop} {start last : σ}

/-- An invariant of the allowed steps holds along the run. -/
theorem invariant {Inv : σ → Prop} (init : Inv start)
    (keeps : ∀ state act next, Inv state → allowed state act → step state act next → Inv next)
    (run : RunFrom step allowed start last) : Inv last := by
  induction run with
  | refl => exact init
  | tail _ ok edge ih => exact keeps _ _ _ ih ok edge

end RunFrom

/-- Take the steps of a list in order, each one only if the check admits it. -/
def follow (admits : σ → Act → Bool) (next : σ → Act → Option σ) : σ → List Act → Option σ
  | state, [] => some state
  | state, act :: more =>
      if admits state act then (next state act).bind (follow admits next · more) else none

/-- A computed trace is a run of the steps that the check admits. -/
theorem runFrom_of_follow {admits : σ → Act → Bool} {next : σ → Act → Option σ}
    {allowed : σ → Act → Prop} (sound : ∀ state act, admits state act = true → allowed state act)
    {start last : σ} {acts : List Act} (computed : follow admits next start acts = some last) :
    RunFrom (fun state act after => next state act = some after) allowed start last := by
  suffices continued : ∀ (acts : List Act) (middle : σ),
      RunFrom (fun state act after => next state act = some after) allowed start middle →
      follow admits next middle acts = some last →
      RunFrom (fun state act after => next state act = some after) allowed start last from
    continued acts start .refl computed
  intro acts
  induction acts with
  | nil =>
      intro middle reached ended
      cases ended
      exact reached
  | cons act more ih =>
      intro middle reached ended
      rw [follow] at ended
      split at ended
      · next admitted =>
          obtain ⟨after, taken, rest⟩ := Option.bind_eq_some_iff.mp ended
          exact ih after (.tail reached (sound middle act admitted) taken) rest
      · cases ended

/-- A computed trace reaches a state that passes a test. -/
theorem exists_run_of_follow {admits : σ → Act → Bool} {next : σ → Act → Option σ}
    {allowed : σ → Act → Prop} (sound : ∀ state act, admits state act = true → allowed state act)
    {start : σ} {acts : List Act} {goal : σ → Prop} [DecidablePred goal]
    (computed : (follow admits next start acts).any (fun last => decide (goal last)) = true) :
    ∃ last, RunFrom (fun state act after => next state act = some after) allowed start last ∧
      goal last := by
  obtain ⟨last, followed, ended⟩ := (Option.any_eq_true _ _).mp computed
  exact ⟨last, runFrom_of_follow sound followed, of_decide_eq_true ended⟩

end Casbinex.Program
