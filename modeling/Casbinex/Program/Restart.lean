/-!
# Procedures that can be cut short

An attempt runs under a schedule that may cut it short anywhere.  If an attempt does
everything or nothing, and a procedure that has done its work answers again what it
answered and changes nothing more, then attempts that were cut short leave no trace in
what the next uncut one answers and leaves.
-/

namespace Casbinex.Program

variable {φ σ ρ : Type}

/-- What an attempt leaves, and what the uncut procedure answers and leaves. -/
structure Procedure (φ σ ρ : Type) where
  attempt : φ → σ → σ
  whole : σ → ρ × σ

namespace Procedure

structure Restartable (procedure : Procedure φ σ ρ) : Prop where
  atomic : ∀ schedule state, procedure.attempt schedule state = state ∨
    procedure.attempt schedule state = (procedure.whole state).2
  repeats : ∀ state, procedure.whole (procedure.whole state).2 = procedure.whole state

/-- Attempts one after the other. -/
def attempts (procedure : Procedure φ σ ρ) (schedules : List φ) (state : σ) : σ :=
  schedules.foldl (fun state schedule => procedure.attempt schedule state) state

variable {procedure : Procedure φ σ ρ}

/-- Step: after an attempt the uncut procedure does what it would have done before. -/
theorem Restartable.whole_attempt (restartable : procedure.Restartable) (schedule : φ)
    (state : σ) : procedure.whole (procedure.attempt schedule state) = procedure.whole state := by
  rcases restartable.atomic schedule state with same | done
  · rw [same]
  · rw [done]
    exact restartable.repeats state

/-- Run: so it does after any number of them. -/
theorem Restartable.whole_attempts (restartable : procedure.Restartable) (schedules : List φ)
    (state : σ) : procedure.whole (procedure.attempts schedules state) = procedure.whole state := by
  induction schedules generalizing state with
  | nil => rfl
  | cons schedule more ih =>
      exact (ih (procedure.attempt schedule state)).trans (restartable.whole_attempt schedule state)

/-- Any number of attempts does everything or nothing. -/
theorem Restartable.attempts_cases (restartable : procedure.Restartable) (schedules : List φ)
    (state : σ) : procedure.attempts schedules state = state ∨
      procedure.attempts schedules state = (procedure.whole state).2 := by
  induction schedules generalizing state with
  | nil => exact Or.inl rfl
  | cons schedule more ih =>
      rcases ih (procedure.attempt schedule state) with same | done
      · exact (restartable.atomic schedule state).imp same.trans same.trans
      · right
        rw [← restartable.whole_attempt schedule state]
        exact done

end Procedure

end Casbinex.Program
