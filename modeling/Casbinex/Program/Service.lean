import Mathlib.Data.List.Forall2

/-!
# Services

A service answers inputs one after the other.  It refines another one if on related
states every input can be read as an input of the other, which gives the same answer and
leaves a related state.  Then every script of inputs gets the answers that some reading
of it gets from the other service.
-/

namespace Casbinex.Program

variable {ι κ ρ σ α : Type}

structure Service (ι ρ σ : Type) where
  answer : ι → σ → ρ × σ

namespace Service

/-- The answers to the inputs that are shown. -/
def told (service : Service ι ρ σ) (shown : ι → Bool) : List ι → σ → List ρ
  | [], _ => []
  | i :: more, state =>
      let rest := service.told shown more (service.answer i state).2
      if shown i then (service.answer i state).1 :: rest else rest

structure Refines (service : Service ι ρ σ) (shown : ι → Bool) (spec : Service κ ρ α)
    (visible : κ → Bool) (admissible : ι → Prop) (means : ι → κ → Prop)
    (related : σ → α → Prop) : Prop where
  step : ∀ i state abstract, admissible i → related state abstract →
    ∃ k, means i k ∧ shown i = visible k ∧
      (shown i = true → (service.answer i state).1 = (spec.answer k abstract).1) ∧
      related (service.answer i state).2 (spec.answer k abstract).2

variable {service : Service ι ρ σ} {shown : ι → Bool} {spec : Service κ ρ α}
  {visible : κ → Bool} {admissible : ι → Prop} {means : ι → κ → Prop} {related : σ → α → Prop}

/-- Run: a script of admissible inputs is answered as some reading of it. -/
theorem Refines.exists_told
    (refines : service.Refines shown spec visible admissible means related) {inputs : List ι}
    (admitted : ∀ i ∈ inputs, admissible i) {state : σ} {abstract : α}
    (begun : related state abstract) :
    ∃ reading, List.Forall₂ means inputs reading ∧
      service.told shown inputs state = spec.told visible reading abstract := by
  induction inputs generalizing state abstract with
  | nil => exact ⟨[], .nil, rfl⟩
  | cons i more ih =>
      obtain ⟨first, rest⟩ := List.forall_mem_cons.mp admitted
      obtain ⟨k, meant, alike, same, next⟩ := refines.step i state abstract first begun
      obtain ⟨reading, meanings, answers⟩ := ih rest next
      refine ⟨k :: reading, .cons meant meanings, ?_⟩
      rw [told, told, answers, ← alike]
      cases view : shown i with
      | false => rfl
      | true => simp only [if_true, same view]

/-- Where every input means itself, the answers are those of the other service. -/
theorem Refines.told_eq {spec : Service ι ρ α}
    (refines : service.Refines shown spec shown admissible (· = ·) related) {inputs : List ι}
    (admitted : ∀ i ∈ inputs, admissible i) {state : σ} {abstract : α}
    (begun : related state abstract) :
    service.told shown inputs state = spec.told shown inputs abstract := by
  obtain ⟨reading, meanings, answers⟩ := refines.exists_told admitted begun
  rw [List.forall₂_eq_eq_eq] at meanings
  rw [answers, meanings]

/-- Inputs that are not shown and leave the state can be left out. -/
theorem told_filter (moves : ι → Bool)
    (idle : ∀ i, moves i = false → shown i = false ∧
      ∀ state, (service.answer i state).2 = state) (inputs : List ι) (state : σ) :
    service.told shown (inputs.filter moves) state = service.told shown inputs state := by
  induction inputs generalizing state with
  | nil => rfl
  | cons i more ih =>
      cases moving : moves i with
      | false =>
          obtain ⟨hidden, stays⟩ := idle i moving
          rw [List.filter_cons_of_neg (by simp [moving]), ih, told, stays]
          simp [hidden]
      | true => rw [List.filter_cons_of_pos moving, told, told, ih]

end Service

end Casbinex.Program
