import Mathlib.Data.List.Basic

set_option autoImplicit false

namespace Runs

variable {σ ε ρ : Type}

structure Step (σ ε ρ : Type) where
  before : σ
  event : ε
  result : ρ
  after : σ

def stepOf (react : σ → ε → ρ × σ) (state : σ) (event : ε) : Step σ ε ρ :=
  ⟨state, event, (react state event).1, (react state event).2⟩

section StepOf

variable (react : σ → ε → ρ × σ) (state : σ) (event : ε)

@[simp]
theorem stepOf_before : (stepOf react state event).before = state := rfl

@[simp]
theorem stepOf_event : (stepOf react state event).event = event := rfl

@[simp]
theorem stepOf_result : (stepOf react state event).result = (react state event).1 := rfl

@[simp]
theorem stepOf_after : (stepOf react state event).after = (react state event).2 := rfl

end StepOf

def run (react : σ → ε → ρ × σ) : σ → List ε → List (Step σ ε ρ)
  | _, [] => []
  | state, event :: rest => stepOf react state event :: run react (react state event).2 rest

/--
A property holds of every step of a run exactly if a condition does. `always` is an invariant of all
runs; `careful` one of the runs whose steps meet the condition.
-/
theorem forall_run_iff {react : σ → ε → ρ × σ} {always careful : σ → Prop}
    {property condition : Step σ ε ρ → Prop}
    (always_step : ∀ state event, always state → always (react state event).2)
    (careful_step : ∀ state event, always state → careful state →
      condition (stepOf react state event) → careful (react state event).2)
    (necessary : ∀ state event, always state → careful state →
      property (stepOf react state event) → condition (stepOf react state event))
    (sufficient : ∀ state event, always state → careful state →
      condition (stepOf react state event) → property (stepOf react state event))
    {state : σ} (start : always state) (clean : careful state) (events : List ε) :
    (∀ step ∈ run react state events, property step) ↔
      ∀ step ∈ run react state events, condition step := by
  induction events generalizing state with
  | nil => simp [run]
  | cons event rest ih =>
      simp only [run, List.forall_mem_cons]
      constructor
      · intro ⟨here, later⟩
        have met := necessary state event start clean here
        have next := ih (always_step state event start) (careful_step state event start clean met)
        exact ⟨met, next.mp later⟩
      · intro ⟨met, later⟩
        have next := ih (always_step state event start) (careful_step state event start clean met)
        exact ⟨sufficient state event start clean met, next.mpr later⟩

end Runs
