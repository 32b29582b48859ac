/-
Runs over inputs as far as the first fault: from which of them the inputs that change nothing
can be erased, and which of them have no fault.
-/

import Mathlib.Data.List.Basic

namespace Erasure

variable {σ ι φ : Type}

def run (step : σ → ι → Except φ σ) : σ → List ι → Except φ σ
  | state, [] => .ok state
  | state, input :: rest =>
      match step state input with
      | .ok next => run step next rest
      | .error fault => .error fault

/-- Each input that is not seen satisfies a condition at the moment it comes. -/
def Throughout (step : σ → ι → Except φ σ) (seen : ι → Bool) (idle : σ → ι → Prop) :
    σ → List ι → Prop
  | _, [] => True
  | state, input :: rest =>
      (seen input = false → idle state input) ∧
        ∀ next, step state input = .ok next → Throughout step seen idle next rest

variable {step : σ → ι → Except φ σ} {seen : ι → Bool} {idle : σ → ι → Prop} {holds : σ → Prop}

/-- If the condition makes a step leave the state as it is, a run is the run of the inputs
that are seen. -/
theorem run_erased (keeps : ∀ state input next, holds state → step state input = .ok next → holds next)
    (still : ∀ state input, holds state → seen input = false → idle state input →
      step state input = .ok state)
    {state : σ} {inputs : List ι} (start : holds state)
    (throughout : Throughout step seen idle state inputs) :
    run step state inputs = run step state (inputs.filter seen) := by
  induction inputs generalizing state with
  | nil => rfl
  | cons input rest ih =>
      rcases throughout with ⟨first, later⟩
      cases visible : seen input with
      | false =>
          have stepped := still state input start visible (first visible)
          rw [List.filter_cons_of_neg (by rw [visible]; exact Bool.false_ne_true), run, stepped]
          exact ih start (later state stepped)
      | true =>
          rw [List.filter_cons_of_pos visible, run, run]
          cases stepped : step state input with
          | error fault => rfl
          | ok next => exact ih (keeps state input next start stepped) (later next stepped)

theorem run_agrees (keeps : ∀ state input next, holds state → step state input = .ok next → holds next)
    (still : ∀ state input, holds state → seen input = false → idle state input →
      step state input = .ok state)
    {state : σ} {inputs inputs' : List ι} (start : holds state)
    (throughout : Throughout step seen idle state inputs)
    (throughout' : Throughout step seen idle state inputs')
    (same : inputs.filter seen = inputs'.filter seen) :
    run step state inputs = run step state inputs' := by
  rw [run_erased keeps still start throughout, run_erased keeps still start throughout', same]

/-! ### Runs without a fault -/

/-- If a view of the state, which each input moves, says where a step has no fault, it says so
of a whole run. -/
theorem run_survives_iff {α : Type} {view : σ → α} {move : α → ι → α} {safe : α → ι → Prop}
    (keeps : ∀ state input next, holds state → step state input = .ok next →
      holds next ∧ view next = move (view state) input)
    (each : ∀ state input, holds state →
      ((∃ next, step state input = .ok next) ↔ safe (view state) input))
    {state : σ} {inputs : List ι} (start : holds state) :
    (∃ last, run step state inputs = .ok last) ↔
      ∀ before input after, inputs = before ++ input :: after →
        safe (before.foldl move (view state)) input := by
  induction inputs generalizing state with
  | nil =>
      constructor
      · intro _ran before input after split
        cases before with
        | nil => cases split
        | cons first before => cases split
      · intro _safe
        exact ⟨state, rfl⟩
  | cons input rest ih =>
      rw [run]
      constructor
      · intro ran before later after split
        cases stepped : step state input with
        | error fault =>
            rw [stepped] at ran
            rcases ran with ⟨_last, impossible⟩
            cases impossible
        | ok next =>
            rw [stepped] at ran
            rcases keeps state input next start stepped with ⟨kept, moved⟩
            cases before with
            | nil =>
                cases split
                exact (each state input start).mp ⟨next, stepped⟩
            | cons first before =>
                cases split
                have safe := (ih kept).mp ran before later after rfl
                rw [moved] at safe
                exact safe
      · intro safe
        have here := safe [] input rest rfl
        rcases (each state input start).mpr here with ⟨next, stepped⟩
        rcases keeps state input next start stepped with ⟨kept, moved⟩
        rw [stepped]
        apply (ih kept).mpr
        intro before later after split
        have further := safe (input :: before) later after (by rw [split]; rfl)
        rw [moved]
        exact further

end Erasure
