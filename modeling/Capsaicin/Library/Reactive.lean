/-
Machines that answer each input with some outputs and may stop, and what holds at
every moment of such a run.
-/

import Mathlib.Data.List.Basic

namespace Reactive

variable {σ τ ι ω β : Type}

structure Turn (ι ω : Type) where
  input : ι
  output : List ω
  deriving DecidableEq, Repr

/-- The outputs for an input, and the state behind it unless the machine stops. -/
abbrev Machine (σ ι ω : Type) := σ → ι → List ω × Option σ

/-- What a machine does with a list of inputs. It ignores what comes after it stopped. -/
def trace (machine : Machine σ ι ω) : σ → List ι → List (Turn ι ω)
  | _, [] => []
  | state, input :: rest =>
      match machine state input with
      | (output, some next) => { input := input, output := output } :: trace machine next rest
      | (output, none) => [{ input := input, output := output }]

/-- The state behind all the inputs, if the machine is still running then. -/
def final (machine : Machine σ ι ω) : σ → List ι → Option σ
  | state, [] => some state
  | state, input :: rest =>
      match (machine state input).2 with
      | some next => final machine next rest
      | none => none

/-- What the steps keep, about the inputs so far and the state, holds wherever a run is. -/
theorem final_history {machine : Machine σ ι ω} {holds : List ι → σ → Prop}
    (keeps : ∀ before state input next, holds before state →
      (machine state input).2 = some next → holds (before ++ [input]) next)
    {before inputs : List ι} {start state : σ} (holdsStart : holds before start)
    (ran : final machine start inputs = some state) : holds (before ++ inputs) state := by
  induction inputs generalizing before start with
  | nil =>
      cases ran
      rw [List.append_nil]
      exact holdsStart
  | cons input rest ih =>
      rw [final] at ran
      cases stepped : (machine start input).2 with
      | none =>
          rw [stepped] at ran
          cases ran
      | some next =>
          rw [stepped] at ran
          have whole := ih (keeps before start input next holdsStart stepped) ran
          rw [List.append_assoc] at whole
          exact whole

theorem trace_turn {machine : Machine σ ι ω} {holds : Turn ι ω → Prop} {start : σ} {inputs : List ι}
    (puts : ∀ state input, holds { input := input, output := (machine state input).1 })
    {turn : Turn ι ω} (turned : turn ∈ trace machine start inputs) : holds turn := by
  induction inputs generalizing start with
  | nil => cases turned
  | cons input rest ih =>
      have here := puts start input
      rw [trace] at turned
      split at turned
      · rename_i output next stepped
        rw [stepped] at here
        rcases List.mem_cons.mp turned with first | later
        · exact first ▸ here
        · exact ih later
      · rename_i output stepped
        rw [stepped] at here
        rw [List.mem_singleton.mp turned]
        exact here

/-- What the steps keep, about the turns so far and the state, holds before every turn of a run
that does not stop. -/
theorem trace_history {machine : Machine σ ι ω} {holds : List (Turn ι ω) → σ → Prop}
    (keeps : ∀ before state input output next, holds before state →
      machine state input = (output, some next) →
      holds (before ++ [{ input := input, output := output }]) next)
    {inputs : List ι} {earlier before after : List (Turn ι ω)} {turn : Turn ι ω} {start last : σ}
    (holdsStart : holds earlier start) (ran : final machine start inputs = some last)
    (split : trace machine start inputs = before ++ turn :: after) :
    ∃ state next, holds (earlier ++ before) state ∧
      machine state turn.input = (turn.output, some next) := by
  induction inputs generalizing earlier before start with
  | nil => simp [trace] at split
  | cons input rest ih =>
      rw [final] at ran
      rw [trace] at split
      rcases stepped : machine start input with ⟨output, behind⟩
      rw [stepped] at ran split
      cases behind with
      | none => cases ran
      | some next =>
          dsimp only at ran split
          cases before with
          | nil =>
              rcases List.cons.inj split with ⟨rfl, _later⟩
              rw [List.append_nil]
              exact ⟨start, next, holdsStart, stepped⟩
          | cons first others =>
              rcases List.cons.inj split with ⟨rfl, later⟩
              rcases ih (keeps earlier start input output next holdsStart stepped) ran later with
                ⟨state, end', held, step⟩
              rw [List.append_assoc] at held
              exact ⟨state, end', held, step⟩

theorem trace_inputs {machine : Machine σ ι ω} {inputs : List ι} {start last : σ}
    (ran : final machine start inputs = some last) :
    (trace machine start inputs).map Turn.input = inputs := by
  induction inputs generalizing start with
  | nil => rfl
  | cons input rest ih =>
      rw [final] at ran
      rw [trace]
      rcases stepped : machine start input with ⟨output, behind⟩
      rw [stepped] at ran
      cases behind with
      | none => cases ran
      | some next => exact congrArg (input :: ·) (ih ran)

def Always (machine : Machine σ ι ω) (kind : σ → ι → Prop) : σ → List ι → Prop
  | _, [] => True
  | state, input :: rest =>
      kind state input ∧ ∀ next, (machine state input).2 = some next → Always machine kind next rest

theorem always_of {machine : Machine σ ι ω} {kind : σ → ι → Prop}
    (every : ∀ state input, kind state input) (start : σ) (inputs : List ι) :
    Always machine kind start inputs := by
  induction inputs generalizing start with
  | nil => trivial
  | cons input rest ih => exact ⟨every start input, fun next _stepped => ih next⟩

/-! ### Moments -/

/-- A summary of what happened so far has a property at every moment. -/
def Throughout (next : τ → β → τ) (holds : τ → Prop) (start : τ) (happened : List β) : Prop :=
  ∀ moment, moment <+: happened → holds (moment.foldl next start)

variable {next : τ → β → τ} {holds : τ → Prop} {start : τ}

theorem throughout_here {happened : List β} (always : Throughout next holds start happened) :
    holds start := always [] List.nil_prefix

theorem throughout_nil : Throughout next holds start [] ↔ holds start := by
  constructor
  · intro always
    exact always [] (List.prefix_refl [])
  · intro now moment before
    rw [List.prefix_nil.mp before]
    exact now

theorem throughout_cons {item : β} {rest : List β} :
    Throughout next holds start (item :: rest) ↔
      holds start ∧ Throughout next holds (next start item) rest := by
  constructor
  · intro always
    refine ⟨always [] List.nil_prefix, ?_⟩
    intro moment before
    exact always (item :: moment) (List.cons_prefix_cons.mpr ⟨rfl, before⟩)
  · rintro ⟨now, later⟩ moment before
    cases moment with
    | nil => exact now
    | cons first moment =>
        obtain ⟨same, behind⟩ := List.cons_prefix_cons.mp before
        subst same
        exact later moment behind

end Reactive
