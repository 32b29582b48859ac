/-
Two deterministic programs on the two ends of a pair of reliable byte streams. Any
schedule and any chunking is a sequence of steps of either side, of one byte each. The
steps of the two sides commute, so one run that has come to its end speaks for all.
-/

import Mathlib.Data.List.Basic

namespace Duplex

variable {β κ μ α γ ε : Type}

/-! ### One side -/

/-- What a program does next. -/
inductive Act (β κ α : Type) where
  | done (result : α)
  | write (items : List β) (next : κ)
  | read (next : β → κ)

/-- From `state` to `last`, a program reads the items `ins` and writes the items `outs`. -/
inductive Trail (act : κ → Act β κ α) : κ → List β → List β → κ → Prop where
  | refl (state : κ) : Trail act state [] [] state
  | write {state next last items ins outs} :
      act state = .write items next → Trail act next ins outs last →
        Trail act state ins (items ++ outs) last
  | read {state next last item ins outs} :
      act state = .read next → Trail act (next item) ins outs last →
        Trail act state (item :: ins) outs last

section Trail

variable {act : κ → Act β κ α} {first middle last : κ} {ins ins' outs outs' : List β}

theorem Trail.trans (before : Trail act first ins outs middle)
    (behind : Trail act middle ins' outs' last) :
    Trail act first (ins ++ ins') (outs ++ outs') last := by
  induction before with
  | refl state => exact behind
  | write does _later ih =>
      rw [List.append_assoc]
      exact .write does (ih behind)
  | read does _later ih => exact .read does (ih behind)

/-- A program that still has to read more on its way has written no less than one that
has read a part of it. -/
theorem Trail.outs_prefix {extra : List β} {other : κ} (short : Trail act first ins outs middle)
    (long : Trail act first (ins ++ extra) outs' other) (more : extra ≠ []) : outs <+: outs' := by
  induction short generalizing outs' with
  | refl state => exact List.nil_prefix
  | write does _later ih =>
      generalize whole : _ ++ extra = read at long
      cases long with
      | refl =>
          exact absurd (List.append_eq_nil_iff.mp whole).2 more
      | write does' later =>
          rw [does] at does'
          cases does'
          subst whole
          exact (List.prefix_append_right_inj _).mpr (ih later)
      | read does' later =>
          rw [does] at does'
          cases does'
  | read does _later ih =>
      rw [List.cons_append] at long
      cases long with
      | write does' later =>
          rw [does] at does'
          cases does'
      | read does' later =>
          rw [does] at does'
          cases does'
          exact ih later

end Trail

/-! ### Both sides -/

/-- The state of each side, all that it has written and how much of the other's writing
it has read. -/
structure Pipe (β κ μ : Type) where
  left : κ
  right : μ
  leftSent : List β
  rightSent : List β
  leftGot : Nat
  rightGot : Nat

def Pipe.start (left : κ) (right : μ) : Pipe β κ μ :=
  { left := left
    right := right
    leftSent := []
    rightSent := []
    leftGot := 0
    rightGot := 0 }

/-- A step of the left side, if it has one. It waits for an item that is not there. -/
def leftStep (act : κ → Act β κ α) (pipe : Pipe β κ μ) : Option (Pipe β κ μ) :=
  match act pipe.left with
  | .done _ => none
  | .write items next => some { pipe with left := next, leftSent := pipe.leftSent ++ items }
  | .read next =>
      pipe.rightSent[pipe.leftGot]?.map fun item =>
        { pipe with left := next item, leftGot := pipe.leftGot + 1 }

def rightStep (act : μ → Act β μ γ) (pipe : Pipe β κ μ) : Option (Pipe β κ μ) :=
  match act pipe.right with
  | .done _ => none
  | .write items next => some { pipe with right := next, rightSent := pipe.rightSent ++ items }
  | .read next =>
      pipe.leftSent[pipe.rightGot]?.map fun item =>
        { pipe with right := next item, rightGot := pipe.rightGot + 1 }

/-- A schedule: that many steps, of either side. -/
inductive Run (act : κ → Act β κ α) (act' : μ → Act β μ γ) :
    Nat → Pipe β κ μ → Pipe β κ μ → Prop where
  | nil (pipe : Pipe β κ μ) : Run act act' 0 pipe pipe
  | left {steps pipe next last} :
      leftStep act pipe = some next → Run act act' steps next last →
        Run act act' (steps + 1) pipe last
  | right {steps pipe next last} :
      rightStep act' pipe = some next → Run act act' steps next last →
        Run act act' (steps + 1) pipe last

/-- Neither side has a step. -/
structure Stuck (act : κ → Act β κ α) (act' : μ → Act β μ γ) (pipe : Pipe β κ μ) : Prop where
  left : leftStep act pipe = none
  right : rightStep act' pipe = none

section Run

variable {act : κ → Act β κ α} {act' : μ → Act β μ γ} {pipe next other last : Pipe β κ μ}
  {steps more : Nat}

theorem leftStep_write {items : List β} {after : κ} (does : act pipe.left = .write items after) :
    leftStep act pipe = some { pipe with left := after, leftSent := pipe.leftSent ++ items } := by
  rw [leftStep, does]

theorem leftStep_read {item : β} {after : β → κ} (does : act pipe.left = .read after)
    (there : pipe.rightSent[pipe.leftGot]? = some item) :
    leftStep act pipe = some { pipe with left := after item, leftGot := pipe.leftGot + 1 } := by
  rw [leftStep, does]
  dsimp only
  rw [there]
  rfl

theorem rightStep_write {items : List β} {after : μ}
    (does : act' pipe.right = .write items after) :
    rightStep act' pipe =
      some { pipe with right := after, rightSent := pipe.rightSent ++ items } := by
  rw [rightStep, does]

theorem rightStep_read {item : β} {after : β → μ} (does : act' pipe.right = .read after)
    (there : pipe.leftSent[pipe.rightGot]? = some item) :
    rightStep act' pipe = some { pipe with right := after item, rightGot := pipe.rightGot + 1 } := by
  rw [rightStep, does]
  dsimp only
  rw [there]
  rfl

theorem leftStep_cases (stepped : leftStep act pipe = some next) :
    (∃ items after, act pipe.left = .write items after ∧
        next = { pipe with left := after, leftSent := pipe.leftSent ++ items }) ∨
      ∃ item after, act pipe.left = .read after ∧ pipe.rightSent[pipe.leftGot]? = some item ∧
        next = { pipe with left := after item, leftGot := pipe.leftGot + 1 } := by
  unfold leftStep at stepped
  cases does : act pipe.left with
  | done result =>
      rw [does] at stepped
      cases stepped
  | write items after =>
      rw [does] at stepped
      cases stepped
      exact Or.inl ⟨items, after, rfl, rfl⟩
  | read after =>
      rw [does] at stepped
      obtain ⟨item, there, rfl⟩ := Option.map_eq_some_iff.mp stepped
      exact Or.inr ⟨item, after, rfl, there, rfl⟩

theorem rightStep_cases (stepped : rightStep act' pipe = some next) :
    (∃ items after, act' pipe.right = .write items after ∧
        next = { pipe with right := after, rightSent := pipe.rightSent ++ items }) ∨
      ∃ item after, act' pipe.right = .read after ∧ pipe.leftSent[pipe.rightGot]? = some item ∧
        next = { pipe with right := after item, rightGot := pipe.rightGot + 1 } := by
  unfold rightStep at stepped
  cases does : act' pipe.right with
  | done result =>
      rw [does] at stepped
      cases stepped
  | write items after =>
      rw [does] at stepped
      cases stepped
      exact Or.inl ⟨items, after, rfl, rfl⟩
  | read after =>
      rw [does] at stepped
      obtain ⟨item, there, rfl⟩ := Option.map_eq_some_iff.mp stepped
      exact Or.inr ⟨item, after, rfl, there, rfl⟩

private theorem still_there {sent items : List β} {got : Nat} {item : β}
    (there : sent[got]? = some item) : (sent ++ items)[got]? = some item := by
  rw [List.getElem?_append_left (List.getElem?_eq_some_iff.mp there).1]
  exact there

/-- The steps of the two sides commute. -/
theorem step_diamond (left : leftStep act pipe = some next)
    (right : rightStep act' pipe = some other) :
    ∃ both, rightStep act' next = some both ∧ leftStep act other = some both := by
  rcases leftStep_cases left with ⟨items, after, ours, rfl⟩ | ⟨item, after, ours, there, rfl⟩
  · rcases rightStep_cases right with ⟨items', after', theirs, rfl⟩ |
      ⟨item', after', theirs, there', rfl⟩
    · exact ⟨_, rightStep_write theirs, leftStep_write ours⟩
    · exact ⟨_, rightStep_read theirs (still_there there'), leftStep_write ours⟩
  · rcases rightStep_cases right with ⟨items', after', theirs, rfl⟩ |
      ⟨item', after', theirs, there', rfl⟩
    · exact ⟨_, rightStep_write theirs, leftStep_read ours (still_there there)⟩
    · exact ⟨_, rightStep_read theirs there', leftStep_read ours there⟩

theorem Run.trans (before : Run act act' steps pipe next) (behind : Run act act' more next last) :
    Run act act' (steps + more) pipe last := by
  induction before with
  | nil pipe =>
      rw [Nat.zero_add]
      exact behind
  | left stepped _rest ih =>
      rw [Nat.add_right_comm]
      exact .left stepped (ih behind)
  | right stepped _rest ih =>
      rw [Nat.add_right_comm]
      exact .right stepped (ih behind)

theorem run_after_left (run : Run act act' steps pipe last) (stuck : Stuck act act' last)
    (stepped : leftStep act pipe = some next) :
    ∃ fewer, steps = fewer + 1 ∧ Run act act' fewer next last := by
  induction run generalizing next with
  | nil pipe =>
      rw [stuck.left] at stepped
      cases stepped
  | left first rest ih =>
      rw [first] at stepped
      cases stepped
      exact ⟨_, rfl, rest⟩
  | right first rest ih =>
      obtain ⟨both, theirs, ours⟩ := step_diamond stepped first
      obtain ⟨fewer, rfl, tail⟩ := ih stuck ours
      exact ⟨fewer + 1, rfl, .right theirs tail⟩

theorem run_after_right (run : Run act act' steps pipe last) (stuck : Stuck act act' last)
    (stepped : rightStep act' pipe = some next) :
    ∃ fewer, steps = fewer + 1 ∧ Run act act' fewer next last := by
  induction run generalizing next with
  | nil pipe =>
      rw [stuck.right] at stepped
      cases stepped
  | right first rest ih =>
      rw [first] at stepped
      cases stepped
      exact ⟨_, rfl, rest⟩
  | left first rest ih =>
      obtain ⟨both, ours, theirs⟩ := step_diamond first stepped
      obtain ⟨fewer, rfl, tail⟩ := ih stuck ours
      exact ⟨fewer + 1, rfl, .left theirs tail⟩

/-- Every schedule is part of one that ends where this one ends. -/
theorem run_confluent (run : Run act act' steps pipe last) (stuck : Stuck act act' last)
    (part : Run act act' more pipe other) :
    ∃ rest, steps = more + rest ∧ Run act act' rest other last := by
  induction part generalizing steps with
  | nil pipe => exact ⟨steps, (Nat.zero_add steps).symm, run⟩
  | left stepped _part ih =>
      obtain ⟨fewer, rfl, tail⟩ := run_after_left run stuck stepped
      obtain ⟨rest, rfl, behind⟩ := ih tail
      exact ⟨rest, Nat.add_right_comm _ _ _, behind⟩
  | right stepped _part ih =>
      obtain ⟨fewer, rfl, tail⟩ := run_after_right run stuck stepped
      obtain ⟨rest, rfl, behind⟩ := ih tail
      exact ⟨rest, Nat.add_right_comm _ _ _, behind⟩

/-- Every schedule that has come to an end has come to this one. -/
theorem run_unique (run : Run act act' steps pipe last) (stuck : Stuck act act' last)
    (ended : Run act act' more pipe other) (stuckOther : Stuck act act' other) : other = last := by
  obtain ⟨rest, _total, tail⟩ := run_confluent run stuck ended
  cases tail with
  | nil => rfl
  | left stepped _ =>
      rw [stuckOther.left] at stepped
      cases stepped
  | right stepped _ =>
      rw [stuckOther.right] at stepped
      cases stepped

/-- Every schedule comes to an end, and always to one with this property. -/
def Ends (act : κ → Act β κ α) (act' : μ → Act β μ γ) (pipe : Pipe β κ μ)
    (property : Pipe β κ μ → Prop) : Prop :=
  ∃ bound, ∀ steps last, Run act act' steps pipe last →
    steps ≤ bound ∧ (Stuck act act' last → property last)

theorem ends_of_run {property : Pipe β κ μ → Prop} (run : Run act act' steps pipe last)
    (stuck : Stuck act act' last) (holds : property last) : Ends act act' pipe property := by
  refine ⟨steps, fun more other part => ⟨?_, fun ended => ?_⟩⟩
  · obtain ⟨rest, total, _tail⟩ := run_confluent run stuck part
    omega
  · rw [run_unique run stuck part ended]
    exact holds

/-! ### What a run tells about each side -/

/-- Each side has gone its way, and what it has read is the front of what the other has
written. -/
structure Traced (act : κ → Act β κ α) (act' : μ → Act β μ γ) (first : κ) (first' : μ)
    (pipe : Pipe β κ μ) : Prop where
  left : Trail act first (pipe.rightSent.take pipe.leftGot) pipe.leftSent pipe.left
  right : Trail act' first' (pipe.leftSent.take pipe.rightGot) pipe.rightSent pipe.right
  leftGot_le : pipe.leftGot ≤ pipe.rightSent.length
  rightGot_le : pipe.rightGot ≤ pipe.leftSent.length

theorem traced_start (act : κ → Act β κ α) (act' : μ → Act β μ γ) (first : κ) (first' : μ) :
    Traced act act' first first' (Pipe.start first first') where
  left := .refl first
  right := .refl first'
  leftGot_le := Nat.le_refl 0
  rightGot_le := Nat.le_refl 0

variable {first : κ} {first' : μ}

private theorem take_next {sent : List β} {got : Nat} {item : β} (there : sent[got]? = some item) :
    sent.take (got + 1) = sent.take got ++ [item] := by
  rw [List.take_add_one, there]
  rfl

theorem Traced.leftStep (traced : Traced act act' first first' pipe)
    (stepped : leftStep act pipe = some next) : Traced act act' first first' next := by
  rcases leftStep_cases stepped with ⟨items, after, does, rfl⟩ | ⟨item, after, does, there, rfl⟩
  · refine ⟨?_, ?_, traced.leftGot_le, ?_⟩
    · have one := traced.left.trans (.write does (.refl after))
      rw [List.append_nil, List.append_nil] at one
      exact one
    · dsimp only
      rw [List.take_append_of_le_length traced.rightGot_le]
      exact traced.right
    · dsimp only
      rw [List.length_append]
      exact Nat.le_trans traced.rightGot_le (Nat.le_add_right _ _)
  · refine ⟨?_, traced.right, (List.getElem?_eq_some_iff.mp there).1, traced.rightGot_le⟩
    have one := traced.left.trans (Trail.read does (.refl (after item)))
    rw [List.append_nil, ← take_next there] at one
    exact one

theorem Traced.rightStep (traced : Traced act act' first first' pipe)
    (stepped : rightStep act' pipe = some next) : Traced act act' first first' next := by
  rcases rightStep_cases stepped with ⟨items, after, does, rfl⟩ | ⟨item, after, does, there, rfl⟩
  · refine ⟨?_, ?_, ?_, traced.rightGot_le⟩
    · dsimp only
      rw [List.take_append_of_le_length traced.leftGot_le]
      exact traced.left
    · have one := traced.right.trans (.write does (.refl after))
      rw [List.append_nil, List.append_nil] at one
      exact one
    · dsimp only
      rw [List.length_append]
      exact Nat.le_trans traced.leftGot_le (Nat.le_add_right _ _)
  · refine ⟨traced.left, ?_, traced.leftGot_le, (List.getElem?_eq_some_iff.mp there).1⟩
    have one := traced.right.trans (Trail.read does (.refl (after item)))
    rw [List.append_nil, ← take_next there] at one
    exact one

theorem Traced.run (traced : Traced act act' first first' pipe)
    (run : Run act act' steps pipe last) : Traced act act' first first' last := by
  induction run with
  | nil pipe => exact traced
  | left stepped _rest ih => exact ih (traced.leftStep stepped)
  | right stepped _rest ih => exact ih (traced.rightStep stepped)

theorem sent_prefix (run : Run act act' steps pipe last) :
    pipe.leftSent <+: last.leftSent ∧ pipe.rightSent <+: last.rightSent := by
  induction run with
  | nil pipe => exact ⟨List.prefix_refl _, List.prefix_refl _⟩
  | left stepped _rest ih =>
      rcases leftStep_cases stepped with ⟨items, after, _does, rfl⟩ | ⟨item, after, _does, _there, rfl⟩
      · exact ⟨(List.prefix_append _ _).trans ih.1, ih.2⟩
      · exact ih
  | right stepped _rest ih =>
      rcases rightStep_cases stepped with ⟨items, after, _does, rfl⟩ | ⟨item, after, _does, _there, rfl⟩
      · exact ⟨ih.1, (List.prefix_append _ _).trans ih.2⟩
      · exact ih

/-! ### Runs from trails -/

/-- There is a schedule from one state to another. -/
def Leads (act : κ → Act β κ α) (act' : μ → Act β μ γ) (pipe last : Pipe β κ μ) : Prop :=
  ∃ steps, Run act act' steps pipe last

theorem Leads.trans (before : Leads act act' pipe next) (behind : Leads act act' next last) :
    Leads act act' pipe last := by
  obtain ⟨steps, run⟩ := before
  obtain ⟨more, rest⟩ := behind
  exact ⟨steps + more, run.trans rest⟩

private theorem ahead_item {sent ins rest : List β} {got : Nat} {item : β}
    (ahead : sent.drop got = item :: ins ++ rest) :
    sent[got]? = some item ∧ sent.drop (got + 1) = ins ++ rest := by
  constructor
  · have first := congrArg List.head? ahead
    rw [List.head?_drop] at first
    exact first
  · rw [← List.drop_drop, ahead]
    rfl

theorem trail_left {ins outs rest : List β} {middle : κ} (trail : Trail act pipe.left ins outs middle)
    (ahead : pipe.rightSent.drop pipe.leftGot = ins ++ rest) :
    Leads act act' pipe
      { pipe with
        left := middle
        leftSent := pipe.leftSent ++ outs
        leftGot := pipe.leftGot + ins.length } := by
  generalize at_ : pipe.left = first at trail
  induction trail generalizing pipe with
  | refl state =>
      subst at_
      rw [List.append_nil]
      exact ⟨0, .nil pipe⟩
  | @write state after last items ins outs does _later ih =>
      have stepped := leftStep_write (at_ ▸ does)
      obtain ⟨steps, run⟩ := @ih { pipe with left := after, leftSent := pipe.leftSent ++ items } ahead rfl
      rw [← List.append_assoc]
      exact ⟨steps + 1, .left stepped run⟩
  | @read state after last item ins outs does _later ih =>
      obtain ⟨there, behind⟩ := ahead_item ahead
      have stepped := leftStep_read (at_ ▸ does) there
      obtain ⟨steps, run⟩ := @ih { pipe with left := after item, leftGot := pipe.leftGot + 1 } behind rfl
      rw [List.length_cons, Nat.add_comm _ 1, ← Nat.add_assoc]
      exact ⟨steps + 1, .left stepped run⟩

theorem trail_right {ins outs rest : List β} {middle : μ}
    (trail : Trail act' pipe.right ins outs middle)
    (ahead : pipe.leftSent.drop pipe.rightGot = ins ++ rest) :
    Leads act act' pipe
      { pipe with
        right := middle
        rightSent := pipe.rightSent ++ outs
        rightGot := pipe.rightGot + ins.length } := by
  generalize at_ : pipe.right = first at trail
  induction trail generalizing pipe with
  | refl state =>
      subst at_
      rw [List.append_nil]
      exact ⟨0, .nil pipe⟩
  | @write state after last items ins outs does _later ih =>
      have stepped := rightStep_write (at_ ▸ does)
      obtain ⟨steps, run⟩ :=
        @ih { pipe with right := after, rightSent := pipe.rightSent ++ items } ahead rfl
      rw [← List.append_assoc]
      exact ⟨steps + 1, .right stepped run⟩
  | @read state after last item ins outs does _later ih =>
      obtain ⟨there, behind⟩ := ahead_item ahead
      have stepped := rightStep_read (at_ ▸ does) there
      obtain ⟨steps, run⟩ := @ih { pipe with right := after item, rightGot := pipe.rightGot + 1 } behind rfl
      rw [List.length_cons, Nat.add_comm _ 1, ← Nat.add_assoc]
      exact ⟨steps + 1, .right stepped run⟩

theorem turn_left {left middle : κ} {right : μ} {sent before ins outs : List β} {got : Nat}
    (trail : Trail act left ins outs middle) :
    Leads act act' ⟨left, right, sent, before ++ ins, before.length, got⟩
      ⟨middle, right, sent ++ outs, before ++ ins, (before ++ ins).length, got⟩ := by
  have ahead : (before ++ ins).drop before.length = ins ++ [] := by
    rw [List.drop_left, List.append_nil]
  rw [List.length_append]
  exact @trail_left _ _ _ _ _ act act' ⟨left, right, sent, before ++ ins, before.length, got⟩ _ _ _ _
    trail ahead

theorem turn_right {left : κ} {right middle : μ} {sent before ins outs : List β} {got : Nat}
    (trail : Trail act' right ins outs middle) :
    Leads act act' ⟨left, right, before ++ ins, sent, got, before.length⟩
      ⟨left, middle, before ++ ins, sent ++ outs, got, (before ++ ins).length⟩ := by
  have ahead : (before ++ ins).drop before.length = ins ++ [] := by
    rw [List.drop_left, List.append_nil]
  rw [List.length_append]
  exact @trail_right _ _ _ _ _ act act' ⟨left, right, before ++ ins, sent, got, before.length⟩ _ _ _ _
    trail ahead

theorem exchange {left left₁ left₂ left₃ : κ} {right right₁ right₂ : μ}
    {hello answer proof verdict : List β} (greets : Trail act left [] hello left₁)
    (answers : Trail act' right hello answer right₁) (proves : Trail act left₁ answer proof left₂)
    (judges : Trail act' right₁ proof verdict right₂) (reads : Trail act left₂ verdict [] left₃) :
    Leads act act' (Pipe.start left right)
      ⟨left₃, right₂, hello ++ proof, answer ++ verdict, (answer ++ verdict).length,
        (hello ++ proof).length⟩ := by
  have one : Leads act act' ⟨left, right, [], [] ++ [], ([] : List β).length, 0⟩
      ⟨left₁, right, [] ++ hello, [] ++ [], ([] ++ [] : List β).length, 0⟩ := turn_left greets
  have two : Leads act act' ⟨left₁, right, [] ++ hello, [], 0, ([] : List β).length⟩
      ⟨left₁, right₁, [] ++ hello, [] ++ answer, 0, ([] ++ hello).length⟩ := turn_right answers
  have three : Leads act act' ⟨left₁, right₁, hello, [] ++ answer, ([] : List β).length, hello.length⟩
      ⟨left₂, right₁, hello ++ proof, [] ++ answer, ([] ++ answer).length, hello.length⟩ :=
    turn_left proves
  have four : Leads act act' ⟨left₂, right₁, hello ++ proof, answer, answer.length, hello.length⟩
      ⟨left₂, right₂, hello ++ proof, answer ++ verdict, answer.length, (hello ++ proof).length⟩ :=
    turn_right judges
  have five : Leads act act'
      ⟨left₂, right₂, hello ++ proof, answer ++ verdict, answer.length, (hello ++ proof).length⟩
      ⟨left₃, right₂, (hello ++ proof) ++ [], answer ++ verdict, (answer ++ verdict).length,
        (hello ++ proof).length⟩ := turn_left reads
  rw [List.append_nil] at five
  exact (one.trans two).trans (three.trans (four.trans five))

theorem stuck_of_done {result : α} {result' : γ} (left : act pipe.left = .done result)
    (right : act' pipe.right = .done result') : Stuck act act' pipe where
  left := by rw [leftStep, left]
  right := by rw [rightStep, right]

end Run

end Duplex
