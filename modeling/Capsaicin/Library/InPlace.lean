/-
Copies inside one list, one cell after the other. When no cell is read after it has been
written, the order does not show: every target holds what its source held at the beginning.
-/

import Capsaicin.Library.Program
import Mathlib.Data.List.Pairwise

namespace InPlace

open Program (index assign)

variable {ε α : Type}

/-- From a position to a position. -/
structure Move where
  source : Nat
  target : Nat
  deriving DecidableEq, Repr

def Move.run (cells : List α) (move : Move) : Except (Program.Fault ε) (List α) := do
  let cell ← index cells move.source
  assign cells move.target cell

/-- What the earlier of two moves writes is neither read nor written by the later one. -/
def Apart (earlier later : Move) : Prop :=
  earlier.target ≠ later.source ∧ earlier.target ≠ later.target

def Move.Within (size : Nat) (move : Move) : Prop := move.source < size ∧ move.target < size

theorem Move.run_eq {cells : List α} {move : Move} (within : move.Within cells.length) :
    ∃ next, Move.run (ε := ε) cells move = .ok next ∧ next.length = cells.length ∧
      next[move.target]? = cells[move.source]? ∧
      ∀ position, move.target ≠ position → next[position]? = cells[position]? := by
  rcases within with ⟨source, target⟩
  refine ⟨cells.set move.target cells[move.source], ?_, List.length_set, ?_, ?_⟩
  · rw [Move.run, Program.bind_ok (Program.index_of_lt source), Program.assign_of_lt _ target]
  · rw [List.getElem?_set_self target, List.getElem?_eq_getElem source]
  · intro position other
    rw [List.getElem?_set_ne other]

theorem run_all {moves : List Move} {cells : List α}
    (within : ∀ move ∈ moves, move.Within cells.length) (apart : moves.Pairwise Apart) :
    ∃ after, moves.foldlM (Move.run (ε := ε)) cells = .ok after ∧ after.length = cells.length ∧
      (∀ move ∈ moves, after[move.target]? = cells[move.source]?) ∧
      ∀ position, (∀ move ∈ moves, move.target ≠ position) →
        after[position]? = cells[position]? := by
  induction moves generalizing cells with
  | nil =>
      refine ⟨cells, rfl, rfl, ?_, ?_⟩
      · intro move impossible
        cases impossible
      · intro position _untouched
        rfl
  | cons move rest ih =>
      rcases List.pairwise_cons.mp apart with ⟨first, others⟩
      rcases @Move.run_eq ε _ _ _ (within move List.mem_cons_self) with
        ⟨next, ran, size, written, kept⟩
      have within' : ∀ later ∈ rest, later.Within next.length := by
        intro later member
        rw [size]
        exact within later (List.mem_cons_of_mem move member)
      rcases ih within' others with ⟨after, ran', size', written', kept'⟩
      refine ⟨after, ?_, size'.trans size, ?_, ?_⟩
      · rw [List.foldlM_cons, Program.bind_ok ran, ran']
      · intro found member
        rcases List.mem_cons.mp member with rfl | later
        · rw [kept' found.target fun other there => Ne.symm (first other there).2, written]
        · rw [written' found later, kept found.source (first found later).1]
      · intro position untouched
        rw [kept' position fun other there => untouched other (List.mem_cons_of_mem move there),
          kept position (untouched move List.mem_cons_self)]

/-- The cells outside a region are as they were. -/
def Kept (region : Nat → Prop) (cells after : List α) : Prop :=
  after.length = cells.length ∧
    ∀ position, ¬ region position → after[position]? = cells[position]?

section Kept

variable {region : Nat → Prop} {cells next after : List α}

theorem Kept.refl (region : Nat → Prop) (cells : List α) : Kept region cells cells :=
  ⟨rfl, fun _position _outside => rfl⟩

theorem Kept.trans (first : Kept region cells next) (second : Kept region next after) :
    Kept region cells after := by
  constructor
  · exact second.1.trans first.1
  · intro position outside
    exact (second.2 position outside).trans (first.2 position outside)

theorem Kept.set (cells : List α) (cell : α) {position : Nat} (inside : region position) :
    Kept region cells (cells.set position cell) := by
  constructor
  · exact List.length_set
  · intro other outside
    apply List.getElem?_set_ne
    rintro rfl
    exact outside inside

theorem foldlM_kept {φ β : Type} {items : List β} {body : List α → β → Except φ (List α)}
    (each : ∀ item ∈ items, ∀ state, state.length = cells.length →
      ∃ next, body state item = .ok next ∧ Kept region state next) :
    ∃ after, items.foldlM body cells = .ok after ∧ Kept region cells after := by
  induction items generalizing cells with
  | nil => exact ⟨cells, rfl, Kept.refl region cells⟩
  | cons item rest ih =>
      rcases each item List.mem_cons_self cells rfl with ⟨next, ran, kept⟩
      have others : ∀ other ∈ rest, ∀ state, state.length = next.length →
          ∃ after, body state other = .ok after ∧ Kept region state after := by
        intro other member state size
        exact each other (List.mem_cons_of_mem item member) state (size.trans kept.1)
      rcases ih others with ⟨after, ranRest, keptRest⟩
      refine ⟨after, ?_, kept.trans keptRest⟩
      rw [List.foldlM_cons, Program.bind_ok ran]
      exact ranRest

end Kept

/-- The cells of a region hold what they are given, the others are as they were. -/
structure Drawn (region : Nat → Prop) (value : Nat → α) (cells after : List α) : Prop where
  size : after.length = cells.length
  inside : ∀ position, region position → after[position]? = some (value position)
  outside : ∀ position, ¬ region position → after[position]? = cells[position]?

section Drawn

variable {region region' whole : Nat → Prop} {value : Nat → α} {cells next after : List α}

theorem Drawn.nothing (value : Nat → α) (cells : List α) (empty : ∀ position, ¬ region position) :
    Drawn region value cells cells where
  size := rfl
  inside := by
    intro position impossible
    exact absurd impossible (empty position)
  outside := by
    intro position _outside
    rfl

theorem Drawn.append (first : Drawn region value cells next)
    (second : Drawn region' value next after)
    (both : ∀ position, whole position ↔ region position ∨ region' position) :
    Drawn whole value cells after where
  size := second.size.trans first.size
  inside := by
    intro position covered
    by_cases later : region' position
    · exact second.inside position later
    · rcases (both position).mp covered with earlier | impossible
      · rw [second.outside position later, first.inside position earlier]
      · exact absurd impossible later
  outside := by
    intro position uncovered
    have neither := mt (both position).mpr uncovered
    rw [second.outside position fun later => neither (Or.inr later),
      first.outside position fun earlier => neither (Or.inl earlier)]

theorem Drawn.congr {other : Nat → α} (drawn : Drawn region value cells after)
    (same : ∀ position, region' position ↔ region position)
    (agree : ∀ position, region position → other position = value position) :
    Drawn region' other cells after where
  size := drawn.size
  inside := by
    intro position covered
    have here := (same position).mp covered
    rw [drawn.inside position here, agree position here]
  outside := by
    intro position uncovered
    exact drawn.outside position (mt (same position).mpr uncovered)

theorem Drawn.set {position : Nat} (value : Nat → α) (inRange : position < cells.length) :
    Drawn (fun other => other = position) value cells (cells.set position (value position)) where
  size := List.length_set
  inside := by
    intro other here
    rw [here, List.getElem?_set_self inRange]
  outside := by
    intro other elsewhere
    exact List.getElem?_set_ne fun same => elsewhere same.symm

theorem foldlM_drawn {φ β : Type} {items : List β} {body : List α → β → Except φ (List α)}
    {region : β → Nat → Prop}
    (each : ∀ item ∈ items, ∀ state, state.length = cells.length →
      Program.Returns (body state item) (Drawn (region item) value state)) :
    Program.Returns (items.foldlM body cells)
      (Drawn (fun position => ∃ item ∈ items, region item position) value cells) := by
  induction items generalizing cells with
  | nil =>
      apply Program.Returns.ok
      apply Drawn.nothing
      simp
  | cons item rest ih =>
      intro last ran
      rw [List.foldlM_cons] at ran
      rcases Program.bind_eq_ok.mp ran with ⟨next, stepped, ran⟩
      have first := each item List.mem_cons_self cells rfl next stepped
      have others : ∀ other ∈ rest, ∀ state, state.length = next.length →
          Program.Returns (body state other) (Drawn (region other) value state) := by
        intro other member state size
        exact each other (List.mem_cons_of_mem item member) state (size.trans first.size)
      apply first.append (ih others last ran)
      simp

end Drawn

theorem foldlM_flatMap {φ σ β γ : Type} {rows : List β} {cells : β → List γ}
    {perRow : σ → β → Except φ σ} {perCell : σ → γ → Except φ σ}
    (row : ∀ item ∈ rows, ∀ state, perRow state item = (cells item).foldlM perCell state)
    (state : σ) : rows.foldlM perRow state = (rows.flatMap cells).foldlM perCell state := by
  induction rows generalizing state with
  | nil => rfl
  | cons item rest ih =>
      have first := row item List.mem_cons_self state
      have others : ∀ other ∈ rest, ∀ state,
          perRow state other = (cells other).foldlM perCell state := by
        intro other member
        exact row other (List.mem_cons_of_mem item member)
      rw [List.foldlM_cons, first, List.flatMap_cons, List.foldlM_append]
      cases ran : (cells item).foldlM perCell state with
      | error fault => rfl
      | ok next => exact ih others next

def sweep (backwards : Bool) (count : Nat) : List Nat :=
  if backwards then (List.range count).reverse else List.range count

def Before (backwards : Bool) (earlier later : Nat) : Prop :=
  if backwards then later < earlier else earlier < later

@[simp] theorem mem_sweep {backwards : Bool} {count position : Nat} :
    position ∈ sweep backwards count ↔ position < count := by
  cases backwards with
  | true => simp [sweep]
  | false => simp [sweep]

theorem sweep_ordered (backwards : Bool) (count : Nat) :
    (sweep backwards count).Pairwise (Before backwards) := by
  cases backwards with
  | true => exact List.pairwise_reverse.mpr List.pairwise_lt_range
  | false => exact List.pairwise_lt_range

/-- The order in which a copy by a distance runs: away from the side it moves to. -/
theorem Before.apart {source target earlier later : Nat}
    (before : Before (decide (target > source)) earlier later) :
    target + earlier ≠ source + later := by
  by_cases up : target > source
  · rw [decide_eq_true up] at before
    change later < earlier at before
    omega
  · rw [decide_eq_false up] at before
    change earlier < later at before
    omega

theorem Before.ne {backwards : Bool} {earlier later : Nat}
    (before : Before backwards earlier later) : earlier ≠ later := by
  cases backwards with
  | true => exact Nat.ne_of_gt before
  | false => exact Nat.ne_of_lt before

end InPlace
