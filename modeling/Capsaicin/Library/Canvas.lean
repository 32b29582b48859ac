/-
Drawings over a picture, one after the other. A drawing has a region, and gives every position
of it either a colour of its own or the colour that another position had before.
-/

import Mathlib.Data.List.Induction
import Mathlib.Data.Set.Piecewise

namespace Canvas

variable {Q P : Type}

inductive Drawing (Q P : Type) where
  | plain (region : Set Q) (drawn : Q → P)
  | moved (region : Set Q) (source : Q → Q)

def Drawing.region : Drawing Q P → Set Q
  | plain region _ => region
  | moved region _ => region

open Classical in
noncomputable def Drawing.on : Drawing Q P → (Q → P) → Q → P
  | plain region drawn, picture => region.piecewise drawn picture
  | moved region source, picture => region.piecewise (picture ∘ source) picture

noncomputable def run (picture : Q → P) (drawings : List (Drawing Q P)) : Q → P :=
  drawings.foldl (fun picture drawing => drawing.on picture) picture

variable {drawing : Drawing Q P} {picture : Q → P} {region frame : Set Q} {position : Q}

open Classical in
@[simp] theorem on_plain {drawn : Q → P} (inside : position ∈ region) :
    (Drawing.plain region drawn).on picture position = drawn position :=
  Set.piecewise_eq_of_mem _ _ _ inside

open Classical in
@[simp] theorem on_moved {source : Q → Q} (inside : position ∈ region) :
    (Drawing.moved region source).on picture position = picture (source position) :=
  Set.piecewise_eq_of_mem _ _ _ inside

open Classical in
theorem on_outside (outside : position ∉ drawing.region) :
    drawing.on picture position = picture position := by
  cases drawing with
  | plain region drawn => exact Set.piecewise_eq_of_notMem _ _ _ outside
  | moved region source => exact Set.piecewise_eq_of_notMem _ _ _ outside

@[simp] theorem run_nil : run picture [] = picture := rfl

@[simp] theorem run_cons (rest : List (Drawing Q P)) :
    run picture (drawing :: rest) = run (drawing.on picture) rest := rfl

theorem run_append (earlier later : List (Drawing Q P)) :
    run picture (earlier ++ later) = run (run picture earlier) later := by
  simp [run]

theorem plain_congr {drawn drawn' : Q → P} (same : Set.EqOn drawn drawn' region) :
    (Drawing.plain region drawn).on picture = (Drawing.plain region drawn').on picture := by
  funext position
  by_cases inside : position ∈ region
  · simp [inside, same inside]
  · rw [on_outside inside, on_outside inside]

/-! ### Where a colour comes from -/

open Classical in
/-- The way back from a position through the drawings, the last one first: to the colour of a
plain drawing, or to a position of the picture that was there before all of them. -/
noncomputable def origin : List (Drawing Q P) → Q → P ⊕ Q
  | [], position => .inr position
  | .plain region drawn :: earlier, position =>
      if position ∈ region then .inl (drawn position) else origin earlier position
  | .moved region source :: earlier, position =>
      if position ∈ region then origin earlier (source position) else origin earlier position

theorem run_origin (drawings : List (Drawing Q P)) (position : Q) :
    run picture drawings position = Sum.elim id picture (origin drawings.reverse position) := by
  induction drawings using List.reverseRecOn generalizing position with
  | nil => rfl
  | append_singleton earlier drawing ih =>
      rw [run_append, run_cons, run_nil, List.reverse_concat]
      cases drawing with
      | plain region drawn =>
          by_cases inside : position ∈ region
          · rw [on_plain inside, origin, if_pos inside]
            rfl
          · rw [on_outside inside, origin, if_neg inside, ih]
      | moved region source =>
          by_cases inside : position ∈ region
          · rw [on_moved inside, origin, if_pos inside, ih]
          · rw [on_outside inside, origin, if_neg inside, ih]

theorem origin_cases (drawings : List (Drawing Q P)) (position : Q) :
    (∃ region drawn place, Drawing.plain region drawn ∈ drawings ∧ place ∈ region ∧
        origin drawings position = .inl (drawn place)) ∨
      ∃ place, origin drawings position = .inr place := by
  induction drawings generalizing position with
  | nil => exact Or.inr ⟨position, rfl⟩
  | cons drawing earlier ih =>
      have later (place : Q) (same : origin (drawing :: earlier) position = origin earlier place) :
          (∃ region drawn place, Drawing.plain region drawn ∈ drawing :: earlier ∧
              place ∈ region ∧ origin (drawing :: earlier) position = .inl (drawn place)) ∨
            ∃ place, origin (drawing :: earlier) position = .inr place := by
        rw [same]
        rcases ih place with ⟨region, drawn, found, member, inside, reached⟩ | reached
        · exact Or.inl ⟨region, drawn, found, List.mem_cons_of_mem drawing member, inside, reached⟩
        · exact Or.inr reached
      cases drawing with
      | plain region drawn =>
          by_cases inside : position ∈ region
          · have reached : origin (.plain region drawn :: earlier) position =
                .inl (drawn position) := if_pos inside
            exact Or.inl ⟨region, drawn, position, List.mem_cons_self, inside, reached⟩
          · exact later position (if_neg inside)
      | moved region source =>
          by_cases inside : position ∈ region
          · exact later (source position) (if_pos inside)
          · exact later position (if_neg inside)

/-! ### Cells that show a picture -/

/-- On a frame the cells hold the colours of the picture. -/
def Shows (frame : Set Q) (cells : Q → Option P) (picture : Q → P) : Prop :=
  ∀ position ∈ frame, cells position = some (picture position)

/-- What a drawing gives to a cell of its region. -/
def Drawing.Gives (frame : Set Q) (cells : Q → Option P) (position : Q) (cell : Option P) :
    Drawing Q P → Prop
  | plain _ drawn => cell = some (drawn position)
  | moved _ source => source position ∈ frame ∧ cell = cells (source position)

/-- The cells of a frame behind a drawing, which reads nothing from outside the frame. -/
structure Repaints (frame : Set Q) (drawing : Drawing Q P) (cells after : Q → Option P) :
    Prop where
  outside : ∀ position ∈ frame, position ∉ drawing.region → after position = cells position
  inside : ∀ position ∈ frame, position ∈ drawing.region →
    drawing.Gives frame cells position (after position)

variable {cells after : Q → Option P}

theorem Shows.repaints (shows : Shows frame cells picture)
    (repaints : Repaints frame drawing cells after) : Shows frame after (drawing.on picture) := by
  intro position framed
  by_cases covered : position ∈ drawing.region
  · have given := repaints.inside position framed covered
    cases drawing with
    | plain region drawn => rw [@on_plain _ _ _ region position drawn covered, given]
    | moved region source =>
        rcases given with ⟨inside, moved⟩
        rw [@on_moved _ _ _ region position source covered, moved, shows _ inside]
  · rw [on_outside covered, repaints.outside position framed covered]
    exact shows position framed

theorem Repaints.beside (same : ∀ position ∈ frame, after position = cells position)
    (missed : ∀ position ∈ frame, position ∉ drawing.region) :
    Repaints frame drawing cells after where
  outside := by
    intro position framed _uncovered
    exact same position framed
  inside := by
    intro position framed covered
    exact absurd covered (missed position framed)

end Canvas
