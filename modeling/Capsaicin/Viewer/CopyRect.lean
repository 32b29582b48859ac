/-
A rectangle copied inside the framebuffer. The loops are a list of moves, in an order in which
no move reads what an earlier one has written.
-/

import Capsaicin.Library.InPlace
import Capsaicin.Viewer.Framebuffer

namespace Capsaicin.Viewer

open Program (checkI32 checkU32)
open Proto (Rect)
open InPlace (Move Apart sweep Before)

def Clamped.Contains (c : Clamped) (x y : Nat) : Prop :=
  c.left ≤ x ∧ x < c.right ∧ c.top ≤ y ∧ y < c.bottom

instance (c : Clamped) (x y : Nat) : Decidable (c.Contains x y) :=
  inferInstanceAs (Decidable (_ ∧ _))

def IsI32 (value : Int) : Prop := -2147483648 ≤ value ∧ value < 2147483648

instance (value : Int) : Decidable (IsI32 value) := inferInstanceAs (Decidable (_ ∧ _))

namespace ViewerApp

def pixel (viewer : ViewerApp) (x y : Nat) : Option Nat := viewer.fb[y * viewer.fbW + x]?

def OnScreen (viewer : ViewerApp) (x y : Int) : Prop :=
  0 ≤ x ∧ x < viewer.fbW ∧ 0 ≤ y ∧ y < viewer.fbH

def sourceOf (start edge : Int) (position : Nat) : Int := start + (position - edge)

theorem sourceOf_last (start edge : Int) {first stop : Nat} (some : first < stop) :
    sourceOf start edge (stop - 1 : Nat) =
      sourceOf start edge first + (stop - first : Nat) - 1 := by
  unfold sourceOf
  omega

/-- All pixels of the target come from the framebuffer. -/
def Available (viewer : ViewerApp) (srcX srcY : Int) (destRect : Rect) : Prop :=
  ∀ x y, (clampRect destRect viewer.fbW viewer.fbH).Contains x y →
    viewer.OnScreen (sourceOf srcX destRect.left x) (sourceOf srcY destRect.top y)

/-- A rectangle whose sides are in order, and whose sums are those of integers. -/
structure WellFormed (viewer : ViewerApp) (srcX srcY : Int) (destRect : Rect) : Prop where
  wide : destRect.left ≤ destRect.right
  high : destRect.top ≤ destRect.bottom
  sums : ∀ x y, (clampRect destRect viewer.fbW viewer.fbH).Contains x y →
    IsI32 (x - destRect.left) ∧ IsI32 (sourceOf srcX destRect.left x) ∧
      IsI32 (y - destRect.top) ∧ IsI32 (sourceOf srcY destRect.top y)

variable {viewer : ViewerApp} {srcX srcY : Int} {destRect : Rect}

/-- A plan that fits: it starts where the corner of the target comes from. -/
structure Planned (viewer : ViewerApp) (srcX srcY : Int) (destRect : Rect) (c : Clamped)
    (plan : CopyPlan) : Prop where
  width : c.left + plan.dstW = c.right
  height : c.top + plan.dstH = c.bottom
  right : c.right ≤ viewer.fbW
  bottom : c.bottom ≤ viewer.fbH
  column : (plan.sx0 : Int) = sourceOf srcX destRect.left c.left
  row : (plan.sy0 : Int) = sourceOf srcY destRect.top c.top
  wide : plan.sx0 + plan.dstW ≤ viewer.fbW
  high : plan.sy0 + plan.dstH ≤ viewer.fbH

theorem Planned.of_inside {c : Clamped} (columns : c.left ≤ c.right) (rows : c.top ≤ c.bottom)
    (right : c.right ≤ viewer.fbW) (bottom : c.bottom ≤ viewer.fbH)
    (left : 0 ≤ sourceOf srcX destRect.left c.left ∧
      (sourceOf srcX destRect.left c.left).toNat + (c.right - c.left) ≤ viewer.fbW)
    (top : 0 ≤ sourceOf srcY destRect.top c.top ∧
      (sourceOf srcY destRect.top c.top).toNat + (c.bottom - c.top) ≤ viewer.fbH) :
    Planned viewer srcX srcY destRect c
      { sx0 := (sourceOf srcX destRect.left c.left).toNat
        sy0 := (sourceOf srcY destRect.top c.top).toNat
        dstW := c.right - c.left
        dstH := c.bottom - c.top } where
  width := Nat.add_sub_of_le columns
  height := Nat.add_sub_of_le rows
  right := right
  bottom := bottom
  column := Int.toNat_of_nonneg left.1
  row := Int.toNat_of_nonneg top.1
  wide := left.2
  high := top.2

theorem Sound.clamp_ordered (sound : viewer.Sound) (wide : destRect.left ≤ destRect.right)
    (high : destRect.top ≤ destRect.bottom) :
    (clampRect destRect viewer.fbW viewer.fbH).left ≤
        (clampRect destRect viewer.fbW viewer.fbH).right ∧
      (clampRect destRect viewer.fbW viewer.fbH).right ≤ viewer.fbW ∧
      (clampRect destRect viewer.fbW viewer.fbH).top ≤
        (clampRect destRect viewer.fbW viewer.fbH).bottom ∧
      (clampRect destRect viewer.fbW viewer.fbH).bottom ≤ viewer.fbH := by
  rw [sound.clamp]
  dsimp only
  omega

theorem copyPlan_eq {c : Clamped} (sound : viewer.Sound)
    (clamped : clampRect destRect viewer.fbW viewer.fbH = c) (corner : c.Contains c.left c.top)
    (right : c.right ≤ viewer.fbW) (bottom : c.bottom ≤ viewer.fbH)
    (offX : IsI32 (c.left - destRect.left)) (sumX : IsI32 (sourceOf srcX destRect.left c.left))
    (offY : IsI32 (c.top - destRect.top)) (sumY : IsI32 (sourceOf srcY destRect.top c.top)) :
    viewer.copyPlan srcX srcY destRect =
      if sourceOf srcX destRect.left c.left < 0 ∨ sourceOf srcY destRect.top c.top < 0 then
        .ok none
      else if asU32 (sourceOf srcX destRect.left c.left) + (c.right - c.left) > viewer.fbW ∨
          asU32 (sourceOf srcY destRect.top c.top) + (c.bottom - c.top) > viewer.fbH then
        .ok none
      else
        .ok (some
          { sx0 := asU32 (sourceOf srcX destRect.left c.left)
            sy0 := asU32 (sourceOf srcY destRect.top c.top)
            dstW := c.right - c.left
            dstH := c.bottom - c.top }) := by
  rcases corner with ⟨_left, columns, _top, rows⟩
  have limits := And.intro sound.width sound.height
  have castX : asI32 c.left = c.left := asI32_small (by omega)
  have castY : asI32 c.top = c.top := asI32_small (by omega)
  unfold sourceOf at sumX sumY ⊢
  unfold copyPlan
  rw [clamped]
  dsimp only
  rw [if_neg (by omega), if_neg (by omega), castX, castY,
    Program.bind_ok (Program.checkI32_eq_ok.mpr ⟨offX.1, offX.2, rfl⟩),
    Program.bind_ok (Program.checkI32_eq_ok.mpr ⟨offY.1, offY.2, rfl⟩),
    Program.bind_ok (Program.checkI32_eq_ok.mpr ⟨sumX.1, sumX.2, rfl⟩),
    Program.bind_ok (Program.checkI32_eq_ok.mpr ⟨sumY.1, sumY.2, rfl⟩)]

theorem copyPlan_corners {c : Clamped} (sound : viewer.Sound)
    (clamped : clampRect destRect viewer.fbW viewer.fbH = c) (corner : c.Contains c.left c.top)
    (right : c.right ≤ viewer.fbW) (bottom : c.bottom ≤ viewer.fbH)
    (offX : IsI32 (c.left - destRect.left)) (sumX : IsI32 (sourceOf srcX destRect.left c.left))
    (offY : IsI32 (c.top - destRect.top)) (sumY : IsI32 (sourceOf srcY destRect.top c.top)) :
    (viewer.copyPlan srcX srcY destRect = .ok none ∧ ¬ viewer.Available srcX srcY destRect) ∨
      ∃ plan, viewer.copyPlan srcX srcY destRect = .ok (some plan) ∧
        Planned viewer srcX srcY destRect c plan := by
  have planned := copyPlan_eq sound clamped corner right bottom offX sumX offY sumY
  have limits := And.intro sound.width sound.height
  rcases id corner with ⟨_left, wide, _top, high⟩
  have opposite : c.Contains (c.right - 1) (c.bottom - 1) :=
    ⟨by omega, by omega, by omega, by omega⟩
  unfold Available
  rw [clamped]
  by_cases negative :
      sourceOf srcX destRect.left c.left < 0 ∨ sourceOf srcY destRect.top c.top < 0
  · rw [if_pos negative] at planned
    refine Or.inl ⟨planned, ?_⟩
    intro available
    rcases available _ _ corner with ⟨column, _within, row, _above⟩
    omega
  · rw [if_neg negative, asU32_small (by omega) (by unfold IsI32 at sumX; omega),
      asU32_small (by omega) (by unfold IsI32 at sumY; omega)] at planned
    by_cases past :
        (sourceOf srcX destRect.left c.left).toNat + (c.right - c.left) > viewer.fbW ∨
          (sourceOf srcY destRect.top c.top).toNat + (c.bottom - c.top) > viewer.fbH
    · rw [if_pos past] at planned
      refine Or.inl ⟨planned, ?_⟩
      intro available
      rcases available _ _ opposite with ⟨_column, within, _row, above⟩
      rw [sourceOf_last srcX destRect.left wide] at within
      rw [sourceOf_last srcY destRect.top high] at above
      omega
    · rw [if_neg past] at planned
      refine Or.inr ⟨_, planned, ?_⟩
      exact Planned.of_inside (by omega) (by omega) right bottom (by omega) (by omega)

theorem copyPlan_empty {c : Clamped} (clamped : clampRect destRect viewer.fbW viewer.fbH = c)
    (columns : c.left ≤ c.right) (rows : c.top ≤ c.bottom) (empty : ¬ c.Contains c.left c.top) :
    viewer.copyPlan srcX srcY destRect = .ok none := by
  have none : c.right - c.left = 0 ∨ c.bottom - c.top = 0 := by
    unfold Clamped.Contains at empty
    omega
  unfold copyPlan
  rw [clamped]
  dsimp only
  rw [if_neg (by omega), if_pos none]

/-- Either there is a plan and its source is there, or nothing is to be done: the target is
empty or the source is not there as a whole. -/
theorem copyPlan_cases (sound : viewer.Sound) (formed : WellFormed viewer srcX srcY destRect) :
    (viewer.copyPlan srcX srcY destRect = .ok none ∧
        ((∀ x y, ¬ (clampRect destRect viewer.fbW viewer.fbH).Contains x y) ∨
          ¬ viewer.Available srcX srcY destRect)) ∨
      ∃ plan, viewer.copyPlan srcX srcY destRect = .ok (some plan) ∧
        Planned viewer srcX srcY destRect (clampRect destRect viewer.fbW viewer.fbH) plan := by
  rcases sound.clamp_ordered formed.wide formed.high with ⟨columns, right, rows, bottom⟩
  generalize clamped : clampRect destRect viewer.fbW viewer.fbH = c at columns right rows bottom ⊢
  by_cases corner : c.Contains c.left c.top
  · have sums := formed.sums
    rw [clamped] at sums
    rcases sums _ _ corner with ⟨offX, sumX, offY, sumY⟩
    rcases copyPlan_corners sound clamped corner right bottom offX sumX offY sumY with
      ⟨nothing, missing⟩ | found
    · exact Or.inl ⟨nothing, Or.inr missing⟩
    · exact Or.inr found
  · refine Or.inl ⟨copyPlan_empty clamped columns rows corner, Or.inl ?_⟩
    intro x y inside
    apply corner
    rcases inside with ⟨left, below, top, above⟩
    exact ⟨Nat.le_refl _, by omega, Nat.le_refl _, by omega⟩

/-! ### The loops -/

def rowMoves (fbW : Nat) (c : Clamped) (plan : CopyPlan) (ry : Nat) : List Move :=
  (sweep (c.left > plan.sx0) plan.dstW).map fun rx =>
    { source := (plan.sy0 + ry) * fbW + (plan.sx0 + rx)
      target := (c.top + ry) * fbW + (c.left + rx) }

def moves (fbW : Nat) (c : Clamped) (plan : CopyPlan) : List Move :=
  (sweep (c.top > plan.sy0) plan.dstH).flatMap (rowMoves fbW c plan)

theorem mem_moves {fbW : Nat} {c : Clamped} {plan : CopyPlan} {move : Move} :
    move ∈ moves fbW c plan ↔ ∃ rx ry, rx < plan.dstW ∧ ry < plan.dstH ∧
      move = { source := (plan.sy0 + ry) * fbW + (plan.sx0 + rx)
               target := (c.top + ry) * fbW + (c.left + rx) } := by
  unfold moves rowMoves
  simp only [List.mem_flatMap, List.mem_map, InPlace.mem_sweep]
  constructor
  · rintro ⟨ry, row, rx, column, rfl⟩
    exact ⟨rx, ry, column, row, rfl⟩
  · rintro ⟨rx, ry, column, row, rfl⟩
    exact ⟨ry, row, rx, column, rfl⟩

theorem position_inj {fbW x y x' y' : Nat} (column : x < fbW) (column' : x' < fbW)
    (same : y * fbW + x = y' * fbW + x') : x = x' ∧ y = y' := by
  have rows := congrArg (· / fbW) same
  have columns := congrArg (· % fbW) same
  have positive : 0 < fbW := by omega
  simp only [Nat.mul_comm _ fbW, Nat.mul_add_mod_self_left,
    Nat.mod_eq_of_lt column, Nat.mod_eq_of_lt column', Nat.mul_add_div positive,
    Nat.div_eq_of_lt column, Nat.div_eq_of_lt column', Nat.add_zero] at rows columns
  exact ⟨columns, rows⟩

variable {c : Clamped} {plan : CopyPlan}

/-- The order of the rows keeps different rows apart, the order of the columns the pixels of
one row. -/
theorem Planned.apart (planned : Planned viewer srcX srcY destRect c plan) :
    (moves viewer.fbW c plan).Pairwise Apart := by
  have width := planned.width
  have right := planned.right
  have wide := planned.wide
  have kept {rx ry rx' ry' : Nat} (column : rx < plan.dstW) (column' : rx' < plan.dstW)
      (source : c.left + rx ≠ plan.sx0 + rx' ∨ c.top + ry ≠ plan.sy0 + ry')
      (target : c.left + rx ≠ c.left + rx' ∨ c.top + ry ≠ c.top + ry') :
      Apart
        { source := (plan.sy0 + ry) * viewer.fbW + (plan.sx0 + rx)
          target := (c.top + ry) * viewer.fbW + (c.left + rx) }
        { source := (plan.sy0 + ry') * viewer.fbW + (plan.sx0 + rx')
          target := (c.top + ry') * viewer.fbW + (c.left + rx') } := by
    constructor
    · intro same
      rcases position_inj (by omega) (by omega) same with ⟨sameX, sameY⟩
      omega
    · intro same
      rcases position_inj (by omega) (by omega) same with ⟨sameX, sameY⟩
      omega
  unfold moves rowMoves
  rw [List.pairwise_flatMap]
  constructor
  · intro ry _row
    rw [List.pairwise_map]
    apply (InPlace.sweep_ordered _ _).imp_of_mem
    intro rx rx' column column' before
    apply kept (InPlace.mem_sweep.mp column) (InPlace.mem_sweep.mp column')
    · exact Or.inl before.apart
    · have other := before.ne
      exact Or.inl (by omega)
  · apply (InPlace.sweep_ordered _ _).imp
    intro ry ry' before earlier member later member'
    rcases List.mem_map.mp member with ⟨rx, column, rfl⟩
    rcases List.mem_map.mp member' with ⟨rx', column', rfl⟩
    apply kept (InPlace.mem_sweep.mp column) (InPlace.mem_sweep.mp column')
    · exact Or.inr before.apart
    · have other := before.ne
      exact Or.inr (by omega)

theorem Planned.within (planned : Planned viewer srcX srcY destRect c plan)
    (sound : viewer.Sound) {move : Move} (member : move ∈ moves viewer.fbW c plan) :
    move.Within viewer.fb.length := by
  rcases mem_moves.mp member with ⟨rx, ry, column, row, rfl⟩
  have width := planned.width
  have height := planned.height
  have right := planned.right
  have bottom := planned.bottom
  have wide := planned.wide
  have high := planned.high
  have position {x y : Nat} (column : x < viewer.fbW) (row : y < viewer.fbH) :
      y * viewer.fbW + x < viewer.fb.length := by
    have after := (sound.position (by omega : x + 1 ≤ viewer.fbW) row).1
    omega
  exact ⟨position (by omega) (by omega), position (by omega) (by omega)⟩

theorem Planned.run (planned : Planned viewer srcX srcY destRect c plan) (sound : viewer.Sound)
    (fb : List Nat) :
    (if c.top > plan.sy0 then (List.range plan.dstH).reverse else List.range plan.dstH).foldlM
        (copyRow viewer.fbW c plan) fb =
      (moves viewer.fbW c plan).foldlM (Move.run (ε := Empty)) fb := by
  have height := planned.height
  have bottom := planned.bottom
  have high := planned.high
  have number {y : Nat} (row : y < viewer.fbH) :
      checkU32 (ε := Empty) (y * viewer.fbW) = .ok (y * viewer.fbW) :=
    Program.checkU32_eq_ok.mpr ⟨(sound.position (Nat.zero_le _) row).2, rfl⟩
  have rows : (if c.top > plan.sy0 then (List.range plan.dstH).reverse
      else List.range plan.dstH) = sweep (c.top > plan.sy0) plan.dstH := by
    simp [sweep]
  rw [rows]
  apply InPlace.foldlM_flatMap
  intro ry member fb
  have row := InPlace.mem_sweep.mp member
  rw [copyRow, Program.bind_ok (number (by omega)), Program.bind_ok (number (by omega)),
    rowMoves, List.foldlM_map]
  have columns : (if c.left > plan.sx0 then (List.range plan.dstW).reverse
      else List.range plan.dstW) = sweep (c.left > plan.sx0) plan.dstW := by
    simp [sweep]
  dsimp only
  rw [columns]
  rfl

theorem Planned.source (planned : Planned viewer srcX srcY destRect c plan) {x y : Nat}
    (inside : c.Contains x y) :
    viewer.OnScreen (sourceOf srcX destRect.left x) (sourceOf srcY destRect.top y) ∧
      ({ source := (sourceOf srcY destRect.top y).toNat * viewer.fbW +
            (sourceOf srcX destRect.left x).toNat
         target := y * viewer.fbW + x } : Move) ∈ moves viewer.fbW c plan := by
  rcases inside with ⟨left, right, top, bottom⟩
  have width := planned.width
  have height := planned.height
  have wide := planned.wide
  have high := planned.high
  have column := planned.column
  have row := planned.row
  have columnHere : sourceOf srcX destRect.left x = (plan.sx0 + (x - c.left) : Nat) := by
    unfold sourceOf at column ⊢
    omega
  have rowHere : sourceOf srcY destRect.top y = (plan.sy0 + (y - c.top) : Nat) := by
    unfold sourceOf at row ⊢
    omega
  rw [columnHere, rowHere, Int.toNat_natCast, Int.toNat_natCast]
  constructor
  · exact ⟨by omega, by omega, by omega, by omega⟩
  · refine mem_moves.mpr ⟨x - c.left, y - c.top, by omega, by omega, ?_⟩
    rw [Nat.add_sub_cancel' left, Nat.add_sub_cancel' top]

/-- What a plan copies: as if the source had been read before the first pixel was written. -/
theorem Planned.copied (sound : viewer.Sound)
    (clamped : clampRect destRect viewer.fbW viewer.fbH = c)
    (found : viewer.copyPlan srcX srcY destRect = .ok (some plan))
    (planned : Planned viewer srcX srcY destRect c plan) :
    ∃ fb, viewer.copyRect srcX srcY destRect = .ok { viewer with fb := fb } ∧
      fb.length = viewer.fb.length ∧
      (∀ x y, c.Contains x y →
        ({ viewer with fb := fb } : ViewerApp).pixel x y =
          viewer.pixel (sourceOf srcX destRect.left x).toNat
            (sourceOf srcY destRect.top y).toNat) ∧
      ∀ x y, x < viewer.fbW → y < viewer.fbH → ¬ c.Contains x y →
        ({ viewer with fb := fb } : ViewerApp).pixel x y = viewer.pixel x y := by
  rcases @InPlace.run_all Empty _ _ viewer.fb (fun move => planned.within sound) planned.apart
    with ⟨fb, ran, size, copied, kept⟩
  refine ⟨fb, ?_, size, ?_, ?_⟩
  · rw [copyRect, Program.bind_ok found, clamped]
    dsimp only
    rw [Program.bind_ok ((planned.run sound viewer.fb).trans ran)]
  · intro x y inside
    exact copied _ (planned.source inside).2
  · intro x y column _row outside
    apply kept
    intro move member same
    rcases mem_moves.mp member with ⟨rx, ry, columnThere, rowThere, rfl⟩
    have width := planned.width
    have height := planned.height
    have right := planned.right
    rcases position_inj (by omega) column same with ⟨rfl, rfl⟩
    exact outside ⟨by omega, by omega, by omega, by omega⟩

theorem copyRect_nothing (nothing : viewer.copyPlan srcX srcY destRect = .ok none) :
    viewer.copyRect srcX srcY destRect = .ok viewer := by
  rw [copyRect, Program.bind_ok nothing]

/-- A rectangle of an accepted size is copied as if its source had been read before the first
pixel was written, and nothing else changes. -/
theorem copyRect_memmove (sound : viewer.Sound) (formed : WellFormed viewer srcX srcY destRect) :
    ∃ fb, viewer.copyRect srcX srcY destRect = .ok { viewer with fb := fb } ∧
      fb.length = viewer.fb.length ∧
      (viewer.Available srcX srcY destRect →
        ∀ x y, (clampRect destRect viewer.fbW viewer.fbH).Contains x y →
          ({ viewer with fb := fb } : ViewerApp).pixel x y =
            viewer.pixel (sourceOf srcX destRect.left x).toNat
              (sourceOf srcY destRect.top y).toNat) ∧
      (¬ viewer.Available srcX srcY destRect → fb = viewer.fb) ∧
      ∀ x y, x < viewer.fbW → y < viewer.fbH →
        ¬ (clampRect destRect viewer.fbW viewer.fbH).Contains x y →
        ({ viewer with fb := fb } : ViewerApp).pixel x y = viewer.pixel x y := by
  rcases copyPlan_cases sound formed with ⟨nothing, why⟩ | ⟨plan, found, planned⟩
  · refine ⟨viewer.fb, copyRect_nothing nothing, rfl, ?_, ?_, ?_⟩
    · intro available x y inside
      rcases why with empty | missing
      · exact absurd inside (empty x y)
      · exact absurd available missing
    · intro _missing
      rfl
    · intro x y _column _row _outside
      rfl
  · rcases Planned.copied sound rfl found planned with ⟨fb, ran, size, copied, kept⟩
    refine ⟨fb, ran, size, ?_, ?_, kept⟩
    · intro _available x y inside
      exact copied x y inside
    · intro missing
      exact absurd (fun x y inside => (planned.source inside).1) missing

/-- A copy by one pixel to the right and down: its source and its target share four pixels. -/
theorem copyRect_memmove_overlapping :
    ∃ fb, ({ fb := [1, 2, 3, 4, 5, 6, 7, 8, 9], fbW := 3, fbH := 3, shouldExit := false } :
        ViewerApp).copyRect 0 0 { top := 1, left := 1, bottom := 4, right := 4 } =
          .ok { fb := fb, fbW := 3, fbH := 3, shouldExit := false } ∧
      fb[1 * 3 + 1]? = some 1 ∧ fb[2 * 3 + 2]? = some 5 ∧ fb[0 * 3 + 2]? = some 3 := by
  have sound : ({ fb := [1, 2, 3, 4, 5, 6, 7, 8, 9], fbW := 3, fbH := 3, shouldExit := false } :
      ViewerApp).Sound := ⟨rfl, by decide, by decide⟩
  have clamped : clampRect { top := 1, left := 1, bottom := 4, right := 4 } 3 3 =
      { left := 1, top := 1, right := 3, bottom := 3 } := by decide
  have formed : WellFormed
      { fb := [1, 2, 3, 4, 5, 6, 7, 8, 9], fbW := 3, fbH := 3, shouldExit := false } 0 0
      { top := 1, left := 1, bottom := 4, right := 4 } := by
    constructor
    · decide
    · decide
    · intro x y inside
      rw [clamped] at inside
      rcases inside with ⟨_left, right, _top, bottom⟩
      dsimp only at right bottom
      unfold sourceOf IsI32
      dsimp only
      omega
  rcases copyRect_memmove sound formed with ⟨fb, ran, _size, copied, _missing, kept⟩
  have available : Available
      { fb := [1, 2, 3, 4, 5, 6, 7, 8, 9], fbW := 3, fbH := 3, shouldExit := false } 0 0
      { top := 1, left := 1, bottom := 4, right := 4 } := by
    intro x y inside
    rw [clamped] at inside
    rcases inside with ⟨left, right, top, bottom⟩
    dsimp only at left right top bottom
    unfold sourceOf OnScreen
    dsimp only
    omega
  refine ⟨fb, ran, ?_, ?_, ?_⟩
  · exact copied available 1 1 (by decide)
  · exact copied available 2 2 (by decide)
  · exact kept 2 0 (by decide) (by decide) (by decide)

end ViewerApp

end Capsaicin.Viewer
