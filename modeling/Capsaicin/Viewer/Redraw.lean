/-
The framebuffer on the window, which may have another size.
-/

import Capsaicin.Viewer.Canvas

namespace Capsaicin.Viewer

open InPlace (Drawn Kept)
open Program (Returns assign checkU32 index)

/-! ### Nearest neighbours -/

def scaled (position size shown : Nat) : Nat := position * size / shown

theorem scaled_lt {position size shown : Nat} (inside : position < shown) (some : 0 < size) :
    scaled position size shown < size := by
  apply Nat.div_lt_of_lt_mul
  exact Nat.mul_lt_mul_of_pos_right inside some

theorem scaled_same {position size : Nat} (some : 0 < size) : scaled position size size = position :=
  Nat.mul_div_cancel position some

theorem scaled_onto {position size shown : Nat} (inside : position < size) (room : size ≤ shown) :
    ∃ place, place < shown ∧ scaled place size shown = position := by
  have some : 0 < size := by omega
  let place := (position * shown + (size - 1)) / size
  have above : position * shown ≤ place * size := by
    have next := Nat.lt_mul_div_succ (position * shown + (size - 1)) some
    have whole : size * ((position * shown + (size - 1)) / size + 1) = place * size + size := by
      rw [Nat.mul_succ, Nat.mul_comm]
    omega
  have below : place * size ≤ position * shown + (size - 1) := Nat.div_mul_le_self _ _
  have short : position * shown + shown ≤ size * shown := by
    rw [← Nat.succ_mul]
    exact Nat.mul_le_mul_right shown inside
  refine ⟨place, ?_, ?_⟩
  · have less : place * size < size * shown := by omega
    rw [Nat.mul_comm size] at less
    exact Nat.lt_of_mul_lt_mul_right less
  · apply Nat.div_eq_of_lt_le
    · exact above
    · rw [Nat.succ_mul]
      omega

namespace ViewerApp

/-! ### Drawing the window -/

def redrawPixel (viewer : ViewerApp) (sw srcRow dstRow : Nat) (buf : List Nat) (x : Nat) :
    Except PaintFault (List Nat) := do
  let srcX := x * viewer.fbW / sw % 2 ^ 32
  let pixel ← index viewer.fb (srcRow + srcX)
  assign buf (dstRow + x) pixel

def redrawRow (viewer : ViewerApp) (sw sh : Nat) (buf : List Nat) (y : Nat) :
    Except PaintFault (List Nat) := do
  let srcY := y * viewer.fbH / sh % 2 ^ 32
  let srcRow ← checkU32 (srcY * viewer.fbW)
  let dstRow ← checkU32 (y * sw)
  (List.range sw).foldlM (viewer.redrawPixel sw srcRow dstRow) buf

/-- The buffer of the window, whose inner size is given. A copy of the whole slice wants the
same length. -/
def redraw (viewer : ViewerApp) (width height : Nat) (buf : List Nat) :
    Except PaintFault (List Nat) :=
  let sw := max width 1
  let sh := max height 1
  if sw = viewer.fbW ∧ sh = viewer.fbH ∧ viewer.fb ≠ [] then
    if buf.length = viewer.fb.length then .ok viewer.fb else .error (.panic .index)
  else if viewer.fb ≠ [] then (List.range sh).foldlM (viewer.redrawRow sw sh) buf
  else .ok (List.replicate buf.length 0)

variable {viewer : ViewerApp} {sw sh : Nat} {buf : List Nat}

/-- The pixel that belongs to a cell of the window's buffer. -/
def shownAt (viewer : ViewerApp) (sw sh cell : Nat) : Nat :=
  (viewer.pixel (scaled (cell % sw) viewer.fbW sw) (scaled (cell / sw) viewer.fbH sh)).getD 0

theorem shownAt_cell {x : Nat} (column : x < sw) (y : Nat) :
    viewer.shownAt sw sh (y * sw + x) =
      (viewer.pixel (scaled x viewer.fbW sw) (scaled y viewer.fbH sh)).getD 0 := by
  have some : 0 < sw := by omega
  rw [shownAt, Nat.mul_comm, Nat.mul_add_mod_self_left, Nat.mod_eq_of_lt column,
    Nat.mul_add_div some, Nat.div_eq_of_lt column, Nat.add_zero]

theorem Sound.pixel_some (sound : viewer.Sound) {x y : Nat} (column : x < viewer.fbW)
    (row : y < viewer.fbH) : ∃ colour, viewer.pixel x y = some colour := by
  have inside : y * viewer.fbW + x < viewer.fb.length := by
    have rows : y * viewer.fbW + viewer.fbW ≤ viewer.fbH * viewer.fbW := by
      rw [← Nat.succ_mul]
      exact Nat.mul_le_mul_right _ row
    rw [sound.area, Nat.mul_comm viewer.fbW]
    omega
  exact ⟨_, List.getElem?_eq_getElem inside⟩

theorem redrawPixel_draws (sound : viewer.Sound) {x y : Nat} (wide : 0 < viewer.fbW)
    (high : 0 < viewer.fbH) (column : x < sw) (row : y < sh) (inside : y * sw + x < buf.length) :
    ∃ next, viewer.redrawPixel sw (scaled y viewer.fbH sh * viewer.fbW) (y * sw) buf x = .ok next ∧
      Drawn (fun cell => cell = y * sw + x) (viewer.shownAt sw sh) buf next := by
  have left := scaled_lt column wide
  have top := scaled_lt row high
  have bound := sound.width
  have small : x * viewer.fbW / sw % 2 ^ 32 = scaled x viewer.fbW sw := by
    apply Nat.mod_eq_of_lt
    unfold scaled at left
    omega
  obtain ⟨colour, here⟩ := sound.pixel_some left top
  have read : index (ε := Empty) viewer.fb (scaled y viewer.fbH sh * viewer.fbW +
      scaled x viewer.fbW sw) = .ok colour := Program.index_eq_ok.mpr here
  refine ⟨buf.set (y * sw + x) (viewer.shownAt sw sh (y * sw + x)), ?_, Drawn.set _ inside⟩
  unfold redrawPixel
  dsimp only
  rw [small, Program.bind_ok read, Program.assign_of_lt colour inside, shownAt_cell column, here]
  rfl

theorem foldlM_draws {β : Type} {items : List β} {body : List Nat → β → Except PaintFault (List Nat)}
    {region : β → Nat → Prop} {value : Nat → Nat} {cells : List Nat}
    (each : ∀ item ∈ items, ∀ state, state.length = cells.length →
      ∃ next, body state item = .ok next ∧ Drawn (region item) value state next) :
    ∃ after, items.foldlM body cells = .ok after ∧
      Drawn (fun position => ∃ item ∈ items, region item position) value cells after := by
  have runs : ∃ after, items.foldlM body cells = .ok after ∧
      Kept (fun _ => True) cells after := by
    apply InPlace.foldlM_kept
    intro item member state size
    obtain ⟨next, ran, drawn⟩ := each item member state size
    exact ⟨next, ran, drawn.size, fun _position outside => absurd trivial outside⟩
  obtain ⟨after, ran, _kept⟩ := runs
  refine ⟨after, ran, ?_⟩
  apply @InPlace.foldlM_drawn _ value cells _ _ items body region _ after ran
  intro item member state size found stepped
  obtain ⟨next, ran', drawn⟩ := each item member state size
  rw [ran'] at stepped
  cases stepped
  exact drawn

theorem redrawRow_draws (sound : viewer.Sound) {y : Nat} (wide : 0 < viewer.fbW)
    (high : 0 < viewer.fbH) (some : 0 < sw) (row : y < sh) (size : buf.length = sw * sh)
    (fits : sw * sh ≤ 2 ^ 32) :
    ∃ next, viewer.redrawRow sw sh buf y = .ok next ∧
      Drawn (fun cell => ∃ x ∈ List.range sw, cell = y * sw + x) (viewer.shownAt sw sh) buf next := by
  have top := scaled_lt row high
  have bound := sound.height
  have small : y * viewer.fbH / sh % 2 ^ 32 = scaled y viewer.fbH sh := by
    apply Nat.mod_eq_of_lt
    unfold scaled at top
    omega
  have rows : y * sw + sw ≤ sw * sh := by
    rw [← Nat.succ_mul, Nat.mul_comm sw]
    exact Nat.mul_le_mul_right sw row
  have srcFits : scaled y viewer.fbH sh * viewer.fbW < 2 ^ 32 := by
    have most : scaled y viewer.fbH sh * viewer.fbW ≤ 16384 * 16384 :=
      Nat.mul_le_mul (by omega) sound.width
    omega
  unfold redrawRow
  dsimp only
  rw [small, Program.bind_ok (Program.checkU32_eq_ok.mpr ⟨srcFits, rfl⟩)]
  rw [Program.bind_ok (Program.checkU32_eq_ok.mpr ⟨by omega, rfl⟩)]
  apply foldlM_draws
  intro x member state same
  have column := List.mem_range.mp member
  exact redrawPixel_draws sound wide high column row (by omega)

/-- Both ways of drawing the window show the same, whatever its size. -/
theorem redraw_scales (sound : viewer.Sound) (width height : Nat)
    (size : buf.length = max width 1 * max height 1) (fits : max width 1 * max height 1 ≤ 2 ^ 32) :
    ∃ shown, viewer.redraw width height buf = .ok shown ∧ shown.length = buf.length ∧
      ∀ x y, x < max width 1 → y < max height 1 →
        shown[y * max width 1 + x]? = some (if viewer.fb = [] then 0 else
          (viewer.pixel (scaled x viewer.fbW (max width 1))
            (scaled y viewer.fbH (max height 1))).getD 0) := by
  have wide : 0 < max width 1 := by omega
  have inside {x y : Nat} (column : x < max width 1) (row : y < max height 1) :
      y * max width 1 + x < buf.length := by
    have rows : y * max width 1 + max width 1 ≤ max height 1 * max width 1 := by
      rw [← Nat.succ_mul]
      exact Nat.mul_le_mul_right _ row
    rw [size, Nat.mul_comm (max width 1)]
    omega
  unfold redraw
  dsimp only
  generalize max width 1 = sw at *
  generalize max height 1 = sh at *
  by_cases empty : viewer.fb = []
  · rw [if_neg fun all => all.2.2 empty, if_neg (not_not.mpr empty)]
    refine ⟨_, rfl, List.length_replicate, fun x y column row => ?_⟩
    rw [if_pos empty, List.getElem?_replicate_of_lt (inside column row)]
  have area := sound.area
  have some : 0 < viewer.fb.length := List.length_pos_iff.mpr empty
  have some' : 0 < viewer.fbW ∧ 0 < viewer.fbH := by
    constructor
    · exact Nat.pos_of_mul_pos_right (area ▸ some)
    · exact Nat.pos_of_mul_pos_left (area ▸ some)
  by_cases same : sw = viewer.fbW ∧ sh = viewer.fbH
  · obtain ⟨rfl, rfl⟩ := same
    rw [if_pos ⟨rfl, rfl, empty⟩, if_pos (size.trans area.symm)]
    refine ⟨_, rfl, area.trans size.symm, fun x y column row => ?_⟩
    rw [if_neg empty, scaled_same some'.1, scaled_same some'.2]
    obtain ⟨colour, here⟩ := sound.pixel_some column row
    rw [here]
    exact here
  · rw [if_neg fun all => same ⟨all.1, all.2.1⟩, if_pos empty]
    have rows : ∀ y ∈ List.range sh, ∀ state : List Nat, state.length = buf.length →
        ∃ next, viewer.redrawRow sw sh state y = .ok next ∧
          Drawn (fun cell => ∃ x ∈ List.range sw, cell = y * sw + x) (viewer.shownAt sw sh) state
            next := by
      intro y member state length
      exact redrawRow_draws sound some'.1 some'.2 wide (List.mem_range.mp member)
        (length.trans size) fits
    obtain ⟨shown, ran, drawn⟩ := foldlM_draws rows
    refine ⟨shown, ran, drawn.size, fun x y column row => ?_⟩
    rw [drawn.inside _ ⟨y, List.mem_range.mpr row, x, List.mem_range.mpr column, rfl⟩,
      shownAt_cell column, if_neg empty]

theorem drainPaint_sound {last : ViewerApp} {needsRedraw : Bool} {msgs : List PaintMsg}
    (sound : viewer.Sound) (ran : viewer.drainPaint msgs = .ok (last, needsRedraw)) : last.Sound := by
  induction msgs generalizing viewer needsRedraw with
  | nil =>
      cases ran
      exact sound
  | cons msg rest ih =>
      rcases Program.bind_eq_ok.mp ran with ⟨next, painted, ran⟩
      rcases Program.bind_eq_ok.mp ran with ⟨⟨after, redraw⟩, drained, same⟩
      cases same
      exact ih (paint_returns sound msg next painted) drained

/-- The colour that a window of some size shows of a screen. -/
noncomputable def scaledPicture (screen : Screen) (sw sh x y : Nat) : Nat :=
  if screen.width = 0 ∨ screen.height = 0 then 0
  else screen.picture ((scaled x screen.width sw : Nat), (scaled y screen.height sh : Nat))

/-- Whatever a window has taken, at every size it is drawn without a fault, and shows what was
drawn on the screen, scaled to its size; all of it, where there is room for it. -/
theorem window_scales_canvas (msgs : List PaintMsg) {last : ViewerApp} {needsRedraw : Bool}
    (ran : new.drainPaint msgs = .ok (last, needsRedraw)) (width height : Nat) {buf : List Nat}
    (size : buf.length = max width 1 * max height 1) (fits : max width 1 * max height 1 ≤ 2 ^ 32) :
    ∃ shown, last.redraw width height buf = .ok shown ∧ shown.length = buf.length ∧
      (∀ x y, x < max width 1 → y < max height 1 →
        shown[y * max width 1 + x]? =
          some (scaledPicture (msgs.foldl Screen.receive (Screen.blank 0 0)) (max width 1)
            (max height 1) x y)) ∧
      (last.fbW ≤ max width 1 → last.fbH ≤ max height 1 →
        ∀ column row, column < last.fbW → row < last.fbH →
          ∃ x y, x < max width 1 ∧ y < max height 1 ∧
            shown[y * max width 1 + x]? = last.pixel column row) := by
  have on := (drainPaint_shows sound_new Screen.on_new msgs ran).1
  have sound := drainPaint_sound sound_new ran
  obtain ⟨shown, drew, length, cells⟩ := redraw_scales sound width height size fits
  refine ⟨shown, drew, length, fun x y column row => ?_, fun wide high column row left top => ?_⟩
  · rw [cells x y column row, scaledPicture]
    congr 1
    have none : last.fb = [] ↔ last.fbW = 0 ∨ last.fbH = 0 := by
      rw [← List.length_eq_zero_iff, sound.area, Nat.mul_eq_zero]
    by_cases empty : last.fb = []
    · have blank := none.mp empty
      rw [on.width, on.height] at blank
      rw [if_pos empty, if_pos blank]
    · have sized := mt none.mpr empty
      rw [on.width, on.height] at sized
      rw [if_neg empty, if_neg sized, on.width, on.height]
      have left := scaled_lt column (Nat.pos_of_ne_zero fun zero => sized (Or.inl zero))
      have top := scaled_lt row (Nat.pos_of_ne_zero fun zero => sized (Or.inr zero))
      have here := on.shows ((scaled x _ _ : Nat), (scaled y _ _ : Nat))
        ⟨Int.natCast_nonneg _, Int.ofNat_lt.mpr left, Int.natCast_nonneg _, Int.ofNat_lt.mpr top⟩
      simp only [ViewerApp.cells, Int.toNat_natCast] at here
      rw [here]
      rfl
  · obtain ⟨x, column', here⟩ := scaled_onto left wide
    obtain ⟨y, row', here'⟩ := scaled_onto top high
    obtain ⟨colour, found⟩ := sound.pixel_some left top
    refine ⟨x, y, column', row', ?_⟩
    have some : last.fb ≠ [] := by
      intro empty
      rw [pixel, empty] at found
      cases found
    rw [cells x y column' row', if_neg some, here, here', found]
    rfl

/-- A window of twice the width. -/
theorem window_scales_canvas_twice :
    ∃ shown, ({ fb := [0xFF0000, 0xFF0000, 0xFF0000], fbW := 3, fbH := 1, shouldExit := true } :
        ViewerApp).redraw 6 1 (List.replicate 6 0) = .ok shown ∧
      shown.length = (List.replicate 6 0).length ∧
      (∀ x y, x < max 6 1 → y < max 1 1 →
        shown[y * max 6 1 + x]? =
          some (scaledPicture (overlappingCopy.foldl Screen.receive (Screen.blank 0 0)) (max 6 1)
            (max 1 1) x y)) ∧
      (3 ≤ max 6 1 → 1 ≤ max 1 1 → ∀ column row, column < 3 → row < 1 →
        ∃ x y, x < max 6 1 ∧ y < max 1 1 ∧ shown[y * max 6 1 + x]? =
          ({ fb := [0xFF0000, 0xFF0000, 0xFF0000], fbW := 3, fbH := 1, shouldExit := true } :
            ViewerApp).pixel column row) :=
  window_scales_canvas overlappingCopy (by decide +kernel : new.drainPaint overlappingCopy =
    .ok ({ fb := [0xFF0000, 0xFF0000, 0xFF0000], fbW := 3, fbH := 1, shouldExit := true }, true)) 6 1
    (by decide) (by decide)

end ViewerApp

end Capsaicin.Viewer
