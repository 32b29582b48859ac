/-
What the window shows. A message to the window is a drawing over a picture of the plane, of
which the framebuffer holds a frame.
-/

import Capsaicin.Library.Canvas
import Capsaicin.Viewer.Hostile
import Capsaicin.Viewer.Paint

namespace Capsaicin.Viewer

open Canvas (Drawing Repaints Shows)
open InPlace (Drawn)
open Program (Returns checkI32 checkU32 index assign)
open Proto (Rect)

def plane (rect : Rect) : Set (Int × Int) :=
  { position | rect.left ≤ position.1 ∧ position.1 < rect.right ∧
    rect.top ≤ position.2 ∧ position.2 < rect.bottom }

/-- The position that a position of a copied rectangle comes from. -/
def sourcePlace (srcX srcY : Int) (rect : Rect) (position : Int × Int) : Int × Int :=
  (srcX + (position.1 - rect.left), srcY + (position.2 - rect.top))

def colourAt (data : List UInt8) (start : Nat) : Nat :=
  bgraToSoftbuffer (data.getD (start + 2) 0).toNat (data.getD (start + 1) 0).toNat
    (data.getD start 0).toNat

def bytesColour (rect : Rect) (data : List UInt8) (stride : Nat) (position : Int × Int) : Nat :=
  colourAt data ((position.2 - rect.top).toNat * stride + (position.1 - rect.left).toNat * 4)

def frame (width height : Nat) : Set (Int × Int) :=
  { position | 0 ≤ position.1 ∧ position.1 < width ∧ 0 ≤ position.2 ∧ position.2 < height }

/-- A picture of the plane, and the size of the part of it that is on the window. -/
structure Screen where
  width : Nat
  height : Nat
  picture : Int × Int → Nat

def Screen.blank (width height : Nat) : Screen where
  width := width
  height := height
  picture := fun _ => 0

open Classical in
/-- A copy is drawn if everything it takes is on the framebuffer. -/
noncomputable def copyDrawing (width height : Nat) (srcX srcY : Int) (rect : Rect) :
    Drawing (Int × Int) Nat :=
  if ∀ position ∈ frame width height, position ∈ plane rect →
      sourcePlace srcX srcY rect position ∈ frame width height then
    .moved (plane rect) (sourcePlace srcX srcY rect)
  else .plain ∅ fun _ => 0

def byNumber (fbW : Nat) (drawn : Int × Int → Nat) (number : Nat) : Nat :=
  drawn ((number % fbW : Nat), (number / fbW : Nat))

theorem byNumber_at (drawn : Int × Int → Nat) {fbW x : Nat} (column : x < fbW) (y : Nat) :
    byNumber fbW drawn (y * fbW + x) = drawn (x, y) := by
  have some : 0 < fbW := by omega
  rw [byNumber, Nat.mul_comm, Nat.mul_add_mod_self_left, Nat.mod_eq_of_lt column,
    Nat.mul_add_div some, Nat.div_eq_of_lt column, Nat.add_zero]

namespace ViewerApp

def cells (viewer : ViewerApp) (position : Int × Int) : Option Nat :=
  viewer.pixel position.1.toNat position.2.toNat

variable {viewer : ViewerApp} {rect : Rect} {c : Clamped}

theorem Sound.contains_iff (sound : viewer.Sound) (clamped : clampRect rect viewer.fbW viewer.fbH = c)
    {position : Int × Int} (framed : position ∈ frame viewer.fbW viewer.fbH) :
    c.Contains position.1.toNat position.2.toNat ↔ position ∈ plane rect := by
  rcases framed with ⟨left, right, top, bottom⟩
  rw [← clamped, sound.clamp]
  unfold Clamped.Contains plane
  dsimp only
  rw [Set.mem_ofPred_eq]
  omega

theorem Sound.repaints_plain (sound : viewer.Sound)
    (clamped : clampRect rect viewer.fbW viewer.fbH = c) {drawn : Int × Int → Nat} {fb : List Nat}
    (drew : Drawn (region viewer.fbW c) (byNumber viewer.fbW drawn) viewer.fb fb) :
    Repaints (frame viewer.fbW viewer.fbH) (.plain (plane rect) drawn) viewer.cells
      ({ viewer with fb := fb } : ViewerApp).cells where
  outside := by
    intro position framed outside
    have missed := mt (sound.contains_iff clamped framed).mp outside
    have within := sound.clamp_within rect
    rw [clamped] at within
    rcases framed with ⟨left, right, _top, _bottom⟩
    have column : position.1.toNat < viewer.fbW := by omega
    apply drew.outside
    rintro ⟨x, y, inside, same⟩
    rcases id inside with ⟨_from, column', _above, _below⟩
    rcases position_inj column (by omega) same with ⟨rfl, rfl⟩
    exact missed inside
  inside := by
    intro position framed covered
    have inside := (sound.contains_iff clamped framed).mpr covered
    rcases framed with ⟨left, right, top, _bottom⟩
    have found := drew.inside _ ⟨_, _, inside, rfl⟩
    rw [byNumber_at drawn (by omega), Int.toNat_of_nonneg left, Int.toNat_of_nonneg top] at found
    exact found

/-! ### Filling -/

theorem fillSlice_draws (fb : List Nat) (start stop color : Nat) :
    Returns (fillSlice fb start stop color)
      (Drawn (fun position => start ≤ position ∧ position < stop) (fun _ => color) fb) := by
  unfold fillSlice
  apply Returns.ite
  · intro ordered
    apply Returns.ok
    have first : (fb.take start).length = start := by
      rw [List.length_take]
      omega
    have filled : (List.replicate (stop - start) color).length = stop - start :=
      List.length_replicate
    constructor
    · simp only [List.length_append, List.length_drop, first, filled]
      omega
    · intro position inside
      rw [List.getElem?_append_right (by omega), List.getElem?_append_left (by omega),
        List.getElem?_replicate_of_lt (by omega)]
    · intro position outside
      by_cases before : position < start
      · rw [List.getElem?_append_left (by omega), List.getElem?_take_of_lt before]
      · rw [List.getElem?_append_right (by omega), List.getElem?_append_right (by omega),
          List.getElem?_drop]
        congr 1
        omega
  · intro _outside
    exact Returns.error _

theorem fillRow_draws (fbW : Nat) (c : Clamped) (color : Nat) (fb : List Nat) (y : Nat) :
    Returns (fillRow fbW c color fb y)
      (Drawn (fun position => y * fbW + c.left ≤ position ∧ position < y * fbW + c.right)
        (fun _ => color) fb) := by
  intro after ran
  rcases Program.bind_eq_ok.mp ran with ⟨start, started, ran⟩
  rcases Program.bind_eq_ok.mp ran with ⟨stop, stopped, ran⟩
  rcases Program.checkU32_eq_ok.mp started with ⟨_small, rfl⟩
  rcases Program.checkU32_eq_ok.mp stopped with ⟨_small, rfl⟩
  exact fillSlice_draws fb _ _ color after ran

theorem Sound.fillRect_repaints (sound : viewer.Sound) (rect : Rect) (color : Nat) :
    Returns (viewer.fillRect rect color) fun next =>
      ∃ fb, next = { viewer with fb := fb } ∧
        Repaints (frame viewer.fbW viewer.fbH) (.plain (plane rect) fun _ => color) viewer.cells
          next.cells := by
  intro next ran
  unfold fillRect at ran
  dsimp only at ran
  generalize clamped : clampRect rect viewer.fbW viewer.fbH = c at ran
  rcases Program.bind_eq_ok.mp ran with ⟨fb, filled, same⟩
  cases same
  have rows := InPlace.foldlM_drawn
    (fun y _member state _size => fillRow_draws viewer.fbW c color state y) fb filled
  have drew : Drawn (region viewer.fbW c) (byNumber viewer.fbW fun _ => color) viewer.fb fb := by
    apply rows.congr
    · intro position
      constructor
      · rintro ⟨x, y, ⟨left, right, top, bottom⟩, rfl⟩
        exact ⟨y, List.mem_range'_1.mpr (by omega), by omega, by omega⟩
      · rintro ⟨y, member, from', until'⟩
        rcases List.mem_range'_1.mp member with ⟨top, bottom⟩
        exact ⟨position - y * viewer.fbW, y, ⟨by omega, by omega, top, by omega⟩, by omega⟩
    · intro position _covered
      rfl
  exact ⟨fb, rfl, sound.repaints_plain clamped drew⟩

/-! ### Pictures -/

variable {data : List UInt8} {rl srcW srcH srcOffset dstRow stride count x y : Nat} {fb : List Nat}
  {value : Nat → Nat}

theorem blitColumns_draws (along : Along rect.left srcW x count) (low : rl ≤ x)
    (given : ∀ column : Nat, x ≤ column → column < x + count →
      value (dstRow + (column - rl)) = colourAt data (srcOffset + (column - rect.left).toNat * 4)) :
    Returns (blitColumns rect data rl srcW srcOffset dstRow count x fb)
      (Drawn (fun position => ∃ column, x ≤ column ∧ column < x + count ∧
        position = dstRow + (column - rl)) value fb) := by
  induction count generalizing x fb with
  | zero =>
      apply Returns.ok
      apply Drawn.nothing
      intro position covered
      rcases covered with ⟨column, from', until', _same⟩
      omega
  | succ count ih =>
      intro after ran
      rw [blitColumns_succ along] at ran
      rcases Program.bind_eq_ok.mp ran with ⟨srcByte, offset, ran⟩
      rcases Program.checkU32_eq_ok.mp offset with ⟨_small, rfl⟩
      rcases Program.bind_eq_ok.mp ran with ⟨b, blue, ran⟩
      rcases Program.bind_eq_ok.mp ran with ⟨g, green, ran⟩
      rcases Program.bind_eq_ok.mp ran with ⟨r, red, ran⟩
      rcases Program.bind_eq_ok.mp ran with ⟨next, written, ran⟩
      rcases Program.assign_eq_ok.mp written with ⟨inside, rfl⟩
      have here := given x (Nat.le_refl x) (by omega)
      simp only [colourAt, List.getD_eq_getElem?_getD, Program.index_eq_ok.mp blue,
        Program.index_eq_ok.mp green, Program.index_eq_ok.mp red, Option.getD_some] at here
      have first := Drawn.set value inside
      rw [here] at first
      have others := ih along.next (by omega)
        (fun column from' until' => given column (by omega) (by omega)) after ran
      apply first.append others
      intro position
      constructor
      · intro covered
        rcases covered with ⟨column, from', until', rfl⟩
        by_cases this : column = x
        · left
          rw [this]
        · right
          exact ⟨column, by omega, by omega, rfl⟩
      · intro covered
        rcases covered with rfl | ⟨column, from', until', rfl⟩
        · exact ⟨x, Nat.le_refl x, by omega, rfl⟩
        · exact ⟨column, by omega, by omega, rfl⟩

theorem blitRows_draws (sound : viewer.Sound)
    (columns : Along rect.left srcW c.left (c.right - c.left))
    (along : Along rect.top srcH y count) (left : c.left ≤ viewer.fbW)
    (right : c.right ≤ viewer.fbW) (above : y + count ≤ viewer.fbH) :
    Returns (blitRows rect data stride viewer.fbW srcW srcH c count y fb)
      (Drawn (fun position => ∃ column row, c.left ≤ column ∧ column < c.right ∧ y ≤ row ∧
        row < y + count ∧ position = row * viewer.fbW + column)
        (byNumber viewer.fbW (bytesColour rect data stride)) fb) := by
  induction count generalizing y fb with
  | zero =>
      apply Returns.ok
      apply Drawn.nothing
      intro position covered
      rcases covered with ⟨column, row, _left, _right, from', until', _same⟩
      omega
  | succ count ih =>
      intro after ran
      rw [blitRows_succ sound along left (by omega)] at ran
      rcases Program.bind_eq_ok.mp ran with ⟨srcOffset, offset, ran⟩
      rcases Program.checkU32_eq_ok.mp offset with ⟨_small, rfl⟩
      rcases Program.bind_eq_ok.mp ran with ⟨next, drawn, ran⟩
      have colours : ∀ column : Nat, c.left ≤ column → column < c.left + (c.right - c.left) →
          byNumber viewer.fbW (bytesColour rect data stride)
              (y * viewer.fbW + c.left + (column - c.left)) =
            colourAt data ((y - rect.top).toNat * stride + (column - rect.left).toNat * 4) := by
        intro column from' until'
        rw [Nat.add_assoc, Nat.add_sub_cancel' from', byNumber_at _ (by omega), bytesColour]
      have row := blitColumns_draws columns (Nat.le_refl c.left) colours next drawn
      have others := ih along.next (by omega) after ran
      apply row.append others
      intro position
      constructor
      · intro covered
        rcases covered with ⟨column, row, left, right, from', until', rfl⟩
        by_cases this : row = y
        · left
          exact ⟨column, left, by omega, by rw [this]; omega⟩
        · right
          exact ⟨column, row, left, right, by omega, by omega, rfl⟩
      · intro covered
        rcases covered with ⟨column, left, right, rfl⟩ | ⟨column, row, left, right, from', until', rfl⟩
        · exact ⟨column, y, left, by omega, Nat.le_refl y, by omega, by omega⟩
        · exact ⟨column, row, left, right, by omega, by omega, rfl⟩

theorem blitRows_still (empty : c.right ≤ c.left) :
    Returns (blitRows rect data stride viewer.fbW srcW srcH c count y fb) fun after =>
      after = fb := by
  induction count generalizing y with
  | zero => exact Returns.ok rfl
  | succ count ih =>
      intro after ran
      rcases Program.bind_eq_ok.mp ran with ⟨row, _found, ran⟩
      dsimp only at ran
      split at ran
      · cases ran
        rfl
      · rcases Program.bind_eq_ok.mp ran with ⟨srcOffset, _offset, ran⟩
        rcases Program.bind_eq_ok.mp ran with ⟨dstRow, _start, ran⟩
        rw [Nat.sub_eq_zero_of_le empty] at ran
        exact ih after ran

theorem Sound.blitRaw_repaints (sound : viewer.Sound) (rect : Rect) (data : List UInt8)
    (stride : Nat) :
    Returns (viewer.blitRaw rect data stride) fun next =>
      ∃ fb, next = { viewer with fb := fb } ∧
        Repaints (frame viewer.fbW viewer.fbH) (.plain (plane rect) (bytesColour rect data stride))
          viewer.cells next.cells := by
  intro next ran
  have sides := sound.clamp rect
  have within := sound.clamp_within rect
  unfold blitRaw at ran
  dsimp only at ran
  generalize clamped : clampRect rect viewer.fbW viewer.fbH = c at ran sides within
  rcases Program.bind_eq_ok.mp ran with ⟨width, wide, ran⟩
  rcases Program.bind_eq_ok.mp ran with ⟨height, high, ran⟩
  rcases Program.checkI32_eq_ok.mp wide with ⟨lowWidth, highWidth, rfl⟩
  rcases Program.checkI32_eq_ok.mp high with ⟨lowHeight, highHeight, rfl⟩
  -- a rectangle that has no positions is not drawn, whatever its sides
  have nothing (empty : ∀ position, position ∉ plane rect) :
      Repaints (frame viewer.fbW viewer.fbH) (.plain (plane rect) (bytesColour rect data stride))
        viewer.cells viewer.cells :=
    Repaints.beside (fun _position _framed => rfl) fun position _framed => empty position
  split at ran
  · rename_i zero
    cases ran
    refine ⟨viewer.fb, rfl, nothing ?_⟩
    rintro position ⟨left, right, top, bottom⟩
    have width : asU32 (rect.right - rect.left) = (rect.right - rect.left).toNat :=
      asU32_small (by omega) (by omega)
    have height : asU32 (rect.bottom - rect.top) = (rect.bottom - rect.top).toNat :=
      asU32_small (by omega) (by omega)
    omega
  · rcases Program.bind_eq_ok.mp ran with ⟨fb, blitted, same⟩
    cases same
    by_cases columns : rect.left < rect.right
    · by_cases rows : rect.top < rect.bottom
      · have width : asU32 (rect.right - rect.left) = (rect.right - rect.left).toNat :=
          asU32_small (by omega) (by omega)
        have height : asU32 (rect.bottom - rect.top) = (rect.bottom - rect.top).toNat :=
          asU32_small (by omega) (by omega)
        rw [width, height] at blitted
        rcases sound.along clamped ⟨lowWidth, highWidth⟩ ⟨lowHeight, highHeight⟩ with
          ⟨across, down⟩
        have ordered : c.top ≤ c.bottom := by
          rw [sides]
          dsimp only
          omega
        have drawn := blitRows_draws sound across down within.1 within.2.1 (by omega) fb blitted
        refine ⟨fb, rfl, sound.repaints_plain clamped (drawn.congr ?_ fun _position _covered => rfl)⟩
        intro position
        constructor
        · rintro ⟨x, y, ⟨left, right, top, bottom⟩, same⟩
          exact ⟨x, y, left, right, top, by omega, same⟩
        · rintro ⟨x, y, left, right, top, bottom, same⟩
          exact ⟨x, y, ⟨left, right, top, by omega⟩, same⟩
      · have none : c.bottom - c.top = 0 := by
          rw [sides]
          dsimp only
          omega
        rw [none] at blitted
        cases blitted
        refine ⟨viewer.fb, rfl, nothing ?_⟩
        rintro position ⟨_left, _right, top, bottom⟩
        omega
    · have none : c.right ≤ c.left := by
        rw [sides]
        dsimp only
        omega
      have same := blitRows_still none fb blitted
      subst same
      refine ⟨viewer.fb, rfl, nothing ?_⟩
      rintro position ⟨left, right, _top, _bottom⟩
      omega

/-! ### Copying -/

variable {srcX srcY : Int}

theorem Sound.available_iff (sound : viewer.Sound) (srcX srcY : Int) (rect : Rect) :
    viewer.Available srcX srcY rect ↔
      ∀ position ∈ frame viewer.fbW viewer.fbH, position ∈ plane rect →
        sourcePlace srcX srcY rect position ∈ frame viewer.fbW viewer.fbH := by
  have within := sound.clamp_within rect
  unfold Available
  generalize clamped : clampRect rect viewer.fbW viewer.fbH = c at within ⊢
  constructor
  · intro available position framed covered
    have inside := (sound.contains_iff clamped framed).mpr covered
    rcases framed with ⟨left, _right, top, _bottom⟩
    rcases available _ _ inside with ⟨fromX, untilX, fromY, untilY⟩
    unfold sourceOf at fromX untilX fromY untilY
    rw [Int.toNat_of_nonneg left] at fromX untilX
    rw [Int.toNat_of_nonneg top] at fromY untilY
    exact ⟨fromX, untilX, fromY, untilY⟩
  · intro all x y inside
    rcases id inside with ⟨_left, right, _top, bottom⟩
    have framed : ((x : Int), (y : Int)) ∈ frame viewer.fbW viewer.fbH :=
      ⟨by omega, by dsimp only; omega, by omega, by dsimp only; omega⟩
    exact all _ framed ((sound.contains_iff clamped framed).mp inside)

theorem Sound.copyRect_repaints (sound : viewer.Sound) (srcX srcY : Int) (rect : Rect) :
    Returns (viewer.copyRect srcX srcY rect) fun next =>
      ∃ fb, next = { viewer with fb := fb } ∧
        Repaints (frame viewer.fbW viewer.fbH) (copyDrawing viewer.fbW viewer.fbH srcX srcY rect)
          viewer.cells next.cells := by
  intro next ran
  rcases Program.bind_eq_ok.mp ran with ⟨found, planning, _rest⟩
  have safe := copyPlan_safe sound planning
  have within := sound.clamp_within rect
  have available := sound.available_iff srcX srcY rect
  generalize clamped : clampRect rect viewer.fbW viewer.fbH = c at safe within
  rcases safe with ⟨columns, rows, sums⟩
  have nothing (missed : ∀ position ∈ frame viewer.fbW viewer.fbH,
        position ∉ (copyDrawing viewer.fbW viewer.fbH srcX srcY rect).region)
      (still : viewer.copyPlan srcX srcY rect = .ok none) :
      ∃ fb, next = { viewer with fb := fb } ∧
        Repaints (frame viewer.fbW viewer.fbH) (copyDrawing viewer.fbW viewer.fbH srcX srcY rect)
          viewer.cells next.cells := by
    rw [copyRect_nothing still] at ran
    cases ran
    exact ⟨viewer.fb, rfl, Repaints.beside (fun _position _framed => rfl) missed⟩
  by_cases corner : c.Contains c.left c.top
  · rcases sums corner with ⟨offX, sumX, offY, sumY⟩
    rcases copyPlan_corners sound clamped corner within.2.1 within.2.2 offX sumX offY sumY with
      ⟨still, missing⟩ | ⟨plan, planned, fits⟩
    · apply nothing _ still
      rw [copyDrawing, if_neg (mt available.mpr missing)]
      intro position _framed
      exact Set.notMem_empty position
    · rcases Planned.copied sound clamped planned fits with ⟨fb, copied, _size, inside, outside⟩
      rw [copied] at ran
      cases ran
      have all : viewer.Available srcX srcY rect := by
        intro x y covered
        rw [clamped] at covered
        exact (fits.source covered).1
      refine ⟨fb, rfl, ?_⟩
      rw [copyDrawing, if_pos (available.mp all)]
      constructor
      · intro position framed missed
        have uncovered := mt (sound.contains_iff clamped framed).mp missed
        rcases framed with ⟨left, right, top, bottom⟩
        exact outside _ _ (by omega) (by omega) uncovered
      · intro position framed covered
        have contained := (sound.contains_iff clamped framed).mpr covered
        have placed := inside _ _ contained
        refine ⟨available.mp all position framed covered, ?_⟩
        rcases framed with ⟨left, _right, top, _bottom⟩
        unfold sourceOf at placed
        rw [Int.toNat_of_nonneg left, Int.toNat_of_nonneg top] at placed
        exact placed
  · apply nothing
    · intro position framed covered
      have region : position ∈ plane rect := by
        unfold copyDrawing at covered
        split at covered
        · exact covered
        · exact absurd covered (Set.notMem_empty position)
      rcases (sound.contains_iff clamped framed).mpr region with ⟨left, right, top, bottom⟩
      exact corner ⟨Nat.le_refl _, by omega, Nat.le_refl _, by omega⟩
    · exact copyPlan_empty clamped columns rows corner

end ViewerApp

/-! ### Messages -/

/-- What a message draws on a framebuffer of some size. -/
noncomputable def drawingOf (width height : Nat) : PaintMsg → Option (Drawing (Int × Int) Nat)
  | .region rect (.solidColor color) | .streamFrame rect (.solidColor color) =>
      some (.plain (plane rect) fun _ => bgra32ToSoftbuffer color)
  | .region rect (.raw data stride) | .streamFrame rect (.raw data stride) =>
      some (.plain (plane rect) (bytesColour rect data stride))
  | .copyRect srcX srcY rect => some (copyDrawing width height srcX srcY rect)
  | .surfaceCreated .. | .closed => none

def Acceptable (width height : Nat) : Prop :=
  width ≠ 0 ∧ height ≠ 0 ∧ width ≤ 16384 ∧ height ≤ 16384 ∧ width * height ≤ 64 * 1024 * 1024

namespace Screen

open Classical in
noncomputable def receive (screen : Screen) : PaintMsg → Screen
  | .surfaceCreated width height =>
      if Acceptable width height ∧ ¬ (width = screen.width ∧ height = screen.height) then
        blank width height
      else screen
  | msg =>
      match drawingOf screen.width screen.height msg with
      | some drawing => { screen with picture := drawing.on screen.picture }
      | none => screen

/-- The framebuffer has the size of the screen and shows its picture. -/
structure On (screen : Screen) (viewer : ViewerApp) : Prop where
  width : viewer.fbW = screen.width
  height : viewer.fbH = screen.height
  shows : Shows (frame screen.width screen.height) viewer.cells screen.picture

theorem on_new : (blank 0 0).On ViewerApp.new where
  width := rfl
  height := rfl
  shows := by
    rintro position ⟨left, right, _top, _bottom⟩
    change position.1 < 0 at right
    omega

variable {screen : Screen} {viewer : ViewerApp}

theorem On.resizeFb (on : screen.On viewer) (width height : Nat) :
    (screen.receive (.surfaceCreated width height)).On (viewer.resizeFb width height) := by
  unfold receive ViewerApp.resizeFb Acceptable
  dsimp only
  rw [on.width, on.height]
  by_cases same : width = screen.width ∧ height = screen.height
  · rw [if_pos same, if_neg fun both => both.2 same]
    exact on
  · by_cases rejected : width = 0 ∨ height = 0 ∨ width > 16384 ∨ height > 16384 ∨
        width * height > 64 * 1024 * 1024
    · rw [if_neg same, if_pos rejected, if_neg (by omega)]
      exact on
    · rw [if_neg same, if_neg rejected, if_pos (by omega)]
      constructor
      · rfl
      · rfl
      · rintro position ⟨left, right, top, bottom⟩
        have column : position.1.toNat < width := by
          change position.1 < (width : Int) at right
          omega
        have row : position.2.toNat + 1 ≤ height := by
          change position.2 < (height : Int) at bottom
          omega
        have rows := Nat.mul_le_mul_right width row
        rw [Nat.succ_mul] at rows
        change (List.replicate (width * height) 0)[position.2.toNat * width + position.1.toNat]? = _
        rw [Nat.mul_comm width height, List.getElem?_replicate_of_lt (by omega)]
        rfl

theorem On.repainted (on : screen.On viewer) {drawing : Drawing (Int × Int) Nat} {fb : List Nat}
    (repaints : Repaints (frame viewer.fbW viewer.fbH) drawing viewer.cells
      ({ viewer with fb := fb } : ViewerApp).cells) :
    ({ screen with picture := drawing.on screen.picture } : Screen).On { viewer with fb := fb } where
  width := on.width
  height := on.height
  shows := by
    have framed : frame viewer.fbW viewer.fbH = frame screen.width screen.height := by
      rw [on.width, on.height]
    rw [framed] at repaints
    exact on.shows.repaints repaints

/-- What one message leaves: the picture with its drawing, and the wish to close the window. -/
structure Painted (screen : Screen) (viewer : ViewerApp) (msg : PaintMsg) (next : ViewerApp) :
    Prop where
  on : (screen.receive msg).On next
  closes : next.shouldExit = true ↔ viewer.shouldExit = true ∨ msg = .closed

theorem On.painted (on : screen.On viewer) (sound : viewer.Sound) (msg : PaintMsg) :
    Returns (viewer.paint msg) (screen.Painted viewer msg) := by
  have pixels (rect : Rect) (data : Client.RegionPixels) :
      Returns (viewer.paintPixels rect data) (screen.Painted viewer (.region rect data)) := by
    intro next ran
    cases data with
    | solidColor color =>
        rcases sound.fillRect_repaints rect _ next ran with ⟨fb, rfl, repaints⟩
        exact ⟨on.repainted repaints, by simp⟩
    | raw data stride =>
        rcases sound.blitRaw_repaints rect data stride next ran with ⟨fb, rfl, repaints⟩
        exact ⟨on.repainted repaints, by simp⟩
  cases msg with
  | surfaceCreated width height =>
      have kept : (viewer.resizeFb width height).shouldExit = viewer.shouldExit := by
        unfold ViewerApp.resizeFb
        split
        · rfl
        · split
          · rfl
          · rfl
      apply Returns.ok
      exact ⟨on.resizeFb width height, by simp [kept]⟩
  | region rect data => exact pixels rect data
  | streamFrame rect data =>
      intro next ran
      rcases pixels rect data next ran with ⟨drawn, closes⟩
      refine ⟨?_, by simpa using closes⟩
      cases data with
      | solidColor color => exact drawn
      | raw data stride => exact drawn
  | copyRect srcX srcY rect =>
      intro next ran
      rcases sound.copyRect_repaints srcX srcY rect next ran with ⟨fb, rfl, repaints⟩
      have sized : copyDrawing viewer.fbW viewer.fbH = copyDrawing screen.width screen.height := by
        rw [on.width, on.height]
      rw [sized] at repaints
      exact ⟨on.repainted repaints, by simp⟩
  | closed =>
      apply Returns.ok
      exact ⟨{ width := on.width, height := on.height, shows := on.shows }, by simp⟩

end Screen

namespace ViewerApp

variable {viewer : ViewerApp} {screen : Screen}

theorem drainPaint_shows (sound : viewer.Sound) (on : screen.On viewer) (msgs : List PaintMsg)
    {last : ViewerApp} {needsRedraw : Bool}
    (ran : viewer.drainPaint msgs = .ok (last, needsRedraw)) :
    (msgs.foldl Screen.receive screen).On last ∧
      (needsRedraw = true ↔ ∃ msg ∈ msgs, msg ≠ .closed) ∧
      (last.shouldExit = true ↔ viewer.shouldExit = true ∨ .closed ∈ msgs) := by
  induction msgs generalizing viewer screen needsRedraw with
  | nil =>
      cases ran
      simp [on]
  | cons msg rest ih =>
      rcases Program.bind_eq_ok.mp ran with ⟨next, painted, ran⟩
      rcases Program.bind_eq_ok.mp ran with ⟨⟨after, redraw⟩, drained, same⟩
      cases same
      rcases on.painted sound msg next painted with ⟨shown, closes⟩
      rcases ih (paint_returns sound msg next painted) shown drained with
        ⟨all, redraws, exits⟩
      refine ⟨all, ?_, ?_⟩
      · rw [Bool.or_eq_true, redraws, decide_eq_true_iff]
        simp
      · rw [exits, closes, List.mem_cons, @eq_comm _ PaintMsg.closed msg, or_assoc]

/-- Whatever messages a new window has taken, as long as it still runs: it shows what they have
drawn, it is drawn again if anything else than its closing was among them, and it closes if
that was. -/
theorem framebuffer_shows_canvas (msgs : List PaintMsg) {last : ViewerApp} {needsRedraw : Bool}
    (ran : new.drainPaint msgs = .ok (last, needsRedraw)) :
    (msgs.foldl Screen.receive (Screen.blank 0 0)).On last ∧
      (needsRedraw = true ↔ ∃ msg ∈ msgs, msg ≠ .closed) ∧
      (last.shouldExit = true ↔ .closed ∈ msgs) := by
  rcases drainPaint_shows sound_new Screen.on_new msgs ran with ⟨all, redraws, exits⟩
  refine ⟨all, redraws, ?_⟩
  rw [exits]
  simp [new]

def overlappingCopy : List PaintMsg :=
  [.surfaceCreated 3 1, .region ⟨0, 0, 1, 2⟩ (.solidColor 0xFF0000),
    .copyRect 0 0 ⟨0, 1, 1, 3⟩, .closed]

theorem framebuffer_shows_canvas_overlapping :
    (overlappingCopy.foldl Screen.receive (Screen.blank 0 0)).On
        { fb := [0xFF0000, 0xFF0000, 0xFF0000], fbW := 3, fbH := 1, shouldExit := true } ∧
      (true = true ↔ ∃ msg ∈ overlappingCopy, msg ≠ .closed) ∧
      (true = true ↔ .closed ∈ overlappingCopy) :=
  framebuffer_shows_canvas overlappingCopy (by decide +kernel : new.drainPaint overlappingCopy =
    .ok ({ fb := [0xFF0000, 0xFF0000, 0xFF0000], fbW := 3, fbH := 1, shouldExit := true }, true))

/-! ### Where colours come from -/

def Gives : PaintMsg → Nat → Prop
  | .region _ (.solidColor color), colour | .streamFrame _ (.solidColor color), colour =>
      colour = bgra32ToSoftbuffer color
  | .region rect (.raw data stride), colour | .streamFrame rect (.raw data stride), colour =>
      ∃ position ∈ plane rect, colour = bytesColour rect data stride position
  | _, _ => False

/-- A picture that some messages have drawn on black. -/
def Made (past : List PaintMsg) (screen : Screen) : Prop :=
  ∃ drawings, screen.picture = Canvas.run (fun _ => 0) drawings ∧
    ∀ region drawn, Drawing.plain region drawn ∈ drawings →
      ∃ msg ∈ past, drawingOf screen.width screen.height msg = some (.plain region drawn)

theorem made_blank (past : List PaintMsg) (width height : Nat) :
    Made past (Screen.blank width height) :=
  ⟨[], rfl, fun _region _drawn impossible => absurd impossible List.not_mem_nil⟩

theorem Made.receive {past : List PaintMsg} (made : Made past screen) (msg : PaintMsg) :
    Made (past ++ [msg]) (screen.receive msg) := by
  rcases made with ⟨drawings, same, known⟩
  have still : Made (past ++ [msg]) screen := by
    refine ⟨drawings, same, ?_⟩
    intro region drawn member
    rcases known region drawn member with ⟨found, among, gives⟩
    exact ⟨found, List.mem_append_left [msg] among, gives⟩
  have drew {drawing : Drawing (Int × Int) Nat}
      (given : drawingOf screen.width screen.height msg = some drawing) :
      Made (past ++ [msg]) { screen with picture := drawing.on screen.picture } := by
    refine ⟨drawings ++ [drawing], ?_, ?_⟩
    · simp [Canvas.run_append, same]
    · intro region drawn member
      rcases List.mem_append.mp member with earlier | last
      · rcases known region drawn earlier with ⟨found, among, gives⟩
        exact ⟨found, List.mem_append_left [msg] among, gives⟩
      · rw [List.mem_singleton.mp last]
        exact ⟨msg, by simp, given⟩
  cases msg with
  | surfaceCreated width height =>
      unfold Screen.receive
      dsimp only
      split
      · exact made_blank _ width height
      · exact still
  | region rect data =>
      cases data with
      | solidColor color => exact drew rfl
      | raw data stride => exact drew rfl
  | streamFrame rect data =>
      cases data with
      | solidColor color => exact drew rfl
      | raw data stride => exact drew rfl
  | copyRect srcX srcY rect => exact drew rfl
  | closed => exact still

theorem made_run (msgs : List PaintMsg) :
    Made msgs (msgs.foldl Screen.receive (Screen.blank 0 0)) := by
  induction msgs using List.reverseRecOn with
  | nil => exact made_blank [] 0 0
  | append_singleton earlier msg ih =>
      rw [List.foldl_append]
      exact ih.receive msg

theorem drawingOf_plain {width height : Nat} {msg : PaintMsg} {region : Set (Int × Int)}
    {drawn : Int × Int → Nat} {position : Int × Int} (inside : position ∈ region)
    (given : drawingOf width height msg = some (.plain region drawn)) :
    Gives msg (drawn position) := by
  have copied {srcX srcY : Int} {rect : Rect} :
      copyDrawing width height srcX srcY rect ≠ .plain region drawn := by
    unfold copyDrawing
    split
    · simp
    · intro same
      injection same with empty _drawn
      exact Set.notMem_empty position (empty ▸ inside)
  cases msg with
  | surfaceCreated _ _ => cases given
  | region rect data =>
      cases data with
      | solidColor color =>
          cases given
          rfl
      | raw data stride =>
          cases given
          exact ⟨position, inside, rfl⟩
  | streamFrame rect data =>
      cases data with
      | solidColor color =>
          cases given
          rfl
      | raw data stride =>
          cases given
          exact ⟨position, inside, rfl⟩
  | copyRect srcX srcY rect => exact absurd (Option.some.inj given) copied
  | closed => cases given

/-- Every pixel of the window is black, or a message has brought its colour. -/
theorem pixels_provenance (msgs : List PaintMsg) {last : ViewerApp} {needsRedraw : Bool}
    (ran : new.drainPaint msgs = .ok (last, needsRedraw)) {x y : Nat} (column : x < last.fbW)
    (row : y < last.fbH) :
    ∃ colour, last.pixel x y = some colour ∧ (colour = 0 ∨ ∃ msg ∈ msgs, Gives msg colour) := by
  rcases drainPaint_shows sound_new Screen.on_new msgs ran with ⟨shown, _redraws, _exits⟩
  rcases made_run msgs with ⟨drawings, same, known⟩
  have framed : ((x : Int), (y : Int)) ∈ frame last.fbW last.fbH :=
    ⟨by simp, by simpa using column, by simp, by simpa using row⟩
  rw [shown.width, shown.height] at framed
  refine ⟨_, shown.shows _ framed, ?_⟩
  rw [same, Canvas.run_origin]
  rcases Canvas.origin_cases drawings.reverse ((x : Int), (y : Int)) with
    ⟨region, drawn, place, member, inside, reached⟩ | ⟨place, reached⟩
  · rcases known region drawn (List.mem_reverse.mp member) with ⟨msg, among, gives⟩
    rw [reached]
    exact Or.inr ⟨msg, among, drawingOf_plain inside gives⟩
  · rw [reached]
    exact Or.inl rfl

/-- The colour that the copy has put there is that of the fill. -/
theorem pixels_provenance_copied :
    ∃ colour, ({ fb := [0xFF0000, 0xFF0000, 0xFF0000], fbW := 3, fbH := 1, shouldExit := true } :
        ViewerApp).pixel 2 0 = some colour ∧
      (colour = 0 ∨ ∃ msg ∈ overlappingCopy, Gives msg colour) := by
  have ran : new.drainPaint overlappingCopy =
      .ok ({ fb := [0xFF0000, 0xFF0000, 0xFF0000], fbW := 3, fbH := 1, shouldExit := true },
        true) := by decide +kernel
  exact pixels_provenance overlappingCopy ran (by decide) (by decide)

end ViewerApp

end Capsaicin.Viewer
