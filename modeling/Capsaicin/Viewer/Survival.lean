/-
Which messages the window survives. A rectangle, a picture or a copy that does not fit what the
loops compute stops the viewer, and whether it does depends on the size of the framebuffer alone.
-/

import Capsaicin.Viewer.Canvas

namespace Capsaicin.Viewer

open InPlace (Kept)
open Program (Returns)
open Proto (Rect)

namespace ViewerApp

variable {viewer : ViewerApp} {rect : Rect} {c : Clamped}

/-! ### One message -/

/-- The extents are integers, and if the rectangle has a width, then every row and every pixel on
the framebuffer has a place in the data that the loops can compute. -/
def RawSafe (rect : Rect) (data : List UInt8) (stride : Nat) (c : Clamped) : Prop :=
  IsI32 (rect.right - rect.left) ∧ IsI32 (rect.bottom - rect.top) ∧
    (rect.left ≠ rect.right → ∀ y, c.top ≤ y → y < c.bottom →
      (y - rect.top) * stride < 2 ^ 32 ∧
        ∀ x, c.left ≤ x → x < c.right → (x - rect.left) * 4 < 2 ^ 32 ∧
          (y - rect.top) * stride + (x - rect.left) * 4 + 2 < data.length)

section Rows

variable {data : List UInt8} {rl srcW srcH srcOffset dstRow stride count x y : Nat}
  {fb : List Nat}

theorem blitColumns_runs_iff (along : Along rect.left srcW x count)
    (inside : ∀ column, x ≤ column → column < x + count → dstRow + (column - rl) < fb.length) :
    (∃ after, blitColumns rect data rl srcW srcOffset dstRow count x fb = .ok after) ↔
      ∀ column, x ≤ column → column < x + count → (column - rect.left) * 4 < 2 ^ 32 ∧
        srcOffset + (column - rect.left) * 4 + 2 < data.length := by
  constructor
  · intro ran
    induction count generalizing x fb with
    | zero =>
        intro column from' until'
        omega
    | succ count ih =>
        rcases ran with ⟨after, ran⟩
        rw [blitColumns_succ along] at ran
        rcases Program.bind_eq_ok.mp ran with ⟨srcByte, offset, ran⟩
        rcases Program.checkU32_eq_ok.mp offset with ⟨small, rfl⟩
        rcases Program.bind_eq_ok.mp ran with ⟨b, _blue, ran⟩
        rcases Program.bind_eq_ok.mp ran with ⟨g, _green, ran⟩
        rcases Program.bind_eq_ok.mp ran with ⟨r, red, ran⟩
        rcases Program.bind_eq_ok.mp ran with ⟨next, written, ran⟩
        have place := along.place.2.2.2
        rcases List.getElem?_eq_some_iff.mp (Program.index_eq_ok.mp red) with ⟨last, _found⟩
        have size := Program.assign_returns _ _ rfl next written
        have others := ih along.next
          (by
            intro column from' until'
            rw [size]
            exact inside column (by omega) (by omega))
          ⟨after, ran⟩
        intro column from' until'
        by_cases here : column = x
        · subst here
          omega
        · exact others column (by omega) (by omega)
  · intro safe
    have positions (column : Nat) (from' : x ≤ column) (until' : column < x + count) :
        srcOffset + (column - rect.left).toNat * 4 + 2 < data.length := by
      have last := (safe column from' until').2
      have low := (along.inside column from' until').2.1
      omega
    have kept : ∃ after, blitColumns rect data rl srcW srcOffset dstRow count x fb = .ok after ∧
        Kept (fun _ => True) fb after :=
      blitColumns_kept along (fun column from' until' => (safe column from' until').1) positions
        fun column from' until' => ⟨inside column from' until', trivial⟩
    rcases kept with ⟨after, ran, _size⟩
    exact ⟨after, ran⟩

theorem blitRow_runs_iff (sound : viewer.Sound)
    (columns : c.left < c.right → Along rect.left srcW c.left (c.right - c.left))
    (right : c.right ≤ viewer.fbW) (row : y < viewer.fbH) (size : fb.length = viewer.fb.length) :
    (∃ after, blitColumns rect data c.left srcW srcOffset (y * viewer.fbW + c.left)
        (c.right - c.left) c.left fb = .ok after) ↔
      ∀ column, c.left ≤ column → column < c.right → (column - rect.left) * 4 < 2 ^ 32 ∧
        srcOffset + (column - rect.left) * 4 + 2 < data.length := by
  by_cases some : c.left < c.right
  · have inside : ∀ column, c.left ≤ column → column < c.left + (c.right - c.left) →
        y * viewer.fbW + c.left + (column - c.left) < fb.length := by
      intro column from' until'
      have position := (sound.position (by omega : column + 1 ≤ viewer.fbW) row).1
      omega
    rw [blitColumns_runs_iff (columns some) inside, Nat.add_sub_cancel' (Nat.le_of_lt some)]
  · rw [Nat.sub_eq_zero_of_le (Nat.le_of_not_lt some)]
    constructor
    · intro _ran column from' until'
      omega
    · intro _safe
      exact ⟨fb, rfl⟩

theorem blitRows_runs_iff (sound : viewer.Sound) (along : Along rect.top srcH y count)
    (columns : c.left < c.right → Along rect.left srcW c.left (c.right - c.left))
    (left : c.left ≤ viewer.fbW) (right : c.right ≤ viewer.fbW) (below : y + count ≤ viewer.fbH)
    (size : fb.length = viewer.fb.length) :
    (∃ after, blitRows rect data stride viewer.fbW srcW srcH c count y fb = .ok after) ↔
      ∀ row, y ≤ row → row < y + count → (row - rect.top) * stride < 2 ^ 32 ∧
        ∀ column, c.left ≤ column → column < c.right → (column - rect.left) * 4 < 2 ^ 32 ∧
          (row - rect.top) * stride + (column - rect.left) * 4 + 2 < data.length := by
  induction count generalizing y fb with
  | zero =>
      constructor
      · intro _ran row from' until'
        omega
      · intro _safe
        exact ⟨fb, rfl⟩
  | succ count ih =>
      have product : (((y - rect.top).toNat * stride : Nat) : Int) = (y - rect.top) * stride := by
        rw [Nat.cast_mul, along.place.2.2.2]
      have here : (∃ next, blitColumns rect data c.left srcW ((y - rect.top).toNat * stride)
          (y * viewer.fbW + c.left) (c.right - c.left) c.left fb = .ok next) ↔ _ :=
        blitRow_runs_iff sound columns right (by omega : y < viewer.fbH) size
      rw [blitRows_succ sound along left (by omega)]
      constructor
      · rintro ⟨after, ran⟩
        rcases Program.bind_eq_ok.mp ran with ⟨srcOffset, offset, ran⟩
        rcases Program.checkU32_eq_ok.mp offset with ⟨small, rfl⟩
        rcases Program.bind_eq_ok.mp ran with ⟨next, drawn, ran⟩
        have kept := blitColumns_returns data _ _ _ _ size next drawn
        have others := (ih along.next (by omega) kept).mp ⟨after, ran⟩
        have first := here.mp ⟨next, drawn⟩
        intro row from' until'
        by_cases this : row = y
        · subst this
          rw [product] at first
          exact ⟨by omega, first⟩
        · exact others row (by omega) (by omega)
      · intro safe
        rcases safe y (Nat.le_refl y) (by omega) with ⟨offset, first⟩
        rw [← product] at first
        rcases here.mpr first with ⟨next, drawn⟩
        have kept := blitColumns_returns data _ _ _ _ size next drawn
        rw [Program.bind_ok (Program.checkU32_eq_ok.mpr ⟨by omega, rfl⟩), Program.bind_ok drawn]
        apply (ih along.next (by omega) kept).mpr
        intro row from' until'
        exact safe row (by omega) (by omega)

end Rows

theorem asU32_eq_zero {value : Int} (small : IsI32 value) (zero : asU32 value = 0) : value = 0 := by
  unfold IsI32 at small
  unfold asU32 Proto.unsigned at zero
  omega

theorem blitRaw_runs_iff (sound : viewer.Sound) (rect : Rect) (data : List UInt8) (stride : Nat) :
    (∃ next, viewer.blitRaw rect data stride = .ok next) ↔
      RawSafe rect data stride (clampRect rect viewer.fbW viewer.fbH) := by
  have within := sound.clamp_within rect
  have sides := sound.clamp rect
  unfold blitRaw RawSafe
  dsimp only
  generalize clamped : clampRect rect viewer.fbW viewer.fbH = c at within sides ⊢
  -- the columns that are drawn once the extents are integers
  have columns (width : IsI32 (rect.right - rect.left)) (height : IsI32 (rect.bottom - rect.top)) :
      c.left < c.right → Along rect.left (asU32 (rect.right - rect.left)) c.left
        (c.right - c.left) := by
    intro some
    have along := (sound.along clamped width height).1
    have wide : rect.left < rect.right := by
      rw [sides] at some
      dsimp only at some
      omega
    unfold IsI32 at width
    rw [asU32_small (by omega) (by omega)]
    exact along
  have rows (width : IsI32 (rect.right - rect.left)) (height : IsI32 (rect.bottom - rect.top)) :
      (∃ fb, blitRows rect data stride viewer.fbW (asU32 (rect.right - rect.left))
          (asU32 (rect.bottom - rect.top)) c (c.bottom - c.top) c.top viewer.fb = .ok fb) ↔
        ∀ y, c.top ≤ y → y < c.bottom → (y - rect.top) * stride < 2 ^ 32 ∧
          ∀ x, c.left ≤ x → x < c.right → (x - rect.left) * 4 < 2 ^ 32 ∧
            (y - rect.top) * stride + (x - rect.left) * 4 + 2 < data.length := by
    by_cases some : c.top < c.bottom
    · have along := (sound.along clamped width height).2
      have high : rect.top < rect.bottom := by
        rw [sides] at some
        dsimp only at some
        omega
      have size : asU32 (rect.bottom - rect.top) = (rect.bottom - rect.top).toNat := by
        unfold IsI32 at height
        exact asU32_small (by omega) (by omega)
      rw [size, blitRows_runs_iff sound along (columns width height) within.1 within.2.1 (by omega)
        rfl, Nat.add_sub_cancel' (Nat.le_of_lt some)]
    · rw [Nat.sub_eq_zero_of_le (Nat.le_of_not_lt some)]
      constructor
      · intro _ran y from' until'
        omega
      · intro _safe
        exact ⟨viewer.fb, rfl⟩
  constructor
  · rintro ⟨next, ran⟩
    rcases Program.bind_eq_ok.mp ran with ⟨width, wide, ran⟩
    rcases Program.checkI32_eq_ok.mp wide with ⟨lowWidth, highWidth, rfl⟩
    rcases Program.bind_eq_ok.mp ran with ⟨height, high, ran⟩
    rcases Program.checkI32_eq_ok.mp high with ⟨lowHeight, highHeight, rfl⟩
    refine ⟨⟨lowWidth, highWidth⟩, ⟨lowHeight, highHeight⟩, ?_⟩
    intro different
    split at ran
    · rename_i zero
      rcases zero with zero | zero
      · have narrow := asU32_eq_zero ⟨lowWidth, highWidth⟩ zero
        omega
      · have low := asU32_eq_zero ⟨lowHeight, highHeight⟩ zero
        intro y from' until'
        rw [sides] at from' until'
        dsimp only at from' until'
        omega
    · rcases Program.bind_eq_ok.mp ran with ⟨fb, drawn, _rest⟩
      exact (rows ⟨lowWidth, highWidth⟩ ⟨lowHeight, highHeight⟩).mp ⟨fb, drawn⟩
  · rintro ⟨width, height, safe⟩
    rw [Rect.width, Rect.height, Program.bind_ok (Program.checkI32_eq_ok.mpr ⟨width.1, width.2, rfl⟩),
      Program.bind_ok (Program.checkI32_eq_ok.mpr ⟨height.1, height.2, rfl⟩)]
    split
    · exact ⟨viewer, rfl⟩
    · rename_i some
      have different : rect.left ≠ rect.right := by
        intro same
        apply some
        left
        rw [same, Int.sub_self]
        rfl
      rcases (rows width height).mpr (safe different) with ⟨fb, drawn⟩
      rw [Program.bind_ok drawn]
      exact ⟨_, rfl⟩

theorem fillRect_runs_iff (sound : viewer.Sound) (rect : Rect) (color : Nat) :
    (∃ next, viewer.fillRect rect color = .ok next) ↔
      FillSafe (clampRect rect viewer.fbW viewer.fbH) := by
  rw [← fillRect_iff sound rect color]
  constructor
  · rintro ⟨next, ran⟩
    have kept := fillRect_returns sound rect color next ran
    rcases sound.fillRect_repaints rect color next ran with ⟨fb, rfl, repaints⟩
    refine ⟨fb, ran, kept.area, ?_⟩
    intro x y column row outside
    have framed : ((x : Int), (y : Int)) ∈ frame viewer.fbW viewer.fbH := by
      unfold frame
      simp only [Set.mem_ofPred_eq]
      omega
    exact repaints.outside _ framed fun covered =>
      outside ((sound.contains_iff rfl framed).mpr covered)
  · rintro ⟨fb, ran, _size, _kept⟩
    exact ⟨_, ran⟩

theorem copyRect_runs_iff (sound : viewer.Sound) (srcX srcY : Int) (rect : Rect) :
    (∃ next, viewer.copyRect srcX srcY rect = .ok next) ↔
      CopySafe srcX srcY rect (clampRect rect viewer.fbW viewer.fbH) := by
  constructor
  · rintro ⟨next, ran⟩
    rcases Program.bind_eq_ok.mp ran with ⟨found, planned, _rest⟩
    exact copyPlan_safe sound planned
  · intro safe
    rcases (copyRect_iff sound srcX srcY rect).mpr safe with ⟨fb, ran, _size, _kept⟩
    exact ⟨_, ran⟩

/-! ### All messages -/

/-- What a message to a framebuffer of a size needs. -/
def PaintSafe (size : Nat × Nat) : PaintMsg → Prop
  | .region rect (.solidColor _) | .streamFrame rect (.solidColor _) =>
      FillSafe (clampRect rect size.1 size.2)
  | .region rect (.raw data stride) | .streamFrame rect (.raw data stride) =>
      RawSafe rect data stride (clampRect rect size.1 size.2)
  | .copyRect srcX srcY rect => CopySafe srcX srcY rect (clampRect rect size.1 size.2)
  | .surfaceCreated .. | .closed => True

instance (width height : Nat) : Decidable (Acceptable width height) :=
  inferInstanceAs (Decidable (_ ∧ _))

def framed (size : Nat × Nat) : PaintMsg → Nat × Nat
  | .surfaceCreated width height => if Acceptable width height then (width, height) else size
  | _ => size

def size (viewer : ViewerApp) : Nat × Nat := (viewer.fbW, viewer.fbH)

theorem size_resizeFb (viewer : ViewerApp) (width height : Nat) :
    (viewer.resizeFb width height).size = framed viewer.size (.surfaceCreated width height) := by
  unfold resizeFb
  change _ = if Acceptable width height then (width, height) else viewer.size
  split
  · rename_i same
    rcases same with ⟨rfl, rfl⟩
    exact (ite_self _).symm
  · split
    · rename_i rejected
      have refused : ¬ Acceptable width height := by
        unfold Acceptable
        omega
      rw [if_neg refused]
    · rename_i possible
      have accepted : Acceptable width height := by
        unfold Acceptable
        omega
      rw [if_pos accepted]
      rfl

theorem paint_framed (sound : viewer.Sound) (msg : PaintMsg) :
    Returns (viewer.paint msg) fun next => next.size = framed viewer.size msg := by
  have pixels (rect : Rect) (data : Client.RegionPixels) :
      Returns (viewer.paintPixels rect data) fun next => next.size = viewer.size := by
    intro next ran
    cases data with
    | solidColor color =>
        rcases sound.fillRect_repaints rect _ next ran with ⟨fb, rfl, _repaints⟩
        rfl
    | raw data stride =>
        rcases sound.blitRaw_repaints rect data stride next ran with ⟨fb, rfl, _repaints⟩
        rfl
  cases msg with
  | surfaceCreated width height => exact Returns.ok (size_resizeFb viewer width height)
  | region rect data => exact pixels rect data
  | streamFrame rect data => exact pixels rect data
  | copyRect srcX srcY rect =>
      intro next ran
      rcases sound.copyRect_repaints srcX srcY rect next ran with ⟨fb, rfl, _repaints⟩
      rfl
  | closed => exact Returns.ok rfl

theorem paint_runs_iff (sound : viewer.Sound) (msg : PaintMsg) :
    (∃ next, viewer.paint msg = .ok next) ↔ PaintSafe viewer.size msg := by
  have pixels (rect : Rect) (data : Client.RegionPixels) :
      (∃ next, viewer.paintPixels rect data = .ok next) ↔ PaintSafe viewer.size (.region rect data) := by
    cases data with
    | solidColor color => exact fillRect_runs_iff sound rect _
    | raw data stride => exact blitRaw_runs_iff sound rect data stride
  cases msg with
  | surfaceCreated width height => exact ⟨fun _ran => trivial, fun _safe => ⟨_, rfl⟩⟩
  | region rect data => exact pixels rect data
  | streamFrame rect data =>
      cases data with
      | solidColor color => exact pixels rect (.solidColor color)
      | raw data stride => exact pixels rect (.raw data stride)
  | copyRect srcX srcY rect => exact copyRect_runs_iff sound srcX srcY rect
  | closed => exact ⟨fun _ran => trivial, fun _safe => ⟨_, rfl⟩⟩

theorem drainPaint_eq_messages (msgs : List PaintMsg) :
    (viewer.drainPaint msgs).map Prod.fst = Erasure.run paint viewer msgs := by
  induction msgs generalizing viewer with
  | nil => rfl
  | cons msg rest ih =>
      rw [drainPaint, Erasure.run]
      cases painted : viewer.paint msg with
      | error fault => rfl
      | ok next =>
          dsimp only
          rw [← ih]
          change ((next.drainPaint rest) >>= fun last => _).map Prod.fst = _
          cases next.drainPaint rest with
          | error fault => rfl
          | ok last => rfl

/-- A new window survives exactly the messages of which each, when it comes, is safe on a
framebuffer of the size that it then has. -/
theorem window_survives_iff (msgs : List PaintMsg) :
    (∃ result, new.drainPaint msgs = .ok result) ↔
      ∀ before msg after, msgs = before ++ msg :: after →
        PaintSafe (before.foldl framed (0, 0)) msg := by
  have run : (∃ result, new.drainPaint msgs = .ok result) ↔
      ∃ last, Erasure.run paint new msgs = .ok last := by
    rw [← drainPaint_eq_messages]
    cases new.drainPaint msgs with
    | error fault => simp [Except.map]
    | ok result => simp [Except.map]
  have keeps (viewer : ViewerApp) (msg : PaintMsg) (next : ViewerApp) (sound : viewer.Sound)
      (painted : viewer.paint msg = .ok next) : next.Sound ∧ next.size = framed viewer.size msg :=
    ⟨paint_returns sound msg next painted, paint_framed sound msg next painted⟩
  have each (viewer : ViewerApp) (msg : PaintMsg) (sound : viewer.Sound) :
      (∃ next, viewer.paint msg = .ok next) ↔ PaintSafe viewer.size msg :=
    paint_runs_iff sound msg
  rw [run]
  exact Erasure.run_survives_iff keeps each sound_new

end ViewerApp

end Capsaicin.Viewer
