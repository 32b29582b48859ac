/-
Painting whatever rectangle a server sends. Each side is clamped for itself, so the sides can
be in the wrong order afterwards, and some sums are taken before anything is compared.
-/

import Capsaicin.Viewer.CopyRect

namespace Capsaicin.Viewer

open Program (checkI32 checkU32 index assign)
open Proto (Rect)
open InPlace (Kept)

namespace ViewerApp

variable {viewer : ViewerApp} {rect : Rect} {c : Clamped}

def region (fbW : Nat) (c : Clamped) (position : Nat) : Prop :=
  ∃ x y, c.Contains x y ∧ position = y * fbW + x

/-- A drawing that ends, with a framebuffer of the same size, and leaves all pixels outside the
rectangle as they were. -/
def Paints (viewer : ViewerApp) (rect : Rect) (result : Except PaintFault ViewerApp) : Prop :=
  ∃ fb, result = .ok { viewer with fb := fb } ∧ fb.length = viewer.fbW * viewer.fbH ∧
    ∀ x y, x < viewer.fbW → y < viewer.fbH →
      ¬ (clampRect rect viewer.fbW viewer.fbH).Contains x y →
      ({ viewer with fb := fb } : ViewerApp).pixel x y = viewer.pixel x y

theorem Paints.nothing (sound : viewer.Sound) : viewer.Paints rect (.ok viewer) :=
  ⟨viewer.fb, rfl, sound.area, fun _x _y _column _row _outside => rfl⟩

theorem Sound.clamp_within (sound : viewer.Sound) (rect : Rect) :
    (clampRect rect viewer.fbW viewer.fbH).left ≤ viewer.fbW ∧
      (clampRect rect viewer.fbW viewer.fbH).right ≤ viewer.fbW ∧
      (clampRect rect viewer.fbW viewer.fbH).bottom ≤ viewer.fbH := by
  rw [sound.clamp]
  dsimp only
  omega

theorem Paints.of_kept (sound : viewer.Sound) {result : Except PaintFault ViewerApp}
    {fb : List Nat} (clamped : clampRect rect viewer.fbW viewer.fbH = c)
    (ran : result = .ok { viewer with fb := fb }) (kept : Kept (region viewer.fbW c) viewer.fb fb) :
    viewer.Paints rect result := by
  refine ⟨fb, ran, kept.1.trans sound.area, ?_⟩
  intro x y column _row outside
  have within := sound.clamp_within rect
  rw [clamped] at outside within
  apply kept.2
  rintro ⟨x', y', inside, same⟩
  rcases id inside with ⟨_left, right, _top, _bottom⟩
  rcases position_inj column (by omega) same with ⟨rfl, rfl⟩
  exact outside inside

/-! ### Filling -/

theorem fillSlice_kept {region : Nat → Prop} {fb : List Nat} {start stop : Nat} (color : Nat)
    (ordered : start ≤ stop) (inside : stop ≤ fb.length)
    (drawn : ∀ position, start ≤ position → position < stop → region position) :
    ∃ after, fillSlice fb start stop color = .ok after ∧ Kept region fb after := by
  refine ⟨_, if_pos ⟨ordered, inside⟩, ?_, ?_⟩
  · simp only [List.length_append, List.length_take, List.length_replicate, List.length_drop]
    omega
  · intro position outside
    by_cases before : position < start
    · rw [List.getElem?_append_left (by rw [List.length_take]; omega),
        List.getElem?_take_of_lt before]
    · have behind : stop ≤ position := by
        by_contra within
        exact outside (drawn position (by omega) (by omega))
      rw [List.getElem?_append_right (by rw [List.length_take]; omega),
        List.getElem?_append_right (by rw [List.length_take, List.length_replicate]; omega),
        List.getElem?_drop]
      congr 1
      rw [List.length_take, List.length_replicate]
      omega

theorem fillRow_kept (sound : viewer.Sound) (color : Nat) {fb : List Nat} {y : Nat}
    (size : fb.length = viewer.fb.length) (columns : c.left ≤ c.right)
    (right : c.right ≤ viewer.fbW) (top : c.top ≤ y) (bottom : y < c.bottom)
    (row : y < viewer.fbH) :
    ∃ after, fillRow viewer.fbW c color fb y = .ok after ∧
      Kept (region viewer.fbW c) fb after := by
  rcases sound.position (columns.trans right) row with ⟨_inside, first⟩
  rcases sound.position right row with ⟨inside, last⟩
  rw [fillRow, Program.bind_ok (Program.checkU32_eq_ok.mpr ⟨first, rfl⟩),
    Program.bind_ok (Program.checkU32_eq_ok.mpr ⟨last, rfl⟩)]
  apply fillSlice_kept color
  · omega
  · omega
  · intro position from' until'
    exact ⟨position - y * viewer.fbW, y, ⟨by omega, by omega, top, bottom⟩, by omega⟩

/-- The sides of the rows are in order, if there are rows. -/
def FillSafe (c : Clamped) : Prop := c.top < c.bottom → c.left ≤ c.right

theorem fillRect_iff (sound : viewer.Sound) (rect : Rect) (color : Nat) :
    viewer.Paints rect (viewer.fillRect rect color) ↔
      FillSafe (clampRect rect viewer.fbW viewer.fbH) := by
  have within := sound.clamp_within rect
  unfold fillRect FillSafe
  dsimp only
  generalize clamped : clampRect rect viewer.fbW viewer.fbH = c at within ⊢
  constructor
  · rintro ⟨fb, ran, _size, _kept⟩ some
    rcases Program.bind_eq_ok.mp ran with ⟨filled, rows, _rest⟩
    have more : c.bottom - c.top = (c.bottom - c.top - 1) + 1 := by omega
    rw [more, List.range'_succ, List.foldlM_cons] at rows
    rcases Program.bind_eq_ok.mp rows with ⟨next, first, _others⟩
    rcases Program.bind_eq_ok.mp first with ⟨start, started, first⟩
    rcases Program.bind_eq_ok.mp first with ⟨stop, stopped, first⟩
    rcases Program.checkU32_eq_ok.mp started with ⟨_small, rfl⟩
    rcases Program.checkU32_eq_ok.mp stopped with ⟨_small, rfl⟩
    unfold fillSlice at first
    split at first
    · rename_i ordered
      omega
    · cases first
  · intro ordered
    have each : ∀ y ∈ List.range' c.top (c.bottom - c.top), ∀ fb : List Nat,
        fb.length = viewer.fb.length → ∃ next, fillRow viewer.fbW c color fb y = .ok next ∧
          Kept (region viewer.fbW c) fb next := by
      intro y member fb size
      rcases List.mem_range'_1.mp member with ⟨top, below⟩
      exact fillRow_kept sound color size (ordered (by omega)) within.2.1 top (by omega)
        (by omega)
    rcases InPlace.foldlM_kept each with ⟨fb, ran, kept⟩
    exact Paints.of_kept sound clamped (Program.bind_ok ran) kept

/-! ### Copying -/

/-- The sides are in order, and the offsets of the corner and its source are integers, if there
is something to copy. -/
def CopySafe (srcX srcY : Int) (rect : Rect) (c : Clamped) : Prop :=
  c.left ≤ c.right ∧ c.top ≤ c.bottom ∧
    (c.Contains c.left c.top →
      IsI32 (c.left - rect.left) ∧ IsI32 (sourceOf srcX rect.left c.left) ∧
        IsI32 (c.top - rect.top) ∧ IsI32 (sourceOf srcY rect.top c.top))

variable {srcX srcY : Int}

theorem copyPlan_safe {found : Option CopyPlan} (sound : viewer.Sound)
    (ran : viewer.copyPlan srcX srcY rect = .ok found) :
    CopySafe srcX srcY rect (clampRect rect viewer.fbW viewer.fbH) := by
  have within := sound.clamp_within rect
  have limits := And.intro sound.width sound.height
  unfold copyPlan at ran
  generalize clampRect rect viewer.fbW viewer.fbH = c at within ran ⊢
  dsimp only at ran
  split at ran
  · cases ran
  · refine ⟨by omega, by omega, ?_⟩
    rintro ⟨_left, columns, _top, rows⟩
    rw [if_neg (by omega), asI32_small (by omega), asI32_small (by omega)] at ran
    rcases Program.bind_eq_ok.mp ran with ⟨sxOff, offX, ran⟩
    rcases Program.bind_eq_ok.mp ran with ⟨syOff, offY, ran⟩
    rcases Program.bind_eq_ok.mp ran with ⟨sx0, sumX, ran⟩
    rcases Program.bind_eq_ok.mp ran with ⟨sy0, sumY, ran⟩
    rcases Program.checkI32_eq_ok.mp offX with ⟨lowX, highX, rfl⟩
    rcases Program.checkI32_eq_ok.mp offY with ⟨lowY, highY, rfl⟩
    rcases Program.checkI32_eq_ok.mp sumX with ⟨lowSumX, highSumX, rfl⟩
    rcases Program.checkI32_eq_ok.mp sumY with ⟨lowSumY, highSumY, rfl⟩
    exact ⟨⟨lowX, highX⟩, ⟨lowSumX, highSumX⟩, ⟨lowY, highY⟩, ⟨lowSumY, highSumY⟩⟩

/-- A copy of nothing: the target is empty, or its source, whose corner the sums of integers
give, is not all on the framebuffer. -/
def CopiesNothing (viewer : ViewerApp) (srcX srcY : Int) (rect : Rect) : Prop :=
  let c := clampRect rect viewer.fbW viewer.fbH
  let x := sourceOf srcX rect.left c.left
  let y := sourceOf srcY rect.top c.top
  c.left ≤ c.right ∧ c.top ≤ c.bottom ∧
    (c.left = c.right ∨ c.top = c.bottom ∨
      IsI32 (c.left - rect.left) ∧ IsI32 (c.top - rect.top) ∧ IsI32 x ∧ IsI32 y ∧
        (x < 0 ∨ y < 0 ∨ viewer.fbW < x + (c.right - c.left : Nat) ∨
          viewer.fbH < y + (c.bottom - c.top : Nat)))

theorem copyPlan_none_iff (sound : viewer.Sound) :
    viewer.copyPlan srcX srcY rect = .ok none ↔ viewer.CopiesNothing srcX srcY rect := by
  have within := sound.clamp_within rect
  have limits := And.intro sound.width sound.height
  unfold CopiesNothing
  dsimp only
  constructor
  · intro nothing
    have safe := copyPlan_safe sound nothing
    generalize clamped : clampRect rect viewer.fbW viewer.fbH = c at within safe ⊢
    rcases safe with ⟨columns, rows, sums⟩
    refine ⟨columns, rows, ?_⟩
    by_cases corner : c.Contains c.left c.top
    · rcases sums corner with ⟨offX, sumX, offY, sumY⟩
      refine Or.inr (Or.inr ⟨offX, offY, sumX, sumY, ?_⟩)
      rw [copyPlan_eq sound clamped corner within.2.1 within.2.2 offX sumX offY sumY] at nothing
      split at nothing
      · omega
      · unfold IsI32 at sumX sumY
        rw [asU32_small (by omega) (by omega), asU32_small (by omega) (by omega)] at nothing
        split at nothing
        · omega
        · cases nothing
    · unfold Clamped.Contains at corner
      omega
  · generalize clamped : clampRect rect viewer.fbW viewer.fbH = c at within ⊢
    rintro ⟨columns, rows, empty | empty | ⟨offX, offY, sumX, sumY, outside⟩⟩
    · exact copyPlan_empty clamped columns rows fun corner => absurd empty (Nat.ne_of_lt corner.2.1)
    · exact copyPlan_empty clamped columns rows fun corner =>
        absurd empty (Nat.ne_of_lt corner.2.2.2)
    · by_cases corner : c.Contains c.left c.top
      · rw [copyPlan_eq sound clamped corner within.2.1 within.2.2 offX sumX offY sumY]
        split
        · rfl
        · unfold IsI32 at sumX sumY
          rw [asU32_small (by omega) (by omega), asU32_small (by omega) (by omega),
            if_pos (by omega)]
      · exact copyPlan_empty clamped columns rows corner

theorem copyRect_iff (sound : viewer.Sound) (srcX srcY : Int) (rect : Rect) :
    viewer.Paints rect (viewer.copyRect srcX srcY rect) ↔
      CopySafe srcX srcY rect (clampRect rect viewer.fbW viewer.fbH) := by
  constructor
  · rintro ⟨fb, ran, _size, _kept⟩
    rcases Program.bind_eq_ok.mp ran with ⟨found, planned, _rest⟩
    exact copyPlan_safe sound planned
  · intro safe
    have within := sound.clamp_within rect
    generalize clamped : clampRect rect viewer.fbW viewer.fbH = c at safe within
    rcases safe with ⟨columns, rows, sums⟩
    by_cases corner : c.Contains c.left c.top
    · rcases sums corner with ⟨offX, sumX, offY, sumY⟩
      rcases copyPlan_corners sound clamped corner within.2.1 within.2.2 offX sumX offY sumY with
        ⟨nothing, _missing⟩ | ⟨plan, found, planned⟩
      · rw [copyRect_nothing nothing]
        exact Paints.nothing sound
      · rcases Planned.copied sound clamped found planned with ⟨fb, ran, size, _copied, kept⟩
        refine ⟨fb, ran, size.trans sound.area, ?_⟩
        rw [clamped]
        exact kept
    · rw [copyRect_nothing (copyPlan_empty clamped columns rows corner)]
      exact Paints.nothing sound

/-! ### Pictures -/

/-- There are three bytes for every pixel of the rectangle. -/
def Covers (rect : Rect) (data : List UInt8) (stride : Nat) : Prop :=
  ∀ column row : Nat, (column : Int) < rect.right - rect.left →
    (row : Int) < rect.bottom - rect.top → row * stride + column * 4 + 2 < data.length

/-- The extents are integers, and so are the offsets of the rows and columns that are drawn. -/
def BlitSafe (rect : Rect) (stride : Nat) (c : Clamped) : Prop :=
  IsI32 (rect.right - rect.left) ∧ IsI32 (rect.bottom - rect.top) ∧
    (∀ y, c.top ≤ y → y < c.bottom → (y - rect.top) * stride < 2 ^ 32) ∧
    ∀ x y, c.Contains x y → (x - rect.left) * 4 < 2 ^ 32

/-- One direction of a picture: positions of the framebuffer, all on the rectangle, whose first
side is `low`. -/
structure Along (low : Int) (size first count : Nat) : Prop where
  small : size < 2147483648
  inside : ∀ position : Nat, first ≤ position → position < first + count →
    position ≤ 16384 ∧ low ≤ position ∧ (position : Int) < low + size

variable {low : Int} {size first count : Nat}

theorem Along.next (along : Along low size first (count + 1)) :
    Along low size (first + 1) count where
  small := along.small
  inside := by
    intro position from' until'
    exact along.inside position (by omega) (by omega)

theorem Along.place (along : Along low size first (count + 1)) :
    checkI32 (ε := Empty) (asI32 first - low) = .ok (first - low) ∧
      asU32 (first - low) = (first - low).toNat ∧ ¬ (first - low).toNat ≥ size ∧
      ((first - low).toNat : Int) = first - low := by
  have small := along.small
  rcases along.inside first (Nat.le_refl first) (by omega) with ⟨limit, after, before⟩
  rw [asI32_small limit, asU32_small (by omega) (by omega)]
  refine ⟨Program.checkI32_eq_ok.mpr ⟨by omega, by omega, rfl⟩, rfl, ?_, ?_⟩
  · omega
  · omega

variable {data : List UInt8} {rl srcW srcOffset dstRow stride srcH x y : Nat} {fb : List Nat}

theorem blitColumns_succ (along : Along rect.left srcW x (count + 1)) :
    blitColumns rect data rl srcW srcOffset dstRow (count + 1) x fb = (do
      let srcByte ← checkU32 ((x - rect.left).toNat * 4)
      let b ← index data (srcOffset + srcByte)
      let g ← index data (srcOffset + srcByte + 1)
      let r ← index data (srcOffset + srcByte + 2)
      let fb ← assign fb (dstRow + (x - rl)) (bgraToSoftbuffer r.toNat g.toNat b.toNat)
      blitColumns rect data rl srcW srcOffset dstRow count (x + 1) fb) := by
  rcases along.place with ⟨column, place, more, _exact⟩
  rw [blitColumns, Program.bind_ok column]
  dsimp only
  rw [place, if_neg more]

theorem blitRows_succ (sound : viewer.Sound) (along : Along rect.top srcH y (count + 1))
    (column : c.left ≤ viewer.fbW) (row : y < viewer.fbH) :
    blitRows rect data stride viewer.fbW srcW srcH c (count + 1) y fb = (do
      let srcOffset ← checkU32 ((y - rect.top).toNat * stride)
      let fb ← blitColumns rect data c.left srcW srcOffset (y * viewer.fbW + c.left)
        (c.right - c.left) c.left fb
      blitRows rect data stride viewer.fbW srcW srcH c count (y + 1) fb) := by
  rcases along.place with ⟨found, place, more, _exact⟩
  have start : checkU32 (ε := Empty) (y * viewer.fbW + c.left) = .ok (y * viewer.fbW + c.left) :=
    Program.checkU32_eq_ok.mpr ⟨(sound.position column row).2, rfl⟩
  rw [blitRows, Program.bind_ok found]
  dsimp only
  rw [place, if_neg more, start]
  rfl

theorem blitColumns_kept {region : Nat → Prop} (along : Along rect.left srcW x count)
    (offsets : ∀ column, x ≤ column → column < x + count → (column - rect.left) * 4 < 2 ^ 32)
    (covered : ∀ column, x ≤ column → column < x + count →
      srcOffset + (column - rect.left).toNat * 4 + 2 < data.length)
    (inside : ∀ column, x ≤ column → column < x + count →
      dstRow + (column - rl) < fb.length ∧ region (dstRow + (column - rl))) :
    ∃ after, blitColumns rect data rl srcW srcOffset dstRow count x fb = .ok after ∧
      Kept region fb after := by
  induction count generalizing x fb with
  | zero => exact ⟨fb, rfl, Kept.refl region fb⟩
  | succ count ih =>
      have here : x < x + (count + 1) := by omega
      have offset := offsets x (Nat.le_refl x) here
      have bytes := covered x (Nat.le_refl x) here
      rcases inside x (Nat.le_refl x) here with ⟨target, drawn⟩
      have byte : (x - rect.left).toNat * 4 < 2 ^ 32 := by omega
      have written := Kept.set fb (bgraToSoftbuffer
        (data[srcOffset + (x - rect.left).toNat * 4 + 2]).toNat
        (data[srcOffset + (x - rect.left).toNat * 4 + 1]).toNat
        (data[srcOffset + (x - rect.left).toNat * 4]).toNat) drawn
      have later : ∀ {column : Nat}, x + 1 ≤ column → column < x + 1 + count →
          x ≤ column ∧ column < x + (count + 1) := by
        intro column from' until'
        omega
      rw [blitColumns_succ along, Program.bind_ok (Program.checkU32_eq_ok.mpr ⟨byte, rfl⟩),
        Program.bind_ok (Program.index_of_lt (by omega)),
        Program.bind_ok (Program.index_of_lt (by omega)),
        Program.bind_ok (Program.index_of_lt bytes),
        Program.bind_ok (Program.assign_of_lt _ target)]
      rcases ih along.next
          (fun column from' until' => offsets column (later from' until').1 (later from' until').2)
          (fun column from' until' => covered column (later from' until').1 (later from' until').2)
          (by
            intro column from' until'
            rw [written.1]
            exact inside column (later from' until').1 (later from' until').2) with
        ⟨after, ran, kept⟩
      exact ⟨after, ran, written.trans kept⟩

theorem blitColumns_offsets {after : List Nat} (along : Along rect.left srcW x count)
    (ran : blitColumns rect data rl srcW srcOffset dstRow count x fb = .ok after) :
    ∀ column, x ≤ column → column < x + count → (column - rect.left) * 4 < 2 ^ 32 := by
  induction count generalizing x fb with
  | zero =>
      intro column from' until'
      omega
  | succ count ih =>
      rw [blitColumns_succ along] at ran
      rcases Program.bind_eq_ok.mp ran with ⟨srcByte, offset, ran⟩
      rcases Program.bind_eq_ok.mp ran with ⟨b, _blue, ran⟩
      rcases Program.bind_eq_ok.mp ran with ⟨g, _green, ran⟩
      rcases Program.bind_eq_ok.mp ran with ⟨r, _red, ran⟩
      rcases Program.bind_eq_ok.mp ran with ⟨next, _written, ran⟩
      have small := (Program.checkU32_eq_ok.mp offset).1
      intro column from' until'
      by_cases here : column = x
      · subst here
        have place := along.place.2.2.2
        omega
      · exact ih along.next ran column (by omega) (by omega)

theorem blitRows_kept (sound : viewer.Sound) (columns : Along rect.left srcW c.left (c.right - c.left))
    (along : Along rect.top srcH y count) (right : c.right ≤ viewer.fbW)
    (left : c.left ≤ c.right) (top : c.top ≤ y) (bottom : y + count = c.bottom)
    (above : c.bottom ≤ viewer.fbH) (size : fb.length = viewer.fb.length)
    (offsets : ∀ row, y ≤ row → row < c.bottom → (row - rect.top) * stride < 2 ^ 32)
    (places : ∀ column row, c.Contains column row → (column - rect.left) * 4 < 2 ^ 32)
    (covered : ∀ column row, c.Contains column row →
      (row - rect.top).toNat * stride + (column - rect.left).toNat * 4 + 2 < data.length) :
    ∃ after, blitRows rect data stride viewer.fbW srcW srcH c count y fb = .ok after ∧
      Kept (region viewer.fbW c) fb after := by
  induction count generalizing y fb with
  | zero => exact ⟨fb, rfl, Kept.refl _ fb⟩
  | succ count ih =>
      have offset := offsets y (Nat.le_refl y) (by omega)
      have product : (((y - rect.top).toNat * stride : Nat) : Int) = (y - rect.top) * stride := by
        rw [Nat.cast_mul, along.place.2.2.2]
      have inside {column : Nat} (from' : c.left ≤ column)
          (until' : column < c.left + (c.right - c.left)) : c.Contains column y :=
        ⟨from', by omega, top, by omega⟩
      have drawn : ∀ column, c.left ≤ column → column < c.left + (c.right - c.left) →
          y * viewer.fbW + c.left + (column - c.left) < fb.length ∧
            region viewer.fbW c (y * viewer.fbW + c.left + (column - c.left)) := by
        intro column from' until'
        have position := (sound.position (by omega : column + 1 ≤ viewer.fbW)
          (by omega : y < viewer.fbH)).1
        constructor
        · omega
        · exact ⟨column, y, inside from' until', by omega⟩
      rw [blitRows_succ sound along (by omega) (by omega),
        Program.bind_ok (Program.checkU32_eq_ok.mpr ⟨by omega, rfl⟩)]
      rcases blitColumns_kept columns
          (fun column from' until' => places column y (inside from' until'))
          (fun column from' until' => covered column y (inside from' until')) drawn with
        ⟨next, ranRow, keptRow⟩
      rw [Program.bind_ok ranRow]
      rcases ih along.next (by omega) (by omega) (keptRow.1.trans size)
          (fun row from' until' => offsets row (by omega) until') with ⟨after, ran, kept⟩
      exact ⟨after, ran, keptRow.trans kept⟩

theorem blitRows_offsets {after : List Nat} (sound : viewer.Sound)
    (columns : Along rect.left srcW c.left (c.right - c.left))
    (along : Along rect.top srcH y count) (left : c.left ≤ viewer.fbW)
    (above : y + count ≤ viewer.fbH)
    (ran : blitRows rect data stride viewer.fbW srcW srcH c count y fb = .ok after) :
    ∀ row, y ≤ row → row < y + count → (row - rect.top) * stride < 2 ^ 32 ∧
      ∀ column, c.left ≤ column → column < c.right → (column - rect.left) * 4 < 2 ^ 32 := by
  induction count generalizing y fb with
  | zero =>
      intro row from' until'
      omega
  | succ count ih =>
      rw [blitRows_succ sound along left (by omega)] at ran
      rcases Program.bind_eq_ok.mp ran with ⟨srcOffset, offset, ran⟩
      rcases Program.bind_eq_ok.mp ran with ⟨next, drawn, ran⟩
      intro row from' until'
      by_cases here : row = y
      · subst here
        constructor
        · have small := (Program.checkU32_eq_ok.mp offset).1
          have product : (((row - rect.top).toNat * stride : Nat) : Int) =
              (row - rect.top) * stride := by
            rw [Nat.cast_mul, along.place.2.2.2]
          omega
        · intro column first last
          exact blitColumns_offsets columns drawn column first (by omega)
      · exact ih along.next (by omega) ran row (by omega) (by omega)

theorem Sound.along (sound : viewer.Sound) {rect : Rect}
    (clamped : clampRect rect viewer.fbW viewer.fbH = c) (width : IsI32 (rect.right - rect.left))
    (height : IsI32 (rect.bottom - rect.top)) :
    Along rect.left (rect.right - rect.left).toNat c.left (c.right - c.left) ∧
      Along rect.top (rect.bottom - rect.top).toNat c.top (c.bottom - c.top) := by
  have limits := And.intro sound.width sound.height
  unfold IsI32 at width height
  rw [← clamped, sound.clamp]
  refine ⟨⟨by omega, ?_⟩, ⟨by omega, ?_⟩⟩
  · dsimp only
    intro position from' until'
    omega
  · dsimp only
    intro position from' until'
    omega

theorem blitRaw_iff (sound : viewer.Sound) (rect : Rect) (data : List UInt8) (stride : Nat)
    (wide : rect.left < rect.right) (high : rect.top < rect.bottom)
    (covers : Covers rect data stride) :
    viewer.Paints rect (viewer.blitRaw rect data stride) ↔
      BlitSafe rect stride (clampRect rect viewer.fbW viewer.fbH) := by
  have within := sound.clamp_within rect
  have sides := sound.clamp rect
  unfold blitRaw
  dsimp only
  generalize clamped : clampRect rect viewer.fbW viewer.fbH = c at within sides ⊢
  -- what both directions know once the extents are integers
  have drawn (width : IsI32 (rect.right - rect.left)) (height : IsI32 (rect.bottom - rect.top)) :
      asU32 (rect.right - rect.left) = (rect.right - rect.left).toNat ∧
        asU32 (rect.bottom - rect.top) = (rect.bottom - rect.top).toNat ∧
        ¬ ((rect.right - rect.left).toNat = 0 ∨ (rect.bottom - rect.top).toNat = 0) := by
    unfold IsI32 at width height
    refine ⟨asU32_small (by omega) (by omega), asU32_small (by omega) (by omega), ?_⟩
    omega
  constructor
  · rintro ⟨fb, ran, _size, _kept⟩
    rcases Program.bind_eq_ok.mp ran with ⟨width, wideEnough, ran⟩
    rcases Program.bind_eq_ok.mp ran with ⟨height, highEnough, ran⟩
    rcases Program.checkI32_eq_ok.mp wideEnough with ⟨lowWidth, highWidth, rfl⟩
    rcases Program.checkI32_eq_ok.mp highEnough with ⟨lowHeight, highHeight, rfl⟩
    rcases drawn ⟨lowWidth, highWidth⟩ ⟨lowHeight, highHeight⟩ with ⟨srcW, srcH, some⟩
    rw [srcW, srcH, if_neg some] at ran
    rcases Program.bind_eq_ok.mp ran with ⟨rows, blitted, _rest⟩
    rcases sound.along clamped ⟨lowWidth, highWidth⟩ ⟨lowHeight, highHeight⟩ with
      ⟨columns, along⟩
    by_cases ordered : c.top ≤ c.bottom
    · have offsets := blitRows_offsets sound columns along within.1 (by omega) blitted
      refine ⟨⟨lowWidth, highWidth⟩, ⟨lowHeight, highHeight⟩, ?_, ?_⟩
      · intro y top bottom
        exact (offsets y top (by omega)).1
      · intro x y inside
        rcases inside with ⟨left, right, top, bottom⟩
        exact (offsets y top (by omega)).2 x left right
    · rw [sides] at ordered
      dsimp only at ordered
      omega
  · rintro ⟨width, height, offsets, places⟩
    rcases drawn width height with ⟨srcW, srcH, some⟩
    rcases sound.along clamped width height with ⟨columns, along⟩
    have left : c.left ≤ c.right := by
      rw [sides]
      dsimp only
      omega
    have top : c.top ≤ c.bottom := by
      rw [sides]
      dsimp only
      omega
    have covered : ∀ column row, c.Contains column row →
        (row - rect.top).toNat * stride + (column - rect.left).toNat * 4 + 2 < data.length := by
      intro column row inside
      rcases inside with ⟨first, last, above, below⟩
      have columnInside := columns.inside column first (by omega)
      have rowInside := along.inside row above (by omega)
      exact covers _ _ (by omega) (by omega)
    rcases blitRows_kept sound columns along within.2.1 left (Nat.le_refl _) (by omega) within.2.2
        rfl offsets places covered with ⟨fb, ran, kept⟩
    apply Paints.of_kept sound clamped _ kept
    rw [Rect.width, Rect.height, Program.bind_ok (Program.checkI32_eq_ok.mpr ⟨width.1, width.2, rfl⟩),
      Program.bind_ok (Program.checkI32_eq_ok.mpr ⟨height.1, height.2, rfl⟩), srcW, srcH,
      if_neg some, Program.bind_ok ran]

/-- When a drawing of any rectangle ends and stays within what is left of the rectangle. -/
theorem painting_total_iff (sound : viewer.Sound) (rect : Rect) :
    (∀ color, viewer.Paints rect (viewer.fillRect rect color) ↔
        FillSafe (clampRect rect viewer.fbW viewer.fbH)) ∧
      (∀ srcX srcY, viewer.Paints rect (viewer.copyRect srcX srcY rect) ↔
        CopySafe srcX srcY rect (clampRect rect viewer.fbW viewer.fbH)) ∧
      ∀ data stride, rect.left < rect.right → rect.top < rect.bottom →
        Covers rect data stride →
          (viewer.Paints rect (viewer.blitRaw rect data stride) ↔
            BlitSafe rect stride (clampRect rect viewer.fbW viewer.fbH)) := by
  refine ⟨fillRect_iff sound rect, ?_, ?_⟩
  · intro srcX srcY
    exact copyRect_iff sound srcX srcY rect
  · intro data stride wide high covers
    exact blitRaw_iff sound rect data stride wide high covers

/-- A rectangle that begins outside the framebuffer. -/
theorem painting_total_iff_cut :
    ({ fb := [0, 0, 0, 0], fbW := 2, fbH := 2, shouldExit := false } : ViewerApp).Paints
        { top := -1, left := -1, bottom := 1, right := 1 }
        (ViewerApp.fillRect { fb := [0, 0, 0, 0], fbW := 2, fbH := 2, shouldExit := false }
          { top := -1, left := -1, bottom := 1, right := 1 } 7) ∧
      ({ fb := [0, 0, 0, 0], fbW := 2, fbH := 2, shouldExit := false } : ViewerApp).Paints
        { top := -1, left := -1, bottom := 1, right := 1 }
        (ViewerApp.blitRaw { fb := [0, 0, 0, 0], fbW := 2, fbH := 2, shouldExit := false }
          { top := -1, left := -1, bottom := 1, right := 1 } (List.replicate 16 255) 8) := by
  have sound : ({ fb := [0, 0, 0, 0], fbW := 2, fbH := 2, shouldExit := false } :
      ViewerApp).Sound := ⟨rfl, by decide, by decide⟩
  have clamped : clampRect { top := -1, left := -1, bottom := 1, right := 1 } 2 2 =
      { left := 0, top := 0, right := 1, bottom := 1 } := by decide
  rcases painting_total_iff sound { top := -1, left := -1, bottom := 1, right := 1 } with
    ⟨fills, _copies, blits⟩
  dsimp only at fills blits
  rw [clamped] at fills blits
  constructor
  · apply (fills 7).mpr
    intro _rows
    exact Nat.zero_le 1
  · have covers : Covers { top := -1, left := -1, bottom := 1, right := 1 }
        (List.replicate 16 255) 8 := by
      intro column row inWidth inHeight
      dsimp only at inWidth inHeight
      rw [List.length_replicate]
      omega
    apply (blits _ 8 (by decide) (by decide) covers).mpr
    refine ⟨by decide, by decide, ?_, ?_⟩
    · intro y _top bottom
      dsimp only at bottom ⊢
      omega
    · intro x y inside
      rcases inside with ⟨_left, right, _top, _bottom⟩
      dsimp only at right ⊢
      omega

/-- Sides in the wrong order, on a framebuffer of one pixel. -/
theorem inverted_rect_panics :
    ((new.resizeFb 1 1).fillRect { top := 0, left := 1, bottom := 1, right := 0 } 255 =
        .error (.panic .index)) ∧
      (new.resizeFb 1 1).copyRect 0 0 { top := 0, left := 1, bottom := 1, right := 0 } =
        .error (.panic .overflow) ∧
      (new.resizeFb 1 1).copyRect 0 0
          { top := 0, left := -2147483648, bottom := 1, right := 1 } =
        .error (.panic .overflow) := by
  refine ⟨?_, ?_, ?_⟩
  · decide +kernel
  · decide +kernel
  · decide +kernel

end ViewerApp

end Capsaicin.Viewer
