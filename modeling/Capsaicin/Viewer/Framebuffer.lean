/-
The framebuffer of the viewer, and the three ways of painting on it. The arithmetic is that
of `i32` and `u32` with overflow checks.
-/

import Capsaicin.Proto.Types

namespace Capsaicin.Viewer

open Program (Returns assign checkI32 checkU32 index)
open Proto (Rect)

abbrev PaintFault := Program.Fault Empty

def asI32 (value : Nat) : Int := Proto.Reader.signed 32 value
def asU32 (value : Int) : Nat := Proto.unsigned 32 value

/-- The part of a rectangle that is on the framebuffer. -/
structure Clamped where
  left : Nat
  top : Nat
  right : Nat
  bottom : Nat
  deriving DecidableEq, Repr

def clampRect (rect : Rect) (fbW fbH : Nat) : Clamped where
  left := asU32 (min (max rect.left 0) (asI32 fbW))
  top := asU32 (min (max rect.top 0) (asI32 fbH))
  right := asU32 (min (max rect.right 0) (asI32 fbW))
  bottom := asU32 (min (max rect.bottom 0) (asI32 fbH))

def bgraToSoftbuffer (r g b : Nat) : Nat := ((r <<< 16) ||| (g <<< 8)) ||| b

def bgra32ToSoftbuffer (spiceColor : Nat) : Nat :=
  let b := spiceColor &&& 0xFF
  let g := (spiceColor >>> 8) &&& 0xFF
  let r := (spiceColor >>> 16) &&& 0xFF
  bgraToSoftbuffer r g b

structure ViewerApp where
  fb : List Nat
  fbW : Nat
  fbH : Nat
  shouldExit : Bool
  deriving DecidableEq, Repr

namespace ViewerApp

def new : ViewerApp := { fb := [], fbW := 0, fbH := 0, shouldExit := false }

/-- The product of two `u32` is taken as `u64`. -/
def resizeFb (viewer : ViewerApp) (w h : Nat) : ViewerApp :=
  if w = viewer.fbW ∧ h = viewer.fbH then viewer
  else if w = 0 ∨ h = 0 ∨ w > 16384 ∨ h > 16384 ∨ w * h > 64 * 1024 * 1024 then viewer
  else { viewer with fb := List.replicate (w * h) 0, fbW := w, fbH := h }

def fillSlice (fb : List Nat) (start stop color : Nat) : Except PaintFault (List Nat) :=
  if start ≤ stop ∧ stop ≤ fb.length then
    .ok (fb.take start ++ (List.replicate (stop - start) color ++ fb.drop stop))
  else .error (.panic .index)

def fillRow (fbW : Nat) (c : Clamped) (color : Nat) (fb : List Nat) (y : Nat) :
    Except PaintFault (List Nat) := do
  let rowStart ← checkU32 (y * fbW + c.left)
  let rowEnd ← checkU32 (y * fbW + c.right)
  fillSlice fb rowStart rowEnd color

def fillRect (viewer : ViewerApp) (rect : Rect) (color : Nat) : Except PaintFault ViewerApp := do
  let c := clampRect rect viewer.fbW viewer.fbH
  let fb ←
    (List.range' c.top (c.bottom - c.top)).foldlM (fillRow viewer.fbW c color) viewer.fb
  .ok { viewer with fb := fb }

structure CopyPlan where
  sx0 : Nat
  sy0 : Nat
  dstW : Nat
  dstH : Nat
  deriving DecidableEq, Repr

/-- The first part of `copyRect`, up to its last `return`. -/
def copyPlan (viewer : ViewerApp) (srcX srcY : Int) (destRect : Rect) :
    Except PaintFault (Option CopyPlan) :=
  let c := clampRect destRect viewer.fbW viewer.fbH
  if c.right < c.left ∨ c.bottom < c.top then .error (.panic .overflow)
  else
    let dstW := c.right - c.left
    let dstH := c.bottom - c.top
    if dstW = 0 ∨ dstH = 0 then .ok none
    else do
      let sxOff ← checkI32 (asI32 c.left - destRect.left)
      let syOff ← checkI32 (asI32 c.top - destRect.top)
      let sx0 ← checkI32 (srcX + sxOff)
      let sy0 ← checkI32 (srcY + syOff)
      if sx0 < 0 ∨ sy0 < 0 then .ok none
      else if asU32 sx0 + dstW > viewer.fbW ∨ asU32 sy0 + dstH > viewer.fbH then .ok none
      else .ok (some { sx0 := asU32 sx0, sy0 := asU32 sy0, dstW := dstW, dstH := dstH })

def copyPixel (srcRow dstRow dl sx0 : Nat) (fb : List Nat) (rx : Nat) :
    Except PaintFault (List Nat) := do
  let pixel ← index fb (srcRow + (sx0 + rx))
  assign fb (dstRow + (dl + rx)) pixel

def copyRow (fbW : Nat) (c : Clamped) (plan : CopyPlan) (fb : List Nat) (ry : Nat) :
    Except PaintFault (List Nat) := do
  let srcRow ← checkU32 ((plan.sy0 + ry) * fbW)
  let dstRow ← checkU32 ((c.top + ry) * fbW)
  let columns := List.range plan.dstW
  (if c.left > plan.sx0 then columns.reverse else columns).foldlM
    (copyPixel srcRow dstRow c.left plan.sx0) fb

/-- The order of the rows and of the columns is such that no pixel is overwritten before it
has been read. -/
def copyRect (viewer : ViewerApp) (srcX srcY : Int) (destRect : Rect) :
    Except PaintFault ViewerApp := do
  let c := clampRect destRect viewer.fbW viewer.fbH
  match ← copyPlan viewer srcX srcY destRect with
  | none => .ok viewer
  | some plan =>
      let rows := List.range plan.dstH
      let fb ←
        (if c.top > plan.sy0 then rows.reverse else rows).foldlM (copyRow viewer.fbW c plan)
          viewer.fb
      .ok { viewer with fb := fb }

/-- The columns of a row. The loop ends where the rectangle does. -/
def blitColumns (rect : Rect) (data : List UInt8) (rl srcW srcOffset dstRow : Nat) :
    Nat → Nat → List Nat → Except PaintFault (List Nat)
  | 0, _, fb => .ok fb
  | count + 1, x, fb => do
      let column ← checkI32 (asI32 x - rect.left)
      let srcCol := asU32 column
      if srcCol ≥ srcW then .ok fb
      else do
        let srcByte ← checkU32 (srcCol * 4)
        let srcIdx := srcOffset + srcByte
        let b ← index data srcIdx
        let g ← index data (srcIdx + 1)
        let r ← index data (srcIdx + 2)
        let fb ← assign fb (dstRow + (x - rl)) (bgraToSoftbuffer r.toNat g.toNat b.toNat)
        blitColumns rect data rl srcW srcOffset dstRow count (x + 1) fb

def blitRows (rect : Rect) (data : List UInt8) (stride fbW srcW srcH : Nat) (c : Clamped) :
    Nat → Nat → List Nat → Except PaintFault (List Nat)
  | 0, _, fb => .ok fb
  | count + 1, y, fb => do
      let row ← checkI32 (asI32 y - rect.top)
      let srcRow := asU32 row
      if srcRow ≥ srcH then .ok fb
      else do
        let srcOffset ← checkU32 (srcRow * stride)
        let dstRow ← checkU32 (y * fbW + c.left)
        let fb ← blitColumns rect data c.left srcW srcOffset dstRow (c.right - c.left) c.left fb
        blitRows rect data stride fbW srcW srcH c count (y + 1) fb

def blitRaw (viewer : ViewerApp) (rect : Rect) (data : List UInt8) (stride : Nat) :
    Except PaintFault ViewerApp := do
  let c := clampRect rect viewer.fbW viewer.fbH
  let width ← rect.width
  let height ← rect.height
  let srcW := asU32 width
  let srcH := asU32 height
  if srcW = 0 ∨ srcH = 0 then .ok viewer
  else do
    let fb ←
      blitRows rect data stride viewer.fbW srcW srcH c (c.bottom - c.top) c.top viewer.fb
    .ok { viewer with fb := fb }

/-! ### The size of the framebuffer -/

structure Sound (viewer : ViewerApp) : Prop where
  area : viewer.fb.length = viewer.fbW * viewer.fbH
  width : viewer.fbW ≤ 16384
  height : viewer.fbH ≤ 16384

theorem sound_new : new.Sound where
  area := rfl
  width := Nat.zero_le _
  height := Nat.zero_le _

theorem Sound.resizeFb {viewer : ViewerApp} (sound : viewer.Sound) (w h : Nat) :
    (viewer.resizeFb w h).Sound := by
  unfold ViewerApp.resizeFb
  split
  · exact sound
  · split
    · exact sound
    · rename_i accepted
      constructor
      · exact List.length_replicate
      · dsimp only
        omega
      · dsimp only
        omega

theorem Sound.repaint {viewer : ViewerApp} (sound : viewer.Sound) {fb : List Nat}
    (size : fb.length = viewer.fb.length) : ({ viewer with fb := fb } : ViewerApp).Sound where
  area := size.trans sound.area
  width := sound.width
  height := sound.height

def Spans (size : Nat) (fb : List Nat) : Prop := fb.length = size

variable {viewer : ViewerApp} {fb : List Nat} {size : Nat} {rect : Rect}

theorem fillSlice_returns (start stop color : Nat) (sized : Spans size fb) :
    Returns (fillSlice fb start stop color) (Spans size) := by
  unfold Spans at sized ⊢
  refine .ite (fun inside => .ok ?_) fun _outside => .error _
  simp only [List.length_append, List.length_take, List.length_replicate, List.length_drop]
  omega

theorem fillRect_returns (sound : viewer.Sound) (rect : Rect) (color : Nat) :
    Returns (viewer.fillRect rect color) Sound := by
  have rows (fb : List Nat) (y : Nat) (sized : Spans viewer.fb.length fb) :
      Returns (fillRow viewer.fbW (clampRect rect viewer.fbW viewer.fbH) color fb y)
        (Spans viewer.fb.length) :=
    .skip fun rowStart => .skip fun rowEnd => fillSlice_returns rowStart rowEnd color sized
  exact (Returns.foldlM rows rfl).bind fun fb sized => .ok (sound.repaint sized)

theorem copyRow_returns (fbW : Nat) (c : Clamped) (plan : CopyPlan) (ry : Nat)
    (sized : Spans size fb) : Returns (copyRow fbW c plan fb ry) (Spans size) := by
  refine .skip fun srcRow => .skip fun dstRow => ?_
  have pixels (fb : List Nat) (rx : Nat) (sized : Spans size fb) :
      Returns (copyPixel srcRow dstRow c.left plan.sx0 fb rx) (Spans size) :=
    .skip fun pixel => Program.assign_returns _ pixel sized
  exact Returns.foldlM pixels sized

theorem copyRect_returns (sound : viewer.Sound) (srcX srcY : Int) (destRect : Rect) :
    Returns (viewer.copyRect srcX srcY destRect) Sound := by
  refine .skip fun plan => ?_
  cases plan with
  | none => exact .ok sound
  | some plan =>
      have rows (fb : List Nat) (ry : Nat) (sized : Spans viewer.fb.length fb) :=
        copyRow_returns viewer.fbW (clampRect destRect viewer.fbW viewer.fbH) plan ry sized
      exact (Returns.foldlM rows rfl).bind fun fb sized => .ok (sound.repaint sized)

theorem blitColumns_returns (data : List UInt8) (rl srcW srcOffset dstRow : Nat) {count x : Nat}
    (sized : Spans size fb) :
    Returns (blitColumns rect data rl srcW srcOffset dstRow count x fb) (Spans size) := by
  induction count generalizing x fb with
  | zero => exact .ok sized
  | succ count ih =>
      refine .skip fun column => .ite (fun _ended => .ok sized) fun _more => ?_
      refine .skip fun srcByte => .skip fun b => .skip fun g => .skip fun r => ?_
      exact (Program.assign_returns _ _ sized).bind fun fb sized => ih sized

theorem blitRows_returns (data : List UInt8) (stride fbW srcW srcH : Nat) (c : Clamped)
    {count y : Nat} (sized : Spans size fb) :
    Returns (blitRows rect data stride fbW srcW srcH c count y fb) (Spans size) := by
  induction count generalizing y fb with
  | zero => exact .ok sized
  | succ count ih =>
      refine .skip fun row => .ite (fun _ended => .ok sized) fun _more => ?_
      refine .skip fun srcOffset => .skip fun dstRow => ?_
      exact (blitColumns_returns data c.left srcW srcOffset dstRow sized).bind
        fun fb sized => ih sized

theorem blitRaw_returns (sound : viewer.Sound) (rect : Rect) (data : List UInt8) (stride : Nat) :
    Returns (viewer.blitRaw rect data stride) Sound := by
  refine .skip fun width => .skip fun height => .ite (fun _empty => .ok sound) fun _some => ?_
  exact (blitRows_returns data stride viewer.fbW _ _ _ rfl).bind
    fun fb sized => .ok (sound.repaint sized)

/-! ### Painting nothing -/

theorem asI32_small {value : Nat} (small : value ≤ 16384) : asI32 value = value := by
  have low : value < 2 ^ (32 - 1) := Nat.lt_of_le_of_lt small (by decide)
  exact if_pos low

theorem asU32_small {value : Int} (positive : 0 ≤ value) (small : value < 4294967296) :
    asU32 value = value.toNat := by
  have same : value % 2 ^ 32 = value := Int.emod_eq_of_lt positive small
  unfold asU32 Proto.unsigned
  rw [same]

theorem clamp_side {bound : Nat} (small : bound ≤ 16384) (side : Int) :
    asU32 (min (max side 0) (asI32 bound)) = (min (max side 0) bound).toNat := by
  rw [asI32_small small, asU32_small]
  · omega
  · omega

theorem Sound.clamp (sound : viewer.Sound) (rect : Rect) :
    clampRect rect viewer.fbW viewer.fbH =
      { left := (min (max rect.left 0) viewer.fbW).toNat
        top := (min (max rect.top 0) viewer.fbH).toNat
        right := (min (max rect.right 0) viewer.fbW).toNat
        bottom := (min (max rect.bottom 0) viewer.fbH).toNat } := by
  rw [clampRect, clamp_side sound.width, clamp_side sound.height, clamp_side sound.width,
    clamp_side sound.height]

theorem Sound.position (sound : viewer.Sound) {x y : Nat} (column : x ≤ viewer.fbW)
    (row : y < viewer.fbH) :
    y * viewer.fbW + x ≤ viewer.fb.length ∧ y * viewer.fbW + x < 2 ^ 32 := by
  have rows : (y + 1) * viewer.fbW ≤ viewer.fbH * viewer.fbW := Nat.mul_le_mul_right _ row
  have area : viewer.fbH * viewer.fbW ≤ 16384 * 16384 := Nat.mul_le_mul sound.height sound.width
  rw [Nat.succ_mul] at rows
  rw [sound.area, Nat.mul_comm viewer.fbW]
  omega

theorem fillSlice_empty {position : Nat} (color : Nat) (inside : position ≤ fb.length) :
    fillSlice fb position position color = .ok fb := by
  rw [fillSlice, if_pos ⟨Nat.le_refl _, inside⟩, Nat.sub_self, List.replicate_zero,
    List.nil_append, List.take_append_drop]

theorem fillRect_misses (sound : viewer.Sound) (color : Nat)
    (misses : (clampRect rect viewer.fbW viewer.fbH).bottom ≤
        (clampRect rect viewer.fbW viewer.fbH).top ∨
      (clampRect rect viewer.fbW viewer.fbH).right =
        (clampRect rect viewer.fbW viewer.fbH).left) :
    viewer.fillRect rect color = .ok viewer := by
  have sides := sound.clamp rect
  generalize clamped : clampRect rect viewer.fbW viewer.fbH = c at misses sides
  have rows : ∀ y ∈ List.range' c.top (c.bottom - c.top),
      fillRow viewer.fbW c color viewer.fb y = .ok viewer.fb := by
    intro y member
    rcases List.mem_range'_1.mp member with ⟨from', until'⟩
    have same : c.right = c.left := by omega
    have column : c.left ≤ viewer.fbW := by
      rw [sides]
      dsimp only
      omega
    have row : y < viewer.fbH := by
      rw [sides] at until'
      dsimp only at until'
      omega
    rcases sound.position column row with ⟨inside, small⟩
    have start : checkU32 (ε := Empty) (y * viewer.fbW + c.left) = .ok (y * viewer.fbW + c.left) :=
      Program.checkU32_eq_ok.mpr ⟨small, rfl⟩
    rw [fillRow, same, Program.bind_ok start, Program.bind_ok start, fillSlice_empty color inside]
  rw [fillRect, clamped, Program.bind_ok (Program.foldlM_still rows)]

theorem blitRows_empty (sound : viewer.Sound) (data : List UInt8) {stride srcW srcH : Nat}
    {c : Clamped} (high : rect.bottom - rect.top < 2147483648) (none : c.right ≤ c.left)
    (column : c.left ≤ viewer.fbW) {count y : Nat} (from' : rect.top ≤ y)
    (until' : y + count ≤ viewer.fbH) (below : count ≠ 0 → (y + count : Int) ≤ rect.bottom)
    (offsets : count ≠ 0 → (y + count - 1 - rect.top) * stride < 2 ^ 32) :
    blitRows rect data stride viewer.fbW srcW srcH c count y viewer.fb = .ok viewer.fb := by
  induction count generalizing y with
  | zero => rfl
  | succ count ih =>
      have last := below (Nat.succ_ne_zero count)
      have offset := offsets (Nat.succ_ne_zero count)
      have limit := sound.height
      have cast : asI32 y = y := asI32_small (by omega)
      have row : checkI32 (ε := Empty) (asI32 y - rect.top) = .ok (y - rect.top) :=
        Program.checkI32_eq_ok.mpr ⟨by omega, by omega, by omega⟩
      have index : asU32 (y - rect.top) = (y - rect.top).toNat := asU32_small (by omega) (by omega)
      rw [blitRows, Program.bind_ok row]
      dsimp only
      rw [index]
      split
      · rfl
      · have earlier : (y - rect.top) * stride ≤ (y + (count + 1 : Nat) - 1 - rect.top) * stride :=
          Int.mul_le_mul_of_nonneg_right (by omega) (by omega)
        have product : ((y - rect.top).toNat * stride : Nat) = (y - rect.top) * (stride : Int) := by
          rw [Nat.cast_mul, Int.toNat_of_nonneg (by omega)]
        have inData : checkU32 (ε := Empty) ((y - rect.top).toNat * stride) =
            .ok ((y - rect.top).toNat * stride) :=
          Program.checkU32_eq_ok.mpr ⟨by omega, rfl⟩
        rcases sound.position column (by omega : y < viewer.fbH) with ⟨_inside, small⟩
        have start : checkU32 (ε := Empty) (y * viewer.fbW + c.left) =
            .ok (y * viewer.fbW + c.left) := Program.checkU32_eq_ok.mpr ⟨small, rfl⟩
        rw [Program.bind_ok inData, Program.bind_ok start, Nat.sub_eq_zero_of_le none]
        apply ih
        · omega
        · omega
        · intro _more
          omega
        · intro _more
          have position : ((y + 1 : Nat) : Int) + count - 1 - rect.top =
              y + (count + 1 : Nat) - 1 - rect.top := by omega
          rw [position]
          exact offset

theorem blitRaw_misses (sound : viewer.Sound) {width height : Int} (data : List UInt8) {stride : Nat}
    (wide : rect.width (ε := Empty) = .ok width) (high : rect.height (ε := Empty) = .ok height)
    (misses : width = 0 ∨ height = 0 ∨
      (clampRect rect viewer.fbW viewer.fbH).bottom ≤ (clampRect rect viewer.fbW viewer.fbH).top ∨
      (clampRect rect viewer.fbW viewer.fbH).right ≤
          (clampRect rect viewer.fbW viewer.fbH).left ∧
        ((clampRect rect viewer.fbW viewer.fbH).bottom - 1 - rect.top) * stride < 2 ^ 32) :
    viewer.blitRaw rect data stride = .ok viewer := by
  rw [blitRaw, Program.bind_ok wide, Program.bind_ok high]
  dsimp only
  split
  · rfl
  · rename_i some
    have sides := sound.clamp rect
    rcases Program.checkI32_eq_ok.mp high with ⟨_low, small, _same⟩
    generalize clampRect rect viewer.fbW viewer.fbH = c at misses sides ⊢
    have rows : blitRows rect data stride viewer.fbW (asU32 width) (asU32 height) c
        (c.bottom - c.top) c.top viewer.fb = .ok viewer.fb := by
      by_cases above : c.bottom ≤ c.top
      · rw [Nat.sub_eq_zero_of_le above]
        rfl
      · rcases misses with rfl | rfl | none | ⟨beside, offsets⟩
        · exact absurd (Or.inl rfl) some
        · exact absurd (Or.inr rfl) some
        · exact absurd none above
        · have ends : (c.top : Int) + (c.bottom - c.top : Nat) = c.bottom := by omega
          have left := congrArg Clamped.left sides
          have top := congrArg Clamped.top sides
          have bottom := congrArg Clamped.bottom sides
          dsimp only at left top bottom
          apply blitRows_empty sound data small beside
          · omega
          · omega
          · omega
          · omega
          · intro _more
            rw [ends]
            exact offsets
    rw [Program.bind_ok rows]

end ViewerApp

end Capsaicin.Viewer
