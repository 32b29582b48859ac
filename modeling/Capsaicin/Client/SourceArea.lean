/-
The part of an image that a drawing command asks for. The command names it by a rectangle, and
the task shows the image from its corner whatever the rectangle is.
-/

import Capsaicin.Client.PixelLayout

namespace Capsaicin.Client

open Net (Message)
open Proto

variable {state next : DisplayState} {msg : Message} {copy : DrawCopy} {desc : ImageDescriptor}
  {rest : List UInt8}

structure Source.TrueColour (source : Source) : Prop where
  bpp : source.bpp = 4
  rows : source.width * 4 ≤ source.stride

/-- The source rectangle is inside the image, and as large as the target. -/
structure AreaInside (copy : DrawCopy) (source : Source) : Prop where
  left : 0 ≤ copy.srcArea.left
  right : copy.srcArea.right ≤ source.width
  top : 0 ≤ copy.srcArea.top
  bottom : copy.srcArea.bottom ≤ source.height
  width : copy.srcArea.right - copy.srcArea.left = copy.base.bounds.right - copy.base.bounds.left
  height : copy.srcArea.bottom - copy.srcArea.top = copy.base.bounds.bottom - copy.base.bounds.top

def ShowsArea (copy : DrawCopy) (source : Source) (rect : Rect) (data : List UInt8)
    (stride : Nat) : Prop :=
  ∀ x y : Nat, (x : Int) < rect.right - rect.left → (y : Int) < rect.bottom - rect.top →
    (data.drop (y * stride + 4 * x)).take 4 =
      source.pixel (copy.srcArea.top.toNat + y) (copy.srcArea.left.toNat + x)

/-- The image has at its corner the pixels that it has in the source rectangle. -/
def CornerRepeats (copy : DrawCopy) (source : Source) : Prop :=
  ∀ x y : Nat, (x : Int) < copy.srcArea.right - copy.srcArea.left →
    (y : Int) < copy.srcArea.bottom - copy.srcArea.top →
      source.pixel y x =
        source.pixel (copy.srcArea.top.toNat + y) (copy.srcArea.left.toNat + x)

theorem shown_pixel {picture : Picture} (holds : Holds state msg copy desc rest picture)
    (colour : picture.source.TrueColour) {r c : Nat} (row : r < picture.source.height)
    (column : c < picture.source.width) :
    (picture.shown.drop (r * picture.source.stride + 4 * c)).take 4 = picture.source.pixel r c := by
  rw [Nat.mul_comm 4 c]
  rcases colour with ⟨bpp, wide⟩
  cases holds with
  | lz kind carried parsed ran size =>
      exact (upright_pixel bpp wide size List.prefix_rfl row column).1
  | @quic stream decoded header kind carried parsed ran size =>
      exact (@upright_pixel (decodedSource header.width header.height true decoded) decoded _ _ bpp
        wide size List.prefix_rfl row column).1
  | glz kind carried parsed ran size =>
      exact (upright_pixel bpp wide size List.prefix_rfl row column).1
  | @bitmap raw left header kind parsed format carried enough =>
      exact (upright_pixel bpp wide (List.length_take_of_le enough) (List.take_prefix _ raw) row
        column).1

/-- A region shows the source rectangle of its command exactly if that looks like the corner of
the image. -/
theorem source_area_iff {surfaceId stride : Nat} {rect : Rect} {data : List UInt8}
    {format : SurfaceFormat}
    (ran : decodeDrawCopy state msg = .ok (next, .region surfaceId rect (.raw data stride) format)) :
    ∃ copy desc rest picture, Points msg copy desc rest ∧ Holds state msg copy desc rest picture ∧
      (picture.source.TrueColour → AreaInside copy picture.source →
        (ShowsArea copy picture.source rect data stride ↔ CornerRepeats copy picture.source)) := by
  rcases region_drawn ran with ⟨copy, desc, rest, picture, points, holds, rfl, rfl, rfl⟩
  refine ⟨copy, desc, rest, picture, points, holds, ?_⟩
  intro colour area
  rcases area with ⟨left, right, top, bottom, width, height⟩
  have shown (x y : Nat) (column : (x : Int) < copy.srcArea.right - copy.srcArea.left)
      (row : (y : Int) < copy.srcArea.bottom - copy.srcArea.top) :=
    @shown_pixel state msg copy desc rest picture holds colour y x (by omega) (by omega)
  constructor
  · intro shows x y column row
    rw [← shown x y column row]
    exact shows x y (by omega) (by omega)
  · intro repeats x y column row
    rw [shown x y (by omega) (by omega)]
    exact repeats x y (by omega) (by omega)

def rightPixel : DrawCopy := { plainCopy ⟨0, 0, 1, 1⟩ with srcArea := ⟨0, 1, 1, 2⟩ }

def pairHeader : Bitmap where
  format := 8
  flags := BitmapFlags.TOP_DOWN
  width := 2
  height := 1
  stride := 8
  paletteOffset := 0
  dataOffset := 97

def pairBitmap : Message :=
  .mini DisplayMsg.DRAW_COPY
    (rightPixel.encode ++ (imageDescriptor ImageType.BITMAP 2 1).encode ++ pairHeader.encode ++
      encodeChunks [[1, 2, 3, 4, 5, 6, 7, 8]])

def pairSource : Source where
  width := 2
  height := 1
  bpp := 4
  stride := 8
  topDown := true
  bytes := [1, 2, 3, 4, 5, 6, 7, 8]

theorem pairBitmap_points :
    Points pairBitmap rightPixel (imageDescriptor ImageType.BITMAP 2 1)
      (pairBitmap.body.drop 75) := by
  decide +kernel

theorem pairBitmap_shown :
    (decodeDrawCopy DisplayState.default pairBitmap).map Prod.snd =
      .ok (.region 0 ⟨0, 0, 1, 1⟩ (.raw [1, 2, 3, 4, 5, 6, 7, 8] 8) (.unknown 0)) := by
  decide +kernel

theorem source_area_iff_pair :
    ∃ copy desc rest picture, Points pairBitmap copy desc rest ∧
      Holds DisplayState.default pairBitmap copy desc rest picture ∧
      (picture.source.TrueColour → AreaInside copy picture.source →
        (ShowsArea copy picture.source ⟨0, 0, 1, 1⟩ [1, 2, 3, 4, 5, 6, 7, 8] 8 ↔
          CornerRepeats copy picture.source)) := by
  have shown := pairBitmap_shown
  cases decoded : decodeDrawCopy DisplayState.default pairBitmap with
  | error fault =>
      rw [decoded] at shown
      cases shown
  | ok result =>
      rcases result with ⟨next, event⟩
      rw [decoded] at shown
      cases shown
      exact source_area_iff decoded

/-- The left pixel is shown for the right one. -/
theorem source_area_ignored :
    ∃ picture,
      Points pairBitmap rightPixel (imageDescriptor ImageType.BITMAP 2 1)
        (pairBitmap.body.drop 75) ∧
      Holds DisplayState.default pairBitmap rightPixel (imageDescriptor ImageType.BITMAP 2 1)
        (pairBitmap.body.drop 75) picture ∧
      picture.source = pairSource ∧ picture.source.TrueColour ∧
      AreaInside rightPixel picture.source ∧
      (decodeDrawCopy DisplayState.default pairBitmap).map Prod.snd =
        .ok (.region 0 ⟨0, 0, 1, 1⟩ (.raw [1, 2, 3, 4, 5, 6, 7, 8] 8) (.unknown 0)) ∧
      ¬ ShowsArea rightPixel picture.source ⟨0, 0, 1, 1⟩ [1, 2, 3, 4, 5, 6, 7, 8] 8 := by
  have holds : Holds DisplayState.default pairBitmap rightPixel
      (imageDescriptor ImageType.BITMAP 2 1) (pairBitmap.body.drop 75) _ :=
    @Holds.bitmap _ _ _ _ _ [1, 2, 3, 4, 5, 6, 7, 8] _ pairHeader rfl rfl (by decide) rfl
      (by decide)
  refine ⟨_, pairBitmap_points, holds, rfl, ⟨rfl, by decide⟩, ?_, pairBitmap_shown, ?_⟩
  · constructor
    all_goals decide
  · intro shows
    have left := shows 0 0 (by decide) (by decide)
    have right : pairSource.pixel 0 1 = [5, 6, 7, 8] := rfl
    change [1, 2, 3, 4] = pairSource.pixel 0 1 at left
    rw [right] at left
    cases left

end Capsaicin.Client
