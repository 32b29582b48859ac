/-
One picture in several encodings. A drawing command shows it the same way, whether it comes
as a bitmap or in one of the LZ codecs, and from the top or from the bottom.
-/

import Capsaicin.Client.Drawing
import Capsaicin.Literals

namespace Capsaicin.Client

open Glz (GlzHeader)
open Lz (LzHeader)
open Net (Message)
open Proto

variable {state : DisplayState} {msg : Message} {copy : DrawCopy} {desc : ImageDescriptor}
  {picture : List (List Bgra)} {width height : Nat} {topDown : Bool}
  {behind payload : List UInt8}

/-! ### Pictures and where they are -/

/-- The rows of a picture from the top, of pixels without alpha. -/
structure Plain (picture : List (List Bgra)) (width height : Nat) : Prop where
  rows : picture.length = height
  even : ∀ row ∈ picture, row.length = width
  clear : ∀ row ∈ picture, ∀ pixel ∈ row, pixel.a = 0

def inOrder (topDown : Bool) (picture : List (List Bgra)) : List Bgra :=
  (if topDown then picture else picture.reverse).flatten

/-- The ways in which a body has a picture behind an offset: as chunks elsewhere in the
body, or inline as a stream of one of the codecs. -/
inductive Carries (picture : List (List Bgra)) (width height : Nat) (topDown : Bool)
    (body : List UInt8) (offset : Nat) : Prop
  | bitmap {desc : ImageDescriptor} {header : Bitmap} {chunks : List (List UInt8)}
      {behind after : List UInt8} (fitsDesc : desc.Fits) (kind : desc.imageType = ImageType.BITMAP)
      (fits : header.Fits) (format : bitmapBytesPerPixel header.format = some 4)
      (order : header.isTopDown = topDown) (high : header.height = height)
      (stride : header.stride = 4 * width) (bare : header.paletteOffset = 0)
      (placed : body.drop offset = desc.encode ++ (header.encode ++ behind))
      (chunked : body.drop header.dataOffset = encodeChunks chunks ++ after)
      (whole : chunks.flatten = packed (inOrder topDown picture))
  | lz {desc : ImageDescriptor} {header : LzHeader} {payload behind : List UInt8}
      (fitsDesc : desc.Fits) (kind : desc.imageType = ImageType.LZ_RGB) (fits : header.Fits)
      (rgb32 : header.imageType = .rgb32) (order : header.topDown = topDown)
      (wide : header.width = width) (high : header.height = height)
      (whole : payload =
        header.encode ++ Lz.compressRgb32Literal (packed (inOrder topDown picture)))
      (placed : body.drop offset =
        desc.encode ++ (writeU32 payload.length ++ (payload ++ behind)))
  | glz {desc : ImageDescriptor} {header : GlzHeader} {payload behind : List UInt8}
      (fitsDesc : desc.Fits) (kind : desc.imageType = ImageType.GLZ_RGB) (fits : header.Fits)
      (rgb32 : header.imageType = .rgb32) (order : header.topDown = topDown)
      (wide : header.width = width) (high : header.height = height)
      (whole : payload =
        header.encode ++ Glz.compressRgb32Literal (packed (inOrder topDown picture)))
      (placed : body.drop offset =
        desc.encode ++ (writeU32 payload.length ++ (payload ++ behind)))

theorem packed_flatten (picture : List (List Bgra)) :
    packed picture.flatten = (picture.map packed).flatten := by
  induction picture with
  | nil => rfl
  | cons row rest ih => rw [List.flatten_cons, packed_append, ih, List.map_cons, List.flatten_cons]

theorem Plain.length (plain : Plain picture width height) :
    (inOrder topDown picture).length = width * height := by
  have rows := Raster.length_flatten plain.even
  rw [plain.rows, Nat.mul_comm] at rows
  cases topDown with
  | true => exact rows
  | false =>
      change picture.reverse.flatten.length = width * height
      rw [← rows, List.length_flatten, List.length_flatten, List.map_reverse, List.sum_reverse]

theorem Plain.clear_inOrder (plain : Plain picture width height) :
    ∀ pixel ∈ inOrder topDown picture, pixel.a = 0 := by
  intro pixel member
  rcases List.mem_flatten.mp member with ⟨row, among, inside⟩
  apply plain.clear row _ pixel inside
  cases topDown with
  | true => exact among
  | false => exact List.mem_reverse.mp among

theorem Plain.upright (plain : Plain picture width height) :
    Raster.upright topDown (width * 4) height (packed (inOrder topDown picture)) =
      packed picture.flatten := by
  cases topDown with
  | true => rfl
  | false =>
      have even : ∀ row ∈ picture.map packed, row.length = width * 4 := by
        intro row member
        rcases List.mem_map.mp member with ⟨pixels, among, rfl⟩
        rw [packed_length, plain.even pixels among]
      have flipped := Raster.flip_reverse even
      rw [List.length_map, plain.rows, ← List.map_reverse] at flipped
      change Raster.flip (width * 4) height (packed picture.reverse.flatten) = _
      rw [packed_flatten, packed_flatten, flipped]

/-! ### Finding the image -/

theorem points_of_placed (copied : DrawCopy.decode msg.body = .ok copy)
    (nonzero : copy.srcBitmapOffset ≠ 0) (fits : desc.Fits)
    (placed : msg.body.drop copy.srcBitmapOffset = desc.encode ++ behind) :
    Points msg copy desc behind where
  copied := copied
  placed := nonzero
  inside := by
    have size := congrArg List.length placed
    have some : 0 < ImageDescriptor.SIZE := by decide
    rw [List.length_drop, List.length_append, ImageDescriptor.length_encode] at size
    omega
  described := by
    rw [placed]
    exact (ImageDescriptor.exact fits).whole behind

theorem inlineData_of_placed (small : payload.length < 256 ^ 4)
    (placed : msg.body.drop copy.srcBitmapOffset =
      desc.encode ++ (writeU32 payload.length ++ (payload ++ behind))) :
    inlineData msg copy = some payload := by
  have word : (writeU32 payload.length).length = 4 := Bytes.length_toLe 4 payload.length
  have afterDesc : msg.body.drop (copy.srcBitmapOffset + ImageDescriptor.SIZE) =
      writeU32 payload.length ++ (payload ++ behind) := by
    rw [← List.drop_drop, placed]
    exact List.drop_left' desc.length_encode
  have afterSize : msg.body.drop (copy.srcBitmapOffset + ImageDescriptor.SIZE + 4) =
      payload ++ behind := by
    rw [← List.drop_drop, afterDesc]
    exact List.drop_left' word
  have room := congrArg List.length placed
  simp only [List.length_drop, List.length_append, ImageDescriptor.length_encode, word] at room
  have count : Bytes.ofLe (Bytes.slice msg.body (copy.srcBitmapOffset + ImageDescriptor.SIZE)
      (copy.srcBitmapOffset + ImageDescriptor.SIZE + 4)) = payload.length := by
    rw [Bytes.slice, afterDesc, Nat.add_sub_cancel_left, List.take_left' word]
    exact Bytes.ofLe_toLe small
  have bytes : Bytes.slice msg.body (copy.srcBitmapOffset + ImageDescriptor.SIZE + 4)
      (copy.srcBitmapOffset + ImageDescriptor.SIZE + 4 + payload.length) = payload := by
    rw [Bytes.slice, afterSize, Nat.add_sub_cancel_left, List.take_left' rfl]
  rw [inlineData]
  dsimp only
  rw [if_neg (by omega), count, if_neg (by omega), bytes]

/-! ### Showing it -/

/-- The bytes of a picture upright, which is how a region has them. -/
def shown (state : DisplayState) (copy : DrawCopy) (picture : List (List Bgra)) (width : Nat) :
    DisplayEvent := state.region copy (packed picture.flatten) (4 * width)

theorem Plain.bytes (plain : Plain picture width height) :
    (packed (inOrder topDown picture)).length = height * (width * 4) := by
  rw [packed_length, plain.length]
  ring

theorem Plain.topToBottom (plain : Plain picture width height) :
    topToBottom topDown (packed (inOrder topDown picture)) (width * 4) height =
      .ok (packed picture.flatten) := by
  rw [topToBottom_ok topDown plain.bytes, plain.upright]

theorem decodeBitmap_shows {header : Bitmap} {chunks : List (List UInt8)} {rest after : List UInt8}
    (plain : Plain picture width height) (size : width * height * 4 < 2 ^ 64)
    (small : msg.body.length ≤ Net.DEFAULT_MAX_MESSAGE_SIZE)
    (fits : header.Fits) (format : bitmapBytesPerPixel header.format = some 4)
    (order : header.isTopDown = topDown) (high : header.height = height)
    (stride : header.stride = 4 * width) (bare : header.paletteOffset = 0)
    (chunked : msg.body.drop header.dataOffset = encodeChunks chunks ++ after)
    (whole : chunks.flatten = packed (inOrder topDown picture)) :
    ∃ next, decodeBitmap state msg copy desc (header.encode ++ rest) =
      .ok (next, shown state copy picture width) := by
  have known : ¬ bitmapBytesPerPixel header.format ∉ [some 2, some 3, some 4] := by
    rw [format]
    simp
  have expected : header.stride * header.height = width * height * 4 := by
    rw [stride, high]
    ring
  have bytes : (packed (inOrder topDown picture)).length = width * height * 4 := by
    rw [packed_length, plain.length]
  have rows : header.stride = width * 4 := by
    rw [stride, Nat.mul_comm]
  rw [decodeBitmap, (Bitmap.exact fits).whole rest]
  dsimp only
  rw [if_neg (not_not_intro bare), if_neg known, readChunks_encode chunked small]
  dsimp only
  rw [expected, whole, if_neg (Nat.not_le.mpr size), if_neg (Nat.not_lt.mpr bytes.ge),
    List.take_of_length_le bytes.le, order, high, rows, Program.bind_ok plain.topToBottom,
    Nat.mul_comm width 4]
  exact ⟨_, rfl⟩

theorem decodeLzRgb_shows {header : LzHeader} (plain : Plain picture width height)
    (wide : 1 ≤ width ∧ width ≤ 16384) (high : 1 ≤ height ∧ height ≤ 16384)
    (size : 4 * (width * height) ≤ Net.DEFAULT_MAX_MESSAGE_SIZE)
    (fits : header.Fits) (rgb32 : header.imageType = .rgb32) (order : header.topDown = topDown)
    (sameWidth : header.width = width) (sameHeight : header.height = height)
    (carried : inlineData msg copy =
      some (header.encode ++ Lz.compressRgb32Literal (packed (inOrder topDown picture)))) :
    ∃ next, decodeLzRgb state msg copy desc = .ok (next, shown state copy picture width) := by
  have pixels : (inOrder topDown picture).length = width * height := plain.length
  have clear : ∀ pixel ∈ inOrder topDown picture, pixel.a = 0 := plain.clear_inOrder
  have some : 0 < width * height := Nat.mul_pos wide.1 high.1
  have few : width * height ≤ 16777216 := by
    unfold Net.DEFAULT_MAX_MESSAGE_SIZE at size
    omega
  have decoded := Lz.literals_decoded clear (by omega) (by omega)
  have long : ¬ (header.encode ++
      Lz.compressRgb32Literal (packed (inOrder topDown picture))).length < Lz.LZ_HEADER_SIZE := by
    rw [List.length_append, header.encode_length]
    omega
  have stride : Program.checkU32 (ε := ProtoError) (width * 4) = .ok (width * 4) :=
    Program.checkU32_eq_ok.mpr ⟨by omega, rfl⟩
  rw [pixels] at decoded
  rw [decodeLzRgb, carried]
  dsimp only
  rw [if_neg long, Lz.LzHeader.decode_encode fits]
  dsimp only
  rw [sameWidth, sameHeight, if_neg (by omega), List.drop_left' header.encode_length, lzPixels, rgb32]
  dsimp only
  rw [Program.bind_ok (attempt_ok.mpr decoded)]
  dsimp only
  rw [Program.bind_ok stride, order, Program.bind_ok plain.topToBottom, Nat.mul_comm width 4]
  exact ⟨_, rfl⟩

theorem decodeGlz_shows {header : GlzHeader} (plain : Plain picture width height)
    (wide : 1 ≤ width ∧ width ≤ 16384) (high : 1 ≤ height ∧ height ≤ 16384)
    (size : 4 * (width * height) ≤ Net.DEFAULT_MAX_MESSAGE_SIZE)
    (fits : header.Fits) (rgb32 : header.imageType = .rgb32) (order : header.topDown = topDown)
    (sameWidth : header.width = width) (sameHeight : header.height = height)
    (carried : inlineData msg copy =
      some (header.encode ++ Glz.compressRgb32Literal (packed (inOrder topDown picture)))) :
    ∃ next, decodeGlz state msg copy = .ok (next, shown state copy picture width) := by
  have pixels : (inOrder topDown picture).length = header.width * header.height := by
    rw [plain.length, sameWidth, sameHeight]
  have caps : Glz.validateDims header.width header.height 4 =
      .ok (header.width * header.height * 4) := by
    rw [sameWidth, sameHeight]
    apply checkDims_of_caps wide.1 high.1 wide.2 high.2
    · unfold Net.DEFAULT_MAX_MESSAGE_SIZE at size
      unfold Glz.MAX_IMAGE_BYTES
      omega
    · decide
    · decide
  have decoded := Glz.literals_decoded plain.clear_inOrder rgb32 caps pixels state.glzWindow
  have narrow : header.width * 4 < 2 ^ 32 := by omega
  have parsed := Glz.GlzHeader.decode_encode fits
  rw [decodeGlz_ok carried (parsed _) rgb32 narrow decoded, sameWidth, sameHeight, order,
    plain.upright, Nat.mul_comm width 4]
  exact ⟨_, rfl⟩

/-- A picture is shown in the bounds of the command, in the format of its surface and from
the top, whatever carries it. -/
theorem same_region (plain : Plain picture width height) (wide : 1 ≤ width ∧ width ≤ 16384)
    (high : 1 ≤ height ∧ height ≤ 16384)
    (size : 4 * (width * height) ≤ Net.DEFAULT_MAX_MESSAGE_SIZE)
    (small : msg.body.length ≤ Net.DEFAULT_MAX_MESSAGE_SIZE)
    (copied : DrawCopy.decode msg.body = .ok copy) (nonzero : copy.srcBitmapOffset ≠ 0)
    (carries : Carries picture width height topDown msg.body copy.srcBitmapOffset) :
    ∃ next, decodeDrawCopy state msg =
      .ok (next, .region copy.base.surfaceId copy.base.bounds
        (.raw (packed picture.flatten) (4 * width))
        ((state.surfaces.lookup copy.base.surfaceId).getD (.unknown 0))) := by
  have inline {payload behind : List UInt8} {desc : ImageDescriptor}
      (placed : msg.body.drop copy.srcBitmapOffset =
        desc.encode ++ (writeU32 payload.length ++ (payload ++ behind))) :
      inlineData msg copy = some payload := by
    apply inlineData_of_placed _ placed
    have room := congrArg List.length placed
    simp only [List.length_drop, List.length_append] at room
    unfold Net.DEFAULT_MAX_MESSAGE_SIZE at small
    omega
  cases carries with
  | bitmap fitsDesc kind fits format order sameHeight stride bare placed chunked whole =>
      have points := points_of_placed copied nonzero fitsDesc placed
      rw [decodeDrawCopy_bitmap points kind]
      unfold Net.DEFAULT_MAX_MESSAGE_SIZE at size
      exact decodeBitmap_shows plain (by omega) small fits format order sameHeight stride bare
        chunked whole
  | lz fitsDesc kind fits rgb32 order sameWidth sameHeight whole placed =>
      have points := points_of_placed copied nonzero fitsDesc placed
      have carried := inline placed
      rw [whole] at carried
      rw [decodeDrawCopy_lz points kind]
      exact decodeLzRgb_shows plain wide high size fits rgb32 order sameWidth sameHeight carried
  | glz fitsDesc kind fits rgb32 order sameWidth sameHeight whole placed =>
      have points := points_of_placed copied nonzero fitsDesc placed
      have carried := inline placed
      rw [whole] at carried
      rw [decodeDrawCopy_glz points kind]
      exact decodeGlz_shows plain wide high size fits rgb32 order sameWidth sameHeight carried

def twoRows : List (List Bgra) := [[⟨1, 2, 3, 0⟩], [⟨4, 5, 6, 0⟩]]

def twoRowsLz : LzHeader where
  imageType := .rgb32
  width := 1
  height := 2
  stride := 4
  topDown := false

def lzStream : List UInt8 :=
  twoRowsLz.encode ++ Lz.compressRgb32Literal (packed (inOrder false twoRows))

def lzCommand : Message :=
  .mini DisplayMsg.DRAW_COPY
    ((plainCopy ⟨0, 0, 2, 1⟩).encode ++
      (ImageDescriptor.encode
          { id := 3, imageType := ImageType.LZ_RGB, flags := 0, width := 1, height := 2 } ++
        (writeU32 lzStream.length ++ (lzStream ++ []))))

def bitmapCommand : Message :=
  .mini DisplayMsg.DRAW_COPY
    ((plainCopy ⟨0, 0, 2, 1⟩).encode ++
      (ImageDescriptor.encode
          { id := 3, imageType := ImageType.BITMAP, flags := 0, width := 1, height := 2 } ++
        (Bitmap.encode
            { format := 8
              flags := 0
              width := 1
              height := 2
              stride := 4
              paletteOffset := 0
              dataOffset := 97 } ++ encodeChunks [[4, 5, 6], [0, 1, 2, 3, 0]])))

theorem same_region_two_rows :
    (∃ next, decodeDrawCopy DisplayState.default lzCommand =
        .ok (next, .region 0 ⟨0, 0, 2, 1⟩ (.raw [1, 2, 3, 0, 4, 5, 6, 0] 4) (.unknown 0))) ∧
      ∃ next, decodeDrawCopy DisplayState.default bitmapCommand =
        .ok (next, .region 0 ⟨0, 0, 2, 1⟩ (.raw [1, 2, 3, 0, 4, 5, 6, 0] 4) (.unknown 0)) := by
  have plain : Plain twoRows 1 2 := by
    constructor
    · rfl
    · decide
    · decide
  have lz : Carries twoRows 1 2 false lzCommand.body 57 := by
    apply @Carries.lz twoRows 1 2 false lzCommand.body 57 ⟨3, ImageType.LZ_RGB, 0, 1, 2⟩ twoRowsLz
      lzStream []
    · constructor <;> decide
    · rfl
    · constructor <;> decide
    · rfl
    · rfl
    · rfl
    · rfl
    · rfl
    · decide +kernel
  have bitmap : Carries twoRows 1 2 false bitmapCommand.body 57 := by
    apply @Carries.bitmap twoRows 1 2 false bitmapCommand.body 57 ⟨3, ImageType.BITMAP, 0, 1, 2⟩
      ⟨8, 0, 1, 2, 4, 0, 97⟩ [[4, 5, 6], [0, 1, 2, 3, 0]]
      (encodeChunks [[4, 5, 6], [0, 1, 2, 3, 0]]) []
    · constructor <;> decide
    · rfl
    · constructor <;> decide
    · rfl
    · rfl
    · rfl
    · rfl
    · rfl
    · decide +kernel
    · decide +kernel
    · rfl
  have copiedLz : DrawCopy.decode lzCommand.body = .ok (plainCopy ⟨0, 0, 2, 1⟩) := by decide +kernel
  have copiedBitmap : DrawCopy.decode bitmapCommand.body = .ok (plainCopy ⟨0, 0, 2, 1⟩) := by
    decide +kernel
  constructor
  · exact same_region plain (by decide) (by decide) (by decide) (by decide +kernel) copiedLz
      (by decide) lz
  · exact same_region plain (by decide) (by decide) (by decide) (by decide +kernel) copiedBitmap
      (by decide) bitmap

end Capsaicin.Client
