/-
What a drawing command can do: nothing, leave a placeholder in the dictionary, or store an
image and show it. And how many bytes of it there are for the rectangle it is shown in.
-/

import Capsaicin.Client.Display
import Capsaicin.Client.Extents
import Capsaicin.Library.Raster

namespace Capsaicin.Client

open Glz (GlzHeader)
open Lz (LzHeader)
open Net (Message)
open Program (checkU32 bind_eq_ok)
open Proto
open Quic (QuicHeader)
open Raster (upright)

variable {state next : DisplayState} {msg : Message} {copy : DrawCopy} {desc : ImageDescriptor}
  {rest : List UInt8} {event : DisplayEvent}

/-! ### Steps of a handler -/

theorem attempt_ok {ε α : Type} {computation : Except (Program.Fault ε) α} {value : α} :
    attempt computation = .ok (.ok value) ↔ computation = .ok value := by
  rcases computation with (reason | kind | _) | found
  · simp [attempt]
  · simp [attempt]
  · simp [attempt]
  · simp [attempt]

theorem attempt_error {ε α : Type} {computation : Except (Program.Fault ε) α} {reason : ε} :
    attempt computation = .ok (.error reason) ↔ computation = .error (.error reason) := by
  rcases computation with (found | kind | _) | value
  · simp [attempt]
  · simp [attempt]
  · simp [attempt]
  · simp [attempt]

theorem flipVertical_ok {items : List UInt8} {stride height : Nat}
    (long : height * stride ≤ items.length) :
    flipVertical items stride height = .ok (Raster.flip stride height items) := by
  induction height with
  | zero => rfl
  | succ y ih =>
      have before : y * stride ≤ (y + 1) * stride := Nat.mul_le_mul_right stride (Nat.le_succ y)
      have width : (y + 1) * stride - y * stride = stride := by
        rw [Nat.succ_mul, Nat.add_sub_cancel_left]
      have row : Program.range (ε := ProtoError) items (y * stride) ((y + 1) * stride) =
          .ok ((items.drop (y * stride)).take stride) :=
        Program.range_eq_ok.mpr ⟨before, long, by rw [width]⟩
      rw [flipVertical, Program.bind_ok row, Program.bind_ok (ih (Nat.le_trans before long)),
        Raster.flip, Raster.flip, Raster.rows_succ, List.reverse_append]
      rfl

theorem topToBottom_ok {items : List UInt8} {stride height : Nat} (topDown : Bool)
    (size : items.length = height * stride) :
    topToBottom topDown items stride height = .ok (upright topDown stride height items) := by
  cases topDown with
  | true => rfl
  | false => exact flipVertical_ok (Nat.le_of_eq size.symm)

/-! ### What a drawing command does -/

/-- The image that a drawing command points to, and what is behind its descriptor. -/
structure Points (msg : Message) (copy : DrawCopy) (desc : ImageDescriptor) (rest : List UInt8) :
    Prop where
  copied : DrawCopy.decode msg.body = .ok copy
  placed : copy.srcBitmapOffset ≠ 0
  inside : copy.srcBitmapOffset + ImageDescriptor.SIZE ≤ msg.body.length
  described : ImageDescriptor.reader (msg.body.drop copy.srcBitmapOffset) = .ok (desc, rest)

instance : Decidable (Points msg copy desc rest) :=
  decidable_of_iff
    (DrawCopy.decode msg.body = .ok copy ∧ copy.srcBitmapOffset ≠ 0 ∧
      copy.srcBitmapOffset + ImageDescriptor.SIZE ≤ msg.body.length ∧
      ImageDescriptor.reader (msg.body.drop copy.srcBitmapOffset) = .ok (desc, rest))
    ⟨fun ⟨copied, placed, inside, described⟩ => ⟨copied, placed, inside, described⟩,
      fun points => ⟨points.copied, points.placed, points.inside, points.described⟩⟩

/-- The pixels of an image as they came: `bpp` bytes for each of them, in rows of `stride`
bytes that start at the top or at the bottom. -/
structure Source where
  width : Nat
  height : Nat
  bpp : Nat
  stride : Nat
  topDown : Bool
  bytes : List UInt8
  deriving DecidableEq, Repr

/-- An image: what the dictionary gets under which id, and what the embedder gets. -/
structure Picture where
  id : Nat
  source : Source
  stored : List UInt8
  shown : List UInt8
  deriving DecidableEq, Repr

def decodedSource (width height : Nat) (topDown : Bool) (bytes : List UInt8) : Source where
  width := width
  height := height
  bpp := 4
  stride := width * 4
  topDown := topDown
  bytes := bytes

inductive Holds (state : DisplayState) (msg : Message) (copy : DrawCopy) (desc : ImageDescriptor)
    (rest : List UInt8) : Picture → Prop
  | lz {stream decoded : List UInt8} {header : LzHeader} (kind : desc.imageType = ImageType.LZ_RGB)
      (carried : inlineData msg copy = some stream) (parsed : LzHeader.decode stream = .ok header)
      (ran : lzPixels (stream.drop Lz.LZ_HEADER_SIZE) header (header.width * header.height) =
        some (.ok decoded))
      (size : decoded.length = header.height * (header.width * 4)) :
      Holds state msg copy desc rest
        { id := desc.id
          source := decodedSource header.width header.height header.topDown decoded
          stored := upright header.topDown (header.width * 4) header.height decoded
          shown := upright header.topDown (header.width * 4) header.height decoded }
  | quic {stream decoded : List UInt8} {header : QuicHeader} (kind : desc.imageType = ImageType.QUIC)
      (carried : inlineData msg copy = some stream) (parsed : QuicHeader.decode stream = .ok header)
      (ran : quicPixels stream header = .ok decoded)
      (size : decoded.length = header.height * (header.width * 4)) :
      Holds state msg copy desc rest
        { id := desc.id
          source := decodedSource header.width header.height true decoded
          stored := decoded
          shown := decoded }
  | glz {stream decoded : List UInt8} {header : GlzHeader}
      (kind : desc.imageType = ImageType.GLZ_RGB) (carried : inlineData msg copy = some stream)
      (parsed : GlzHeader.decode stream = .ok header)
      (ran : Glz.decompressRgb32 stream header state.glzWindow = .ok decoded)
      (size : decoded.length = header.height * (header.width * 4)) :
      Holds state msg copy desc rest
        { id := header.id
          source := decodedSource header.width header.height header.topDown decoded
          stored := decoded
          shown := upright header.topDown (header.width * 4) header.height decoded }
  | bitmap {raw left : List UInt8} {header : Bitmap} (kind : desc.imageType = ImageType.BITMAP)
      (parsed : Bitmap.reader rest = .ok (header, left))
      (format : bitmapBytesPerPixel header.format ∈ [some 2, some 3, some 4])
      (carried : readChunks msg.body header.dataOffset = .ok raw)
      (enough : header.height * header.stride ≤ raw.length) :
      Holds state msg copy desc rest
        { id := desc.id
          source :=
            { width := header.width
              height := header.height
              bpp := (bitmapBytesPerPixel header.format).getD 0
              stride := header.stride
              topDown := header.isTopDown
              bytes := raw }
          stored := upright header.isTopDown header.stride header.height
            (raw.take (header.height * header.stride))
          shown := upright header.isTopDown header.stride header.height
            (raw.take (header.height * header.stride)) }

inductive Outcome (state : DisplayState) (msg : Message) : DisplayState → DisplayEvent → Prop
  | ignored : Outcome state msg state (unhandled DisplayMsg.DRAW_COPY msg.body.length)
  | missed {copy : DrawCopy} {desc : ImageDescriptor} {rest stream placeholder : List UInt8}
      {header : GlzHeader} {reason : Glz.GlzError} (points : Points msg copy desc rest)
      (kind : desc.imageType = ImageType.GLZ_RGB) (carried : inlineData msg copy = some stream)
      (parsed : GlzHeader.decode stream = .ok header)
      (failed : Glz.decompressRgb32 stream header state.glzWindow = .error (.error reason))
      (bounded : boundedPlaceholder header.width header.height = some placeholder) :
      Outcome state msg (state.store header.id placeholder)
        (unhandled DisplayMsg.DRAW_COPY msg.body.length)
  | drawn {copy : DrawCopy} {desc : ImageDescriptor} {rest : List UInt8} {picture : Picture}
      (points : Points msg copy desc rest) (holds : Holds state msg copy desc rest picture) :
      Outcome state msg (state.store picture.id picture.stored)
        (state.region copy picture.shown picture.source.stride)

theorem leftAlone_outcome (ran : leftAlone state msg = .ok (next, event)) :
    Outcome state msg next event := by
  cases ran
  exact .ignored

theorem lzPixels_size {stream decoded : List UInt8} {header : LzHeader} {numPixels : Nat}
    (ran : lzPixels stream header numPixels = some (.ok decoded)) :
    decoded.length = numPixels * 4 := by
  unfold lzPixels at ran
  split at ran
  · exact Lz.decompressRgb32_returns stream numPixels decoded (Option.some.inj ran)
  · exact Lz.decompressRgba_returns stream numPixels decoded (Option.some.inj ran)
  · cases ran

theorem opacify_length (pixels : List UInt8) : (opacify pixels).length = pixels.length := by
  fun_induction opacify pixels with
  | case1 b g r a rest ih => simp [ih]
  | case2 rest short => rfl

theorem quicPixels_size {stream decoded : List UInt8} {header : QuicHeader}
    (ran : quicPixels stream header = .ok decoded) :
    decoded.length = header.width * header.height * 4 := by
  unfold quicPixels at ran
  split at ran
  · exact Quic.decompressRgb32_returns stream header.width header.height decoded ran
  · cases opened : Quic.decompressRgb32 stream header.width header.height with
    | error fault =>
        rw [opened] at ran
        cases ran
    | ok pixels =>
        rw [opened] at ran
        cases ran
        rw [opacify_length]
        exact Quic.decompressRgb32_returns stream header.width header.height pixels opened
  · exact Quic.decompressRgba_returns stream header.width header.height decoded ran
  · exact Quic.decompressRgb16_returns stream header.width header.height decoded ran
  · exact Quic.decompressGray_returns stream header.width header.height decoded ran

theorem rowwise {width height size : Nat} (bytes : size = width * height * 4) :
    size = height * (width * 4) := by
  rw [bytes]
  ring

theorem decodeLzRgb_outcome (points : Points msg copy desc rest)
    (kind : desc.imageType = ImageType.LZ_RGB)
    (ran : decodeLzRgb state msg copy desc = .ok (next, event)) : Outcome state msg next event := by
  unfold decodeLzRgb at ran
  split at ran
  · exact leftAlone_outcome ran
  · rename_i stream carried
    split at ran
    · exact leftAlone_outcome ran
    · split at ran
      · exact leftAlone_outcome ran
      · rename_i header parsed
        dsimp only at ran
        split at ran
        · exact leftAlone_outcome ran
        · split at ran
          · exact leftAlone_outcome ran
          · rename_i decoding selected
            rcases bind_eq_ok.mp ran with ⟨result, attempted, ran⟩
            split at ran
            · exact leftAlone_outcome ran
            · rename_i decoded
              rw [attempt_ok.mp attempted] at selected
              have size := rowwise (lzPixels_size selected)
              rcases bind_eq_ok.mp ran with ⟨stride, small, ran⟩
              rcases Program.checkU32_eq_ok.mp small with ⟨_small, rfl⟩
              rw [Program.bind_ok (topToBottom_ok header.topDown size)] at ran
              cases ran
              exact .drawn points (.lz kind carried parsed selected size)

theorem decodeQuic_outcome (points : Points msg copy desc rest)
    (kind : desc.imageType = ImageType.QUIC)
    (ran : decodeQuic state msg copy desc = .ok (next, event)) : Outcome state msg next event := by
  unfold decodeQuic at ran
  split at ran
  · exact leftAlone_outcome ran
  · rename_i stream carried
    split at ran
    · exact leftAlone_outcome ran
    · rename_i header parsed
      rcases bind_eq_ok.mp ran with ⟨result, attempted, ran⟩
      split at ran
      · exact leftAlone_outcome ran
      · rename_i decoded
        have decompressed := attempt_ok.mp attempted
        rcases bind_eq_ok.mp ran with ⟨stride, small, ran⟩
        rcases Program.checkU32_eq_ok.mp small with ⟨_small, rfl⟩
        cases ran
        exact .drawn points
          (.quic kind carried parsed decompressed (rowwise (quicPixels_size decompressed)))

theorem decodeGlz_outcome (points : Points msg copy desc rest)
    (kind : desc.imageType = ImageType.GLZ_RGB)
    (ran : decodeGlz state msg copy = .ok (next, event)) : Outcome state msg next event := by
  unfold decodeGlz at ran
  split at ran
  · exact leftAlone_outcome ran
  · rename_i stream carried
    split at ran
    · exact leftAlone_outcome ran
    · split at ran
      · exact leftAlone_outcome ran
      · rename_i header parsed
        split at ran
        · exact leftAlone_outcome ran
        · rcases bind_eq_ok.mp ran with ⟨result, attempted, ran⟩
          split at ran
          · rename_i decoded
            have decompressed := attempt_ok.mp attempted
            have size := rowwise (Glz.decompressRgb32_returns _ _ _ decoded decompressed)
            rcases bind_eq_ok.mp ran with ⟨stride, small, ran⟩
            rcases Program.checkU32_eq_ok.mp small with ⟨_small, rfl⟩
            rw [Program.bind_ok (topToBottom_ok header.topDown size)] at ran
            cases ran
            exact .drawn points (.glz kind carried parsed decompressed size)
          · rename_i reason
            have failed := attempt_error.mp attempted
            split at ran
            · rename_i placeholder bounded
              cases ran
              exact .missed points kind carried parsed failed bounded
            · exact leftAlone_outcome ran

theorem decodeBitmap_outcome (points : Points msg copy desc rest)
    (kind : desc.imageType = ImageType.BITMAP)
    (ran : decodeBitmap state msg copy desc rest = .ok (next, event)) :
    Outcome state msg next event := by
  unfold decodeBitmap at ran
  split at ran
  · exact leftAlone_outcome ran
  · rename_i header left parsed
    split at ran
    · exact leftAlone_outcome ran
    · split at ran
      · exact leftAlone_outcome ran
      · rename_i format
        split at ran
        · exact leftAlone_outcome ran
        · rename_i raw carried
          dsimp only at ran
          rw [Nat.mul_comm header.stride] at ran
          split at ran
          · exact leftAlone_outcome ran
          · split at ran
            · exact leftAlone_outcome ran
            · rename_i enough
              have long : header.height * header.stride ≤ raw.length := Nat.not_lt.mp enough
              have size := List.length_take_of_le long
              rw [Program.bind_ok (topToBottom_ok header.isTopDown size)] at ran
              cases ran
              exact .drawn points (.bitmap kind parsed (not_not.mp format) carried long)

theorem decodeDrawCopy_outcome (ran : decodeDrawCopy state msg = .ok (next, event)) :
    Outcome state msg next event := by
  unfold decodeDrawCopy at ran
  split at ran
  · exact leftAlone_outcome ran
  · rename_i copy copied
    dsimp only at ran
    split at ran
    · exact leftAlone_outcome ran
    · rename_i within
      split at ran
      · exact leftAlone_outcome ran
      · rename_i desc rest described
        have points : Points msg copy desc rest :=
          { copied := copied
            placed := fun nowhere => within (Or.inl nowhere)
            inside := Nat.not_lt.mp fun outside => within (Or.inr outside)
            described := described }
        split at ran
        · exact decodeLzRgb_outcome points ‹_› ran
        · split at ran
          · exact decodeQuic_outcome points ‹_› ran
          · split at ran
            · exact decodeGlz_outcome points ‹_› ran
            · split at ran
              · exact leftAlone_outcome ran
              · exact decodeBitmap_outcome points (not_not.mp ‹_›) ran

theorem decodeDrawCopy_points (points : Points msg copy desc rest) :
    decodeDrawCopy state msg =
      if desc.imageType = ImageType.LZ_RGB then decodeLzRgb state msg copy desc
      else if desc.imageType = ImageType.QUIC then decodeQuic state msg copy desc
      else if desc.imageType = ImageType.GLZ_RGB then decodeGlz state msg copy
      else if desc.imageType ≠ ImageType.BITMAP then leftAlone state msg
      else decodeBitmap state msg copy desc rest := by
  have within : ¬ (copy.srcBitmapOffset = 0 ∨
      copy.srcBitmapOffset + ImageDescriptor.SIZE > msg.body.length) := by
    have placed := points.placed
    have inside := points.inside
    omega
  rw [decodeDrawCopy, points.copied]
  dsimp only
  rw [if_neg within, points.described]

theorem decodeDrawCopy_lz (points : Points msg copy desc rest)
    (kind : desc.imageType = ImageType.LZ_RGB) :
    decodeDrawCopy state msg = decodeLzRgb state msg copy desc := by
  rw [decodeDrawCopy_points points, if_pos kind]

theorem decodeDrawCopy_glz (points : Points msg copy desc rest)
    (kind : desc.imageType = ImageType.GLZ_RGB) :
    decodeDrawCopy state msg = decodeGlz state msg copy := by
  rw [decodeDrawCopy_points points, kind]
  rfl

theorem decodeDrawCopy_bitmap (points : Points msg copy desc rest)
    (kind : desc.imageType = ImageType.BITMAP) :
    decodeDrawCopy state msg = decodeBitmap state msg copy desc rest := by
  rw [decodeDrawCopy_points points, kind]
  rfl

theorem decodeGlz_ok {stream pixels : List UInt8} {header : GlzHeader}
    (carried : inlineData msg copy = some stream) (parsed : GlzHeader.decode stream = .ok header)
    (rgb32 : header.imageType = .rgb32)
    (narrow : header.width * 4 < 2 ^ 32)
    (decoded : Glz.decompressRgb32 stream header state.glzWindow = .ok pixels) :
    decodeGlz state msg copy =
      .ok (state.store header.id pixels,
        state.region copy
          (Raster.upright header.topDown (header.width * 4) header.height pixels)
          (header.width * 4)) := by
  have whole : ¬ stream.length < Glz.GLZ_HEADER_SIZE :=
    Nat.not_lt.mpr (GlzHeader.decode_length parsed)
  have stride : Program.checkU32 (ε := ProtoError) (header.width * 4) = .ok (header.width * 4) :=
    Program.checkU32_eq_ok.mpr ⟨narrow, rfl⟩
  have size := rowwise (Glz.decompressRgb32_returns _ _ _ pixels decoded)
  rw [decodeGlz, carried]
  dsimp only
  rw [if_neg whole, parsed]
  dsimp only
  rw [if_neg (not_not_intro rgb32), Program.bind_ok (attempt_ok.mpr decoded)]
  dsimp only
  rw [Program.bind_ok stride, Program.bind_ok (topToBottom_ok header.topDown size)]
  rfl

/-! ### Regions -/

structure Extent where
  stride : Nat
  rows : Nat
  deriving DecidableEq, Repr

def extentOf (msg : Message) (copy : DrawCopy) (desc : ImageDescriptor) (rest : List UInt8) :
    Option Extent :=
  if desc.imageType = ImageType.BITMAP then
    match Bitmap.reader rest with
    | .ok (bitmap, _) => some { stride := bitmap.stride, rows := bitmap.height }
    | .error _ => none
  else
    (inlineData msg copy).bind fun stream =>
      if desc.imageType = ImageType.LZ_RGB then
        match LzHeader.decode stream with
        | .ok hdr => some { stride := hdr.width * 4, rows := hdr.height }
        | .error _ => none
      else if desc.imageType = ImageType.QUIC then
        match QuicHeader.decode stream with
        | .ok hdr => some { stride := hdr.width * 4, rows := hdr.height }
        | .error _ => none
      else
        match GlzHeader.decode stream with
        | .ok hdr => some { stride := hdr.width * 4, rows := hdr.height }
        | .error _ => none

/-- The rectangle of a drawing command and the extent of its image. -/
def outline (msg : Message) : Option (Rect × Extent) :=
  match DrawCopy.decode msg.body with
  | .error _ => none
  | .ok copy =>
      match ImageDescriptor.reader (msg.body.drop copy.srcBitmapOffset) with
      | .error _ => none
      | .ok (desc, rest) =>
          (extentOf msg copy desc rest).map fun extent => (copy.base.bounds, extent)

/-- A rectangle no higher than an image, its last row no wider than what the image has from
that row on. -/
def Extent.Covers (extent : Extent) (rect : Rect) : Prop :=
  ∀ width height : Nat, rect.width (ε := Empty) = .ok width → rect.height (ε := Empty) = .ok height →
    0 < width → 0 < height →
      height ≤ extent.rows ∧ 4 * width ≤ (extent.rows + 1 - height) * extent.stride

/-- Every pixel of a rectangle has its four bytes. -/
def InRange (rect : Rect) (size stride : Nat) : Prop :=
  ∀ width height : Int, rect.width (ε := Empty) = .ok width → rect.height (ε := Empty) = .ok height →
    ∀ x y : Nat, (x : Int) < width → (y : Int) < height → y * stride + 4 * x + 4 ≤ size

theorem extentOf_holds {picture : Picture} (holds : Holds state msg copy desc rest picture) :
    extentOf msg copy desc rest =
      some { stride := picture.source.stride, rows := picture.source.height } := by
  have types : ImageType.LZ_RGB ≠ ImageType.BITMAP ∧ ImageType.QUIC ≠ ImageType.BITMAP ∧
      ImageType.GLZ_RGB ≠ ImageType.BITMAP ∧ ImageType.QUIC ≠ ImageType.LZ_RGB ∧
      ImageType.GLZ_RGB ≠ ImageType.LZ_RGB ∧ ImageType.GLZ_RGB ≠ ImageType.QUIC := by decide
  rcases types with ⟨lz, quic, glz, quicLz, glzLz, glzQuic⟩
  cases holds with
  | lz kind carried parsed ran size => simp [extentOf, kind, carried, parsed, lz, decodedSource]
  | quic kind carried parsed ran size => simp [extentOf, kind, carried, parsed, quic, quicLz, decodedSource]
  | glz kind carried parsed ran size =>
      simp [extentOf, kind, carried, parsed, glz, glzLz, glzQuic, decodedSource]
  | bitmap kind parsed format carried enough => simp [extentOf, kind, parsed]

theorem shown_size {picture : Picture} (holds : Holds state msg copy desc rest picture) :
    picture.shown.length = picture.source.height * picture.source.stride := by
  cases holds with
  | lz kind carried parsed ran size => exact Raster.length_upright size
  | quic kind carried parsed ran size => exact size
  | glz kind carried parsed ran size => exact Raster.length_upright size
  | bitmap kind parsed format carried enough =>
      exact Raster.length_upright (List.length_take_of_le enough)

theorem rows_below {rows height : Nat} (stride : Nat) (below : height ≤ rows) (some : 0 < height) :
    (rows + 1 - height) * stride + (height - 1) * stride = rows * stride := by
  rw [← Nat.add_mul]
  congr 1
  omega

theorem inRange_iff (rect : Rect) (extent : Extent) :
    InRange rect (extent.rows * extent.stride) extent.stride ↔ extent.Covers rect := by
  constructor
  · intro inside width height wide high positiveWidth positiveHeight
    have last := inside width height wide high (width - 1) (height - 1) (by omega) (by omega)
    have below : height ≤ extent.rows := by
      by_contra above
      have taller : extent.rows * extent.stride ≤ (height - 1) * extent.stride :=
        Nat.mul_le_mul_right extent.stride (by omega)
      omega
    have left := rows_below extent.stride below (by omega)
    exact ⟨below, by omega⟩
  · intro covers width height wide high x y within above
    have positiveWidth : 0 < width := by omega
    have positiveHeight : 0 < height := by omega
    lift width to Nat using positiveWidth.le
    lift height to Nat using positiveHeight.le
    rcases covers width height wide high (by omega) (by omega) with ⟨below, fits⟩
    have before : y * extent.stride ≤ (height - 1) * extent.stride :=
      Nat.mul_le_mul_right extent.stride (by omega)
    have left := rows_below extent.stride below (by omega)
    omega

/-- A region comes from a command that points to an image, and shows what the image holds. -/
theorem region_drawn {surfaceId stride : Nat} {rect : Rect} {data : List UInt8}
    {format : SurfaceFormat}
    (ran : decodeDrawCopy state msg = .ok (next, .region surfaceId rect (.raw data stride) format)) :
    ∃ copy desc rest picture, Points msg copy desc rest ∧ Holds state msg copy desc rest picture ∧
      rect = copy.base.bounds ∧ data = picture.shown ∧ stride = picture.source.stride := by
  have outcome := decodeDrawCopy_outcome ran
  generalize region : DisplayEvent.region surfaceId rect (.raw data stride) format = event at outcome
  cases outcome with
  | ignored => cases region
  | missed points kind carried parsed failed bounded => cases region
  | @drawn copy desc rest picture points holds =>
      cases region
      exact ⟨copy, desc, rest, picture, points, holds, rfl, rfl, rfl⟩

/-- A region has the bytes for its rectangle exactly if the image of the command covers it. -/
theorem regions_complete_iff {surfaceId stride : Nat} {rect : Rect} {data : List UInt8}
    {format : SurfaceFormat}
    (ran : decodeDrawCopy state msg = .ok (next, .region surfaceId rect (.raw data stride) format)) :
    ∃ extent, outline msg = some (rect, extent) ∧
      (InRange rect data.length stride ↔ extent.Covers rect) := by
  rcases region_drawn ran with ⟨copy, desc, rest, picture, points, holds, rfl, rfl, rfl⟩
  refine ⟨{ stride := picture.source.stride, rows := picture.source.height }, ?_, ?_⟩
  · rw [outline, points.copied]
    dsimp only
    rw [points.described]
    dsimp only
    rw [extentOf_holds holds]
    rfl
  · rw [shown_size holds]
    exact inRange_iff copy.base.bounds
      { stride := picture.source.stride, rows := picture.source.height }

def plainCopy (bounds : Rect) : DrawCopy where
  base := { surfaceId := 0, bounds := bounds, clip := .none }
  srcBitmapOffset := 57
  srcArea := bounds
  ropDescriptor := Ropd.OP_PUT
  scaleMode := 0
  mask := { flags := 0, pos := ⟨0, 0⟩, bitmapOffset := 0 }

def tinyBitmap : Message :=
  .mini DisplayMsg.DRAW_COPY
    ((plainCopy ⟨0, 0, 1, 2⟩).encode ++
      ImageDescriptor.encode
        { id := 1, imageType := ImageType.BITMAP, flags := 0, width := 1, height := 1 } ++
      Bitmap.encode
        { format := 8
          flags := BitmapFlags.TOP_DOWN
          width := 1
          height := 1
          stride := 4
          paletteOffset := 0
          dataOffset := 97 } ++
      encodeChunks [[1, 2, 3, 4]])

theorem regions_complete_iff_tiny :
    ∃ extent, outline tinyBitmap = some (⟨0, 0, 1, 2⟩, extent) ∧
      (InRange ⟨0, 0, 1, 2⟩ [1, 2, 3, 4].length 4 ↔ extent.Covers ⟨0, 0, 1, 2⟩) :=
  @regions_complete_iff DisplayState.default _ tinyBitmap 0 4 ⟨0, 0, 1, 2⟩ [1, 2, 3, 4] (.unknown 0)
    rfl

/-- The second pixel of the rectangle has no bytes. -/
theorem region_cut_short :
    (decodeDrawCopy DisplayState.default tinyBitmap).map Prod.snd =
        .ok (.region 0 ⟨0, 0, 1, 2⟩ (.raw [1, 2, 3, 4] 4) (.unknown 0)) ∧
      ¬ InRange ⟨0, 0, 1, 2⟩ [1, 2, 3, 4].length 4 := by
  constructor
  · decide +kernel
  · intro inside
    have second := inside 2 1 rfl rfl 1 0 (by decide) (by decide)
    simp at second

end Capsaicin.Client
