/-
Round trips of the display and main channel bodies. Every reader takes exactly what the
encoder of its type wrote, whatever stands behind it, and fails on any shorter piece.
-/

import Capsaicin.Proto.Display
import Capsaicin.Proto.Image

namespace Capsaicin.Proto

open Codec (Exact)

/-! ### Bodies -/

def FitsI32 (value : Int) : Prop := -2 ^ 31 ≤ value ∧ value < 2 ^ 31

theorem signed_unsigned {value : Int} (fits : FitsI32 value) :
    Reader.signed 32 (unsigned 32 value) = value := by
  obtain ⟨lower, upper⟩ := fits
  unfold Reader.signed unsigned
  split <;> omega

theorem unsigned_lt (value : Int) : unsigned 32 value < 256 ^ 4 := by
  unfold unsigned
  omega

theorem Reader.i32_exact {value : Int} (fits : FitsI32 value) :
    Exact Reader.i32 (writeI32 value) value := by
  have read := Exact.map (Reader.signed 32) (Reader.u32_exact (unsigned_lt value))
  rw [signed_unsigned fits] at read
  exact read

/-- A decoder that returns the value of a body with anything behind it, and fails on every
shorter piece of the body. -/
structure RoundTrips {α : Type} (decode : List UInt8 → Except ProtoError α)
    (body : List UInt8) (value : α) : Prop where
  whole : ∀ behind, decode (body ++ behind) = .ok value
  cut : ∀ short, short <+: body → short ≠ body → ∃ reason, decode short = .error reason

theorem Reader.roundTrips_of_exact {α : Type} {reader : Reader α} {body : List UInt8} {value : α}
    (taken : Exact reader body value) : RoundTrips reader.decode body value where
  whole := fun behind => Reader.decode_ok (taken.whole behind)
  cut := by
    intro short within differs
    obtain ⟨reason, stopped⟩ := taken.cut short within differs
    exact ⟨reason, Reader.decode_error stopped⟩

/-! ### Nested structures -/

structure Point.Fits (point : Point) : Prop where
  x : FitsI32 point.x
  y : FitsI32 point.y

theorem Point.exact {point : Point} (fits : point.Fits) :
    Exact Point.decode point.encode point :=
  (Reader.i32_exact fits.x).bind ((Reader.i32_exact fits.y).map _)

structure Rect.Fits (rect : Rect) : Prop where
  top : FitsI32 rect.top
  left : FitsI32 rect.left
  bottom : FitsI32 rect.bottom
  right : FitsI32 rect.right

theorem Rect.exact {rect : Rect} (fits : rect.Fits) : Exact Rect.decode rect.encode rect := by
  unfold Rect.decode Rect.encode
  simp only [List.append_assoc]
  apply (Reader.i32_exact fits.top).bind
  apply (Reader.i32_exact fits.left).bind
  apply (Reader.i32_exact fits.bottom).bind
  exact (Reader.i32_exact fits.right).map _

def Clip.Fits : Clip → Prop
  | .none => True
  | .rects offset => offset < 256 ^ 4

theorem Clip.exact {clip : Clip} (fits : clip.Fits) : Exact Clip.reader clip.encode clip := by
  cases clip with
  | none =>
      have tag : Exact Reader.u8 (writeU8 0) 0 := Reader.u8_exact (by decide)
      have split : Clip.none.encode = writeU8 0 ++ [] := (List.append_nil _).symm
      rw [split]
      apply tag.bind
      rw [if_pos rfl]
      exact Exact.pure Clip.none
  | rects offset =>
      have tag : Exact Reader.u8 (writeU8 1) 1 := Reader.u8_exact (by decide)
      apply tag.bind
      rw [if_neg (by decide), if_pos rfl]
      exact (Reader.u32_exact fits).map _

def Brush.Fits : Brush → Prop
  | .none => True
  | .solid color => color < 256 ^ 4
  | .pattern offset pos => offset < 256 ^ 4 ∧ pos.Fits

theorem Brush.exact {brush : Brush} (fits : brush.Fits) :
    Exact Brush.reader brush.encode brush := by
  cases brush with
  | none =>
      have tag : Exact Reader.u32 (writeU32 0) 0 := Reader.u32_exact (by decide)
      have split : Brush.none.encode = writeU32 0 ++ [] := (List.append_nil _).symm
      rw [split]
      apply tag.bind
      rw [if_pos rfl]
      exact Exact.pure Brush.none
  | solid color =>
      have tag : Exact Reader.u32 (writeU32 1) 1 := Reader.u32_exact (by decide)
      apply tag.bind
      rw [if_neg (by decide), if_pos rfl]
      exact (Reader.u32_exact fits).map _
  | pattern offset pos =>
      have tag : Exact Reader.u32 (writeU32 2) 2 := Reader.u32_exact (by decide)
      have split : (Brush.pattern offset pos).encode =
          writeU32 2 ++ (writeU32 offset ++ pos.encode) := by
        simp only [Brush.encode, Point.encode, List.append_assoc]
      rw [split]
      apply tag.bind
      rw [if_neg (by decide), if_neg (by decide), if_pos rfl]
      apply (Reader.u32_exact fits.1).bind
      exact (Point.exact fits.2).map _

structure QMask.Fits (mask : QMask) : Prop where
  flags : mask.flags < 256 ^ 1
  pos : mask.pos.Fits
  bitmapOffset : mask.bitmapOffset < 256 ^ 4

theorem QMask.exact {mask : QMask} (fits : mask.Fits) :
    Exact QMask.reader mask.encode mask := by
  have split : mask.encode =
      writeU8 mask.flags ++ (mask.pos.encode ++ writeU32 mask.bitmapOffset) := by
    simp only [QMask.encode, Point.encode, List.append_assoc]
  rw [split]
  apply (Reader.u8_exact fits.flags).bind
  apply (Point.exact fits.pos).bind
  exact (Reader.u32_exact fits.bitmapOffset).map _

structure DrawBase.Fits (base : DrawBase) : Prop where
  surfaceId : base.surfaceId < 256 ^ 4
  bounds : base.bounds.Fits
  clip : base.clip.Fits

theorem DrawBase.exact {base : DrawBase} (fits : base.Fits) :
    Exact DrawBase.reader base.encode base := by
  unfold DrawBase.reader DrawBase.encode
  rw [List.append_assoc]
  apply (Reader.u32_exact fits.surfaceId).bind
  apply (Rect.exact fits.bounds).bind
  exact (Clip.exact fits.clip).map _

/-! ### Drawing commands -/

structure DrawFill.Fits (fill : DrawFill) : Prop where
  base : fill.base.Fits
  brush : fill.brush.Fits
  ropDescriptor : fill.ropDescriptor < 256 ^ 2
  mask : fill.mask.Fits

theorem DrawFill.exact {fill : DrawFill} (fits : fill.Fits) :
    Exact DrawFill.reader fill.encode fill := by
  unfold DrawFill.reader DrawFill.encode
  simp only [List.append_assoc]
  apply (DrawBase.exact fits.base).bind
  apply (Brush.exact fits.brush).bind
  apply (Reader.u16_exact fits.ropDescriptor).bind
  exact (QMask.exact fits.mask).map _

structure DrawCopy.Fits (copy : DrawCopy) : Prop where
  base : copy.base.Fits
  srcBitmapOffset : copy.srcBitmapOffset < 256 ^ 4
  srcArea : copy.srcArea.Fits
  ropDescriptor : copy.ropDescriptor < 256 ^ 2
  scaleMode : copy.scaleMode < 256 ^ 1
  mask : copy.mask.Fits

theorem DrawCopy.exact {copy : DrawCopy} (fits : copy.Fits) :
    Exact DrawCopy.reader copy.encode copy := by
  unfold DrawCopy.reader DrawCopy.encode
  simp only [List.append_assoc]
  apply (DrawBase.exact fits.base).bind
  apply (Reader.u32_exact fits.srcBitmapOffset).bind
  apply (Rect.exact fits.srcArea).bind
  apply (Reader.u16_exact fits.ropDescriptor).bind
  apply (Reader.u8_exact fits.scaleMode).bind
  exact (QMask.exact fits.mask).map _

structure CopyBits.Fits (copy : CopyBits) : Prop where
  base : copy.base.Fits
  srcPos : copy.srcPos.Fits

theorem CopyBits.exact {copy : CopyBits} (fits : copy.Fits) :
    Exact CopyBits.reader copy.encode copy := by
  have split : copy.encode = copy.base.encode ++ copy.srcPos.encode := by
    simp only [CopyBits.encode, Point.encode, List.append_assoc]
  rw [split]
  apply (DrawBase.exact fits.base).bind
  exact (Point.exact fits.srcPos).map _

/-! ### Streams -/

theorem VideoCodec.exact (codec : VideoCodec) :
    Exact (VideoCodec.fromU8 codec.toU8) [] codec := by
  cases codec with
  | mjpeg => exact Exact.pure VideoCodec.mjpeg
  | vp8 => exact Exact.pure VideoCodec.vp8
  | h264 => exact Exact.pure VideoCodec.h264
  | vp9 => exact Exact.pure VideoCodec.vp9
  | h265 => exact Exact.pure VideoCodec.h265

theorem VideoCodec.toU8_lt (codec : VideoCodec) : codec.toU8 < 256 ^ 1 := by
  cases codec <;> decide

structure StreamCreate.Fits (create : StreamCreate) : Prop where
  surfaceId : create.surfaceId < 256 ^ 4
  streamId : create.streamId < 256 ^ 4
  flags : create.flags < 256 ^ 1
  stamp : create.stamp < 256 ^ 8
  streamWidth : create.streamWidth < 256 ^ 4
  streamHeight : create.streamHeight < 256 ^ 4
  srcWidth : create.srcWidth < 256 ^ 4
  srcHeight : create.srcHeight < 256 ^ 4
  dest : create.dest.Fits
  clip : create.clip.Fits

theorem StreamCreate.exact {create : StreamCreate} (fits : create.Fits) :
    Exact StreamCreate.reader create.encode create := by
  unfold StreamCreate.reader StreamCreate.encode
  simp only [List.append_assoc]
  apply (Reader.u32_exact fits.surfaceId).bind
  apply (Reader.u32_exact fits.streamId).bind
  apply (Reader.u8_exact fits.flags).bind
  apply (Reader.u8_exact create.codec.toU8_lt).bind
  apply create.codec.exact.skip
  apply (Reader.u64_exact fits.stamp).bind
  apply (Reader.u32_exact fits.streamWidth).bind
  apply (Reader.u32_exact fits.streamHeight).bind
  apply (Reader.u32_exact fits.srcWidth).bind
  apply (Reader.u32_exact fits.srcHeight).bind
  apply (Rect.exact fits.dest).bind
  exact (Clip.exact fits.clip).map _

structure StreamClip.Fits (message : StreamClip) : Prop where
  streamId : message.streamId < 256 ^ 4
  clip : message.clip.Fits

theorem StreamClip.exact {message : StreamClip} (fits : message.Fits) :
    Exact StreamClip.reader message.encode message :=
  (Reader.u32_exact fits.streamId).bind ((Clip.exact fits.clip).map _)

structure StreamDataHeader.Fits (header : StreamDataHeader) : Prop where
  streamId : header.streamId < 256 ^ 4
  multiMediaTime : header.multiMediaTime < 256 ^ 4

theorem StreamDataHeader.exact {header : StreamDataHeader} (fits : header.Fits) :
    Exact StreamDataHeader.reader header.encode header :=
  (Reader.u32_exact fits.streamId).bind ((Reader.u32_exact fits.multiMediaTime).map _)

structure StreamData.Fits (message : StreamData) : Prop where
  header : message.header.Fits
  data : message.data.length < 256 ^ 4

theorem StreamData.exact {message : StreamData} (fits : message.Fits) :
    Exact StreamData.reader message.encode message := by
  have split : message.encode =
      message.header.encode ++ (writeU32 message.data.length ++ message.data) := by
    simp only [StreamData.encode, StreamDataHeader.encode, List.append_assoc]
  rw [split]
  apply (StreamDataHeader.exact fits.header).bind
  apply (Reader.u32_exact fits.data).bind
  exact (Reader.take_exact message.data).map _

structure StreamDataSized.Fits (message : StreamDataSized) : Prop where
  header : message.header.Fits
  width : message.width < 256 ^ 4
  height : message.height < 256 ^ 4
  dest : message.dest.Fits
  data : message.data.length < 256 ^ 4

theorem StreamDataSized.exact {message : StreamDataSized} (fits : message.Fits) :
    Exact StreamDataSized.reader message.encode message := by
  unfold StreamDataSized.reader StreamDataSized.encode
  simp only [List.append_assoc]
  apply (StreamDataHeader.exact fits.header).bind
  apply (Reader.u32_exact fits.width).bind
  apply (Reader.u32_exact fits.height).bind
  apply (Rect.exact fits.dest).bind
  apply (Reader.u32_exact fits.data).bind
  exact (Reader.take_exact message.data).map _

/-! ### Counted lists -/

structure Head.Fits (head : Head) : Prop where
  id : head.id < 256 ^ 4
  surfaceId : head.surfaceId < 256 ^ 4
  width : head.width < 256 ^ 4
  height : head.height < 256 ^ 4
  x : head.x < 256 ^ 4
  y : head.y < 256 ^ 4
  flags : head.flags < 256 ^ 4

theorem Head.exact {head : Head} (fits : head.Fits) : Exact Head.reader head.encode head := by
  unfold Head.reader Head.encode
  simp only [List.append_assoc]
  apply (Reader.u32_exact fits.id).bind
  apply (Reader.u32_exact fits.surfaceId).bind
  apply (Reader.u32_exact fits.width).bind
  apply (Reader.u32_exact fits.height).bind
  apply (Reader.u32_exact fits.x).bind
  apply (Reader.u32_exact fits.y).bind
  exact (Reader.u32_exact fits.flags).map _

structure MonitorsConfig.Fits (config : MonitorsConfig) : Prop where
  count : config.heads.length ≤ 65535
  maxAllowed : config.maxAllowed < 256 ^ 2
  heads : ∀ head ∈ config.heads, head.Fits

theorem MonitorsConfig.exact {config : MonitorsConfig} (fits : config.Fits) :
    Exact MonitorsConfig.reader config.encode config := by
  have count : config.heads.length < 256 ^ 2 := Nat.lt_succ_of_le fits.count
  unfold MonitorsConfig.reader MonitorsConfig.encode
  rw [List.append_assoc]
  apply (Reader.u16_exact count).bind
  apply (Reader.u16_exact fits.maxAllowed).bind
  exact (Reader.repeated_exact fun head member => Head.exact (fits.heads head member)).map _

/-! ### The round trips -/

inductive Body where
  | drawFill (message : DrawFill)
  | drawCopy (message : DrawCopy)
  | copyBits (message : CopyBits)
  | streamCreate (message : StreamCreate)
  | streamClip (message : StreamClip)
  | streamData (message : StreamData)
  | streamDataSized (message : StreamDataSized)
  | monitorsConfig (message : MonitorsConfig)
  | channelsList (message : ChannelsList)
  | imageDescriptor (message : ImageDescriptor)
  | bitmap (message : Bitmap)

def Body.Fits : Body → Prop
  | .drawFill message => message.Fits
  | .drawCopy message => message.Fits
  | .copyBits message => message.Fits
  | .streamCreate message => message.Fits
  | .streamClip message => message.Fits
  | .streamData message => message.Fits
  | .streamDataSized message => message.Fits
  | .monitorsConfig message => message.Fits
  | .channelsList message => message.Fits
  | .imageDescriptor message => message.Fits
  | .bitmap message => message.Fits

def Body.RoundTrips : Body → Prop
  | .drawFill message => Proto.RoundTrips DrawFill.decode message.encode message
  | .drawCopy message => Proto.RoundTrips DrawCopy.decode message.encode message
  | .copyBits message => Proto.RoundTrips CopyBits.decode message.encode message
  | .streamCreate message => Proto.RoundTrips StreamCreate.decode message.encode message
  | .streamClip message => Proto.RoundTrips StreamClip.decode message.encode message
  | .streamData message => Proto.RoundTrips StreamData.decode message.encode message
  | .streamDataSized message => Proto.RoundTrips StreamDataSized.decode message.encode message
  | .monitorsConfig message => Proto.RoundTrips MonitorsConfig.decode message.encode message
  | .channelsList message => Proto.RoundTrips ChannelsList.decode message.encode message
  | .imageDescriptor message =>
      Proto.RoundTrips ImageDescriptor.reader.decode message.encode message
  | .bitmap message => Proto.RoundTrips Bitmap.reader.decode message.encode message

/-- Every body reads back as it was written, and no shorter piece of it is accepted. -/
theorem Body.reads_back (body : Body) (fits : body.Fits) : body.RoundTrips := by
  cases body with
  | drawFill message => exact Reader.roundTrips_of_exact (DrawFill.exact fits)
  | drawCopy message => exact Reader.roundTrips_of_exact (DrawCopy.exact fits)
  | copyBits message => exact Reader.roundTrips_of_exact (CopyBits.exact fits)
  | streamCreate message => exact Reader.roundTrips_of_exact (StreamCreate.exact fits)
  | streamClip message => exact Reader.roundTrips_of_exact (StreamClip.exact fits)
  | streamData message => exact Reader.roundTrips_of_exact (StreamData.exact fits)
  | streamDataSized message => exact Reader.roundTrips_of_exact (StreamDataSized.exact fits)
  | monitorsConfig message => exact Reader.roundTrips_of_exact (MonitorsConfig.exact fits)
  | channelsList message => exact Reader.roundTrips_of_exact (ChannelsList.exact fits)
  | imageDescriptor message => exact Reader.roundTrips_of_exact (ImageDescriptor.exact fits)
  | bitmap message => exact Reader.roundTrips_of_exact (Bitmap.exact fits)

/-- A pattern fill under a clip of rectangles. -/
theorem Body.reads_back_pattern :
    (Body.drawFill
      { base :=
          { surfaceId := 1
            bounds := { top := -5, left := 0, bottom := 7, right := 2147483647 }
            clip := .rects 90 }
        brush := .pattern 60 { x := -1, y := 2 }
        ropDescriptor := 8
        mask := { flags := 0, pos := { x := 0, y := 0 }, bitmapOffset := 0 } }).RoundTrips := by
  apply Body.reads_back
  have word : ∀ value : Int, -2147483648 ≤ value → value < 2147483648 → FitsI32 value :=
    fun value lower upper => ⟨by simpa using lower, by simpa using upper⟩
  constructor
  · constructor
    · decide
    · constructor <;> apply word <;> decide
    · change 90 < 256 ^ 4
      decide
  · change 60 < 256 ^ 4 ∧ Point.Fits { x := -1, y := 2 }
    constructor
    · decide
    · constructor <;> apply word <;> decide
  · decide
  · constructor
    · decide
    · constructor <;> apply word <;> decide
    · decide

end Capsaicin.Proto
