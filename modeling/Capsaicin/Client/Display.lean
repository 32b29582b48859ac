/-
The display channel of the client: messages become events for the embedder, and every
decoded image goes into the dictionary of the session. Log lines are left out.
-/

import Capsaicin.Client.Flow
import Capsaicin.Client.Mjpeg
import Capsaicin.Glz.Decoder
import Capsaicin.Proto.Image
import Capsaicin.Quic.Decoder

namespace Capsaicin.Client

open Bytes (ofLe slice)
open Glz (GlzHeader GlzWindow)
open Lz (LzHeader)
open Net (Message)
open Program (checkU32)
open Proto
open Quic (QuicHeader)
open Reactive (Machine)

/-! ### State -/

structure AckState where
  window : Nat
  remaining : Nat
  deriving DecidableEq, Repr

def AckState.start : AckState := { window := 0, remaining := 0 }

def AckState.onSetAck (window : Nat) : AckState := { window := window, remaining := window }

def AckState.noteMessage (ack : AckState) : AckState × Bool :=
  if ack.window = 0 then (ack, false)
  else
    let remaining := (if ack.remaining = 0 then ack.window else ack.remaining) - 1
    if remaining = 0 then ({ ack with remaining := ack.window }, true)
    else ({ ack with remaining := remaining }, false)

structure StreamInfo where
  codec : VideoCodec
  dest : Rect
  deriving DecidableEq, Repr

structure DisplayState where
  surfaces : AList fun _ : Nat => SurfaceFormat
  streams : AList fun _ : Nat => StreamInfo
  glzWindow : GlzWindow
  ack : AckState

def DisplayState.default : DisplayState where
  surfaces := ∅
  streams := ∅
  glzWindow := GlzWindow.default
  ack := AckState.start

/-- An error of this type ends the task. -/
abbrev DisplayFault := Program.Fault ProtoError

/-- The result of a codec as a value that the task looks at. A panic ends the task too. -/
def attempt {ε α : Type} : Except (Program.Fault ε) α → Except DisplayFault (Except ε α)
  | .ok value => .ok (.ok value)
  | .error (.error reason) => .ok (.error reason)
  | .error (.panic kind) => .error (.panic kind)
  | .error .fuel => .error .fuel

/-! ### Images -/

def unhandled (msgType size : Nat) : DisplayEvent := .unhandledDraw msgType size

def leftAlone (state : DisplayState) (msg : Message) :
    Except DisplayFault (DisplayState × DisplayEvent) :=
  .ok (state, unhandled DisplayMsg.DRAW_COPY msg.body.length)

def flipVertical (rows : List UInt8) (stride : Nat) : Nat → Except DisplayFault (List UInt8)
  | 0 => .ok []
  | y + 1 => do
      let row ← Program.range rows (y * stride) ((y + 1) * stride)
      let rest ← flipVertical rows stride y
      .ok (row ++ rest)

def topToBottom (topDown : Bool) (rows : List UInt8) (stride height : Nat) :
    Except DisplayFault (List UInt8) :=
  if topDown then .ok rows else flipVertical rows stride height

/-- The `checked_mul` of the source work on a 64-bit `usize`. -/
def boundedPlaceholder (width height : Nat) : Option (List UInt8) :=
  if width = 0 ∨ height = 0 ∨ width > 16384 ∨ height > 16384 then none
  else if 2 ^ 64 ≤ width * height ∨ 2 ^ 64 ≤ width * height * 4 then none
  else if width * height * 4 > 64 * 1024 * 1024 then none
  else some (List.replicate (width * height * 4) 0)

def DisplayState.surfaceFormat (state : DisplayState) (surfaceId : Nat) : SurfaceFormat :=
  (state.surfaces.lookup surfaceId).getD (.unknown 0)

def DisplayState.store (state : DisplayState) (id : Nat) (pixels : List UInt8) : DisplayState :=
  { state with glzWindow := state.glzWindow.insert id pixels 4 }

def DisplayState.region (state : DisplayState) (copy : DrawCopy) (data : List UInt8)
    (stride : Nat) : DisplayEvent :=
  .region copy.base.surfaceId copy.base.bounds (.raw data stride)
    (state.surfaceFormat copy.base.surfaceId)

/-- The bytes behind a descriptor, which follow their number; `none` where the body is cut
short. -/
def inlineData (msg : Message) (copy : DrawCopy) : Option (List UInt8) :=
  let headerStart := copy.srcBitmapOffset + ImageDescriptor.SIZE
  if headerStart + 4 > msg.body.length then none
  else
    let dataSize := ofLe (slice msg.body headerStart (headerStart + 4))
    let dataStart := headerStart + 4
    let dataEnd := dataStart + dataSize
    if dataEnd > msg.body.length then none else some (slice msg.body dataStart dataEnd)

def decodeGlz (state : DisplayState) (msg : Message) (copy : DrawCopy) :
    Except DisplayFault (DisplayState × DisplayEvent) :=
  match inlineData msg copy with
  | none => leftAlone state msg
  | some compressed =>
      if compressed.length < Glz.GLZ_HEADER_SIZE then leftAlone state msg
      else
        match GlzHeader.decode compressed with
        | .error _ => leftAlone state msg
        | .ok hdr =>
            if hdr.imageType ≠ .rgb32 then leftAlone state msg
            else do
              let result ← attempt (Glz.decompressRgb32 compressed hdr state.glzWindow)
              match result with
              | .ok pixelsTopDown => do
                  let next := state.store hdr.id pixelsTopDown
                  let stride ← checkU32 (hdr.width * 4)
                  let pixels ← topToBottom hdr.topDown pixelsTopDown stride hdr.height
                  .ok (next, next.region copy pixels stride)
              | .error _ =>
                  -- An image that was not decoded still is there for later images.
                  match boundedPlaceholder hdr.width hdr.height with
                  | some placeholder => leftAlone (state.store hdr.id placeholder) msg
                  | none => leftAlone state msg

def opacify : List UInt8 → List UInt8
  | b :: g :: r :: _ :: rest => b :: g :: r :: 0xFF :: opacify rest
  | rest => rest

def quicPixels (compressed : List UInt8) (hdr : QuicHeader) :
    Except Quic.QuicFault (List UInt8) :=
  match hdr.imageType with
  | .rgb32 => Quic.decompressRgb32 compressed hdr.width hdr.height
  | .rgb24 => (Quic.decompressRgb32 compressed hdr.width hdr.height).map opacify
  | .rgba => Quic.decompressRgba compressed hdr.width hdr.height
  | .rgb16 => Quic.decompressRgb16 compressed hdr.width hdr.height
  | .gray => Quic.decompressGray compressed hdr.width hdr.height

def decodeQuic (state : DisplayState) (msg : Message) (copy : DrawCopy) (desc : ImageDescriptor) :
    Except DisplayFault (DisplayState × DisplayEvent) :=
  match inlineData msg copy with
  | none => leftAlone state msg
  | some compressed =>
      match QuicHeader.decode compressed with
      | .error _ => leftAlone state msg
      | .ok hdr => do
          let result ← attempt (quicPixels compressed hdr)
          match result with
          | .error _ => leftAlone state msg
          | .ok pixels => do
              let stride ← checkU32 (hdr.width * 4)
              .ok (state.store desc.id pixels, state.region copy pixels stride)

def lzPixels (stream : List UInt8) (hdr : LzHeader) (numPixels : Nat) :
    Option (Except Lz.LzFault (List UInt8)) :=
  match hdr.imageType with
  | .rgb32 => some (Lz.decompressRgb32 stream numPixels)
  | .rgba => some (Lz.decompressRgba stream numPixels)
  | _ => none

def decodeLzRgb (state : DisplayState) (msg : Message) (copy : DrawCopy) (desc : ImageDescriptor) :
    Except DisplayFault (DisplayState × DisplayEvent) :=
  match inlineData msg copy with
  | none => leftAlone state msg
  | some compressed =>
      if compressed.length < Lz.LZ_HEADER_SIZE then leftAlone state msg
      else
        match LzHeader.decode compressed with
        | .error _ => leftAlone state msg
        | .ok hdr =>
            let numPixels := hdr.width * hdr.height
            if numPixels = 0 ∨ 2 ^ 64 ≤ numPixels then leftAlone state msg
            else
              match lzPixels (compressed.drop Lz.LZ_HEADER_SIZE) hdr numPixels with
              | none => leftAlone state msg
              | some decoded => do
                  let result ← attempt decoded
                  match result with
                  | .error _ => leftAlone state msg
                  | .ok decodedPixels => do
                      let stride ← checkU32 (hdr.width * 4)
                      let pixels ← topToBottom hdr.topDown decodedPixels stride hdr.height
                      .ok (state.store desc.id pixels, state.region copy pixels stride)

/-- An uncompressed image, whose fields are what is left behind the descriptor. -/
def decodeBitmap (state : DisplayState) (msg : Message) (copy : DrawCopy) (desc : ImageDescriptor)
    (rest : List UInt8) : Except DisplayFault (DisplayState × DisplayEvent) :=
  match Bitmap.reader rest with
  | .error _ => leftAlone state msg
  | .ok (bitmap, _) =>
      if bitmap.paletteOffset ≠ 0 then leftAlone state msg
      else if bitmapBytesPerPixel bitmap.format ∉ [some 2, some 3, some 4] then leftAlone state msg
      else
        match readChunks msg.body bitmap.dataOffset with
        | .error _ => leftAlone state msg
        | .ok raw =>
            let expected := bitmap.stride * bitmap.height
            if 2 ^ 64 ≤ expected then leftAlone state msg
            else if raw.length < expected then leftAlone state msg
            else do
              let pixels ←
                topToBottom bitmap.isTopDown (raw.take expected) bitmap.stride bitmap.height
              .ok (state.store desc.id pixels, state.region copy pixels bitmap.stride)

def decodeDrawCopy (state : DisplayState) (msg : Message) :
    Except DisplayFault (DisplayState × DisplayEvent) :=
  match DrawCopy.decode msg.body with
  | .error _ => leftAlone state msg
  | .ok copy =>
      let imgStart := copy.srcBitmapOffset
      if imgStart = 0 ∨ imgStart + ImageDescriptor.SIZE > msg.body.length then leftAlone state msg
      else
        match ImageDescriptor.reader (msg.body.drop imgStart) with
        | .error _ => leftAlone state msg
        | .ok (desc, rest) =>
            if desc.imageType = ImageType.LZ_RGB then decodeLzRgb state msg copy desc
            else if desc.imageType = ImageType.QUIC then decodeQuic state msg copy desc
            else if desc.imageType = ImageType.GLZ_RGB then decodeGlz state msg copy
            else if desc.imageType ≠ ImageType.BITMAP then leftAlone state msg
            else decodeBitmap state msg copy desc rest

/-! ### The other messages -/

def decodeDrawFill (state : DisplayState) (msg : Message) : DisplayEvent :=
  match DrawFill.decode msg.body with
  | .error _ => unhandled DisplayMsg.DRAW_FILL msg.body.length
  | .ok fill =>
      if fill.isSimpleSolid = false then unhandled DisplayMsg.DRAW_FILL msg.body.length
      else
        match fill.solidColor with
        | none => unhandled DisplayMsg.DRAW_FILL msg.body.length
        | some color =>
            .region fill.base.surfaceId fill.base.bounds (.solidColor color)
              (state.surfaceFormat fill.base.surfaceId)

def emit (event : DisplayEvent) : Effect := .emit (.display event)

def emitStreamFrame (jpeg : JpegDecoder) (state : DisplayState) (streamId multiMediaTime : Nat)
    (sizedDest : Option Rect) (payload : List UInt8) : Except DisplayFault (List Effect) :=
  match state.streams.lookup streamId with
  | none => .ok []
  | some info =>
      let destRect := sizedDest.getD info.dest
      match info.codec with
      | .mjpeg => do
          let result ← attempt (decodeMjpeg jpeg payload)
          match result with
          | .ok frame =>
              let stride := frame.width * 4
              .ok [emit (.streamFrame streamId multiMediaTime destRect (.raw frame.bgra stride))]
          | .error _ => .ok []
      | _ => .ok []

/-- The arms of the `match`. Where the source passes on a parse error the task ends. -/
def handleArm (jpeg : JpegDecoder) (state : DisplayState) (msg : Message) :
    Except DisplayFault (DisplayState × List Effect) :=
  if msg.msgType = Msg.PING then do
    let ping ← (Ping.decode msg.body).mapError .error
    .ok (state, [pong ping])
  else if msg.msgType = Msg.SET_ACK then do
    let ack ← (SetAck.decode msg.body).mapError .error
    .ok ({ state with ack := AckState.onSetAck ack.window }, [ackSync ack])
  else if msg.msgType = Msg.NOTIFY ∨ msg.msgType = Msg.MIGRATE ∨ msg.msgType = Msg.MIGRATE_DATA then
    .ok (state, [])
  else if msg.msgType = DisplayMsg.MODE then do
    let m ← (Mode.decode msg.body).mapError .error
    .ok (state, [emit (.mode m.xRes m.yRes m.bits)])
  else if msg.msgType = DisplayMsg.MARK then .ok (state, [emit .mark])
  else if msg.msgType = DisplayMsg.RESET then .ok ({ state with surfaces := ∅ }, [emit .reset])
  else if msg.msgType = DisplayMsg.SURFACE_CREATE then do
    let s ← (SurfaceCreate.decode msg.body).mapError .error
    let fmt := SurfaceFormat.fromRaw s.format
    .ok ({ state with surfaces := state.surfaces.insert s.surfaceId fmt },
      [emit (.surfaceCreated s.surfaceId s.width s.height fmt
        (s.flags &&& SurfaceFlags.PRIMARY ≠ 0))])
  else if msg.msgType = DisplayMsg.SURFACE_DESTROY then do
    let s ← (SurfaceDestroy.decode msg.body).mapError .error
    .ok ({ state with surfaces := state.surfaces.erase s.surfaceId },
      [emit (.surfaceDestroyed s.surfaceId)])
  else if msg.msgType = DisplayMsg.MONITORS_CONFIG then do
    let m ← (MonitorsConfig.decode msg.body).mapError .error
    .ok (state, [emit (.monitorsConfig m.maxAllowed m.heads)])
  else if msg.msgType = DisplayMsg.DRAW_FILL then .ok (state, [emit (decodeDrawFill state msg)])
  else if msg.msgType = DisplayMsg.DRAW_COPY then do
    let (state, evt) ← decodeDrawCopy state msg
    .ok (state, [emit evt])
  else if msg.msgType = DisplayMsg.COPY_BITS then
    match CopyBits.decode msg.body with
    | .ok cb =>
        .ok (state, [emit (.copyRect cb.base.surfaceId cb.srcPos.x cb.srcPos.y cb.base.bounds)])
    | .error _ => .ok (state, [])
  else if msg.msgType = DisplayMsg.STREAM_CREATE then
    match StreamCreate.decode msg.body with
    | .ok s =>
        let info := { codec := s.codec, dest := s.dest }
        .ok ({ state with streams := state.streams.insert s.streamId info },
          [emit (.streamCreated s.streamId s.surfaceId s.codec s.dest s.srcWidth s.srcHeight)])
    | .error _ => .ok (state, [])
  else if msg.msgType = DisplayMsg.STREAM_DATA then
    match StreamData.decode msg.body with
    | .ok d => do
        let effects ←
          emitStreamFrame jpeg state d.header.streamId d.header.multiMediaTime none d.data
        .ok (state, effects)
    | .error _ => .ok (state, [])
  else if msg.msgType = DisplayMsg.STREAM_DATA_SIZED then
    match StreamDataSized.decode msg.body with
    | .ok d => do
        let effects ←
          emitStreamFrame jpeg state d.header.streamId d.header.multiMediaTime (some d.dest) d.data
        .ok (state, effects)
    | .error _ => .ok (state, [])
  else if msg.msgType = DisplayMsg.STREAM_DESTROY then
    match StreamDestroy.decode msg.body with
    | .ok d =>
        .ok ({ state with streams := state.streams.erase d.streamId },
          [emit (.streamDestroyed d.streamId)])
    | .error _ => .ok (state, [])
  else if msg.msgType = DisplayMsg.STREAM_DESTROY_ALL then
    -- The source takes the ids in the order of a hash table.
    .ok ({ state with streams := ∅ }, state.streams.keys.map fun id => emit (.streamDestroyed id))
  else .ok (state, [emit (unhandled msg.msgType msg.body.length)])

def handle (jpeg : JpegDecoder) (state : DisplayState) (msg : Message) :
    Except DisplayFault (DisplayState × List Effect) := do
  let (state, effects) ← handleArm jpeg state msg
  if uncounted msg.msgType then .ok (state, effects)
  else
    let (ack, exhausted) := state.ack.noteMessage
    .ok ({ state with ack := ack }, if exhausted then effects ++ [ackMessage] else effects)

/-- The task on one message, as long as the embedder receives events. -/
def displayLoop (jpeg : JpegDecoder) : Machine DisplayState Message Effect := fun state msg =>
  match handle jpeg state msg with
  | .ok (next, effects) => (effects, some next)
  | .error _ => ([], none)

end Capsaicin.Client
