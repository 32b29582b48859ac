/-
Bodies of the display channel other than drawing commands: surfaces, monitors and
video streams.
-/

import Capsaicin.Proto.Draw
import Capsaicin.Proto.Main

namespace Capsaicin.Proto

namespace DisplayMsg

def MODE : Nat := 101
def MARK : Nat := 102
def RESET : Nat := 103
def COPY_BITS : Nat := 104
def STREAM_CREATE : Nat := 122
def STREAM_DATA : Nat := 123
def STREAM_CLIP : Nat := 124
def STREAM_DESTROY : Nat := 125
def STREAM_DESTROY_ALL : Nat := 126
def DRAW_FILL : Nat := 302
def DRAW_COPY : Nat := 304
def SURFACE_CREATE : Nat := 314
def SURFACE_DESTROY : Nat := 315
def MONITORS_CONFIG : Nat := 317
def STREAM_DATA_SIZED : Nat := 319

end DisplayMsg

def SurfaceFlags.PRIMARY : Nat := 1

structure DisplayInit where
  pixmapCacheId : Nat
  pixmapCacheSize : Int
  glzDictionaryId : Nat
  glzDictionaryWindowSize : Int
  deriving DecidableEq, Repr

def DisplayInit.reader : Reader DisplayInit := do
  let pixmapCacheId ← Reader.u8
  let pixmapCacheSize ← Reader.u64 >>= fun value => pure (Reader.signed 64 value)
  let glzDictionaryId ← Reader.u8
  let glzDictionaryWindowSize ← Reader.u32 >>= fun value => pure (Reader.signed 32 value)
  pure
    { pixmapCacheId := pixmapCacheId
      pixmapCacheSize := pixmapCacheSize
      glzDictionaryId := glzDictionaryId
      glzDictionaryWindowSize := glzDictionaryWindowSize }

def DisplayInit.decode (buf : List UInt8) : Except ProtoError DisplayInit :=
  DisplayInit.reader.decode buf

def DisplayInit.encode (init : DisplayInit) : List UInt8 :=
  writeU8 init.pixmapCacheId ++ writeU64 (unsigned 64 init.pixmapCacheSize) ++
    writeU8 init.glzDictionaryId ++ writeU32 (unsigned 32 init.glzDictionaryWindowSize)

structure Mode where
  xRes : Nat
  yRes : Nat
  bits : Nat
  deriving DecidableEq, Repr

def Mode.reader : Reader Mode := do
  let xRes ← Reader.u32
  let yRes ← Reader.u32
  let bits ← Reader.u32
  pure { xRes := xRes, yRes := yRes, bits := bits }

def Mode.decode (buf : List UInt8) : Except ProtoError Mode := Mode.reader.decode buf

def Mode.encode (mode : Mode) : List UInt8 :=
  writeU32 mode.xRes ++ writeU32 mode.yRes ++ writeU32 mode.bits

structure SurfaceCreate where
  surfaceId : Nat
  width : Nat
  height : Nat
  format : Nat
  flags : Nat
  deriving DecidableEq, Repr

def SurfaceCreate.reader : Reader SurfaceCreate := do
  let surfaceId ← Reader.u32
  let width ← Reader.u32
  let height ← Reader.u32
  let format ← Reader.u32
  let flags ← Reader.u32
  pure { surfaceId := surfaceId, width := width, height := height, format := format, flags := flags }

def SurfaceCreate.decode (buf : List UInt8) : Except ProtoError SurfaceCreate :=
  SurfaceCreate.reader.decode buf

def SurfaceCreate.encode (create : SurfaceCreate) : List UInt8 :=
  writeU32 create.surfaceId ++ writeU32 create.width ++ writeU32 create.height ++
    writeU32 create.format ++ writeU32 create.flags

structure SurfaceDestroy where
  surfaceId : Nat
  deriving DecidableEq, Repr

def SurfaceDestroy.reader : Reader SurfaceDestroy := do
  let surfaceId ← Reader.u32
  pure { surfaceId := surfaceId }

def SurfaceDestroy.decode (buf : List UInt8) : Except ProtoError SurfaceDestroy :=
  SurfaceDestroy.reader.decode buf

def SurfaceDestroy.encode (destroy : SurfaceDestroy) : List UInt8 := writeU32 destroy.surfaceId

structure Head where
  id : Nat
  surfaceId : Nat
  width : Nat
  height : Nat
  x : Nat
  y : Nat
  flags : Nat
  deriving DecidableEq, Repr

def Head.reader : Reader Head := do
  let id ← Reader.u32
  let surfaceId ← Reader.u32
  let width ← Reader.u32
  let height ← Reader.u32
  let x ← Reader.u32
  let y ← Reader.u32
  let flags ← Reader.u32
  pure
    { id := id
      surfaceId := surfaceId
      width := width
      height := height
      x := x
      y := y
      flags := flags }

def Head.encode (head : Head) : List UInt8 :=
  writeU32 head.id ++ writeU32 head.surfaceId ++ writeU32 head.width ++ writeU32 head.height ++
    writeU32 head.x ++ writeU32 head.y ++ writeU32 head.flags

structure MonitorsConfig where
  maxAllowed : Nat
  heads : List Head
  deriving DecidableEq, Repr

def MonitorsConfig.reader : Reader MonitorsConfig := do
  let count ← Reader.u16
  let maxAllowed ← Reader.u16
  let heads ← Reader.repeated Head.reader count
  pure { maxAllowed := maxAllowed, heads := heads }

def MonitorsConfig.decode (buf : List UInt8) : Except ProtoError MonitorsConfig :=
  MonitorsConfig.reader.decode buf

def MonitorsConfig.encode (config : MonitorsConfig) : List UInt8 :=
  writeU16 config.heads.length ++ writeU16 config.maxAllowed ++ config.heads.flatMap Head.encode

/-! ### Streams -/

inductive VideoCodec where
  | mjpeg
  | vp8
  | h264
  | vp9
  | h265
  deriving DecidableEq, Repr

def VideoCodec.fromU8 (value : Nat) : Reader VideoCodec :=
  if value = 1 then pure .mjpeg
  else if value = 2 then pure .vp8
  else if value = 3 then pure .h264
  else if value = 4 then pure .vp9
  else if value = 5 then pure .h265
  else throw (.badChannelType value)

def VideoCodec.toU8 : VideoCodec → Nat
  | .mjpeg => 1
  | .vp8 => 2
  | .h264 => 3
  | .vp9 => 4
  | .h265 => 5

def StreamFlags.TOP_DOWN : Nat := 1

structure StreamCreate where
  surfaceId : Nat
  streamId : Nat
  flags : Nat
  codec : VideoCodec
  stamp : Nat
  streamWidth : Nat
  streamHeight : Nat
  srcWidth : Nat
  srcHeight : Nat
  dest : Rect
  clip : Clip
  deriving DecidableEq, Repr

def StreamCreate.reader : Reader StreamCreate := do
  let surfaceId ← Reader.u32
  let streamId ← Reader.u32
  let flags ← Reader.u8
  let rawCodec ← Reader.u8
  let codec ← VideoCodec.fromU8 rawCodec
  let stamp ← Reader.u64
  let streamWidth ← Reader.u32
  let streamHeight ← Reader.u32
  let srcWidth ← Reader.u32
  let srcHeight ← Reader.u32
  let dest ← Rect.decode
  let clip ← Clip.reader
  pure
    { surfaceId := surfaceId
      streamId := streamId
      flags := flags
      codec := codec
      stamp := stamp
      streamWidth := streamWidth
      streamHeight := streamHeight
      srcWidth := srcWidth
      srcHeight := srcHeight
      dest := dest
      clip := clip }

def StreamCreate.decode (buf : List UInt8) : Except ProtoError StreamCreate :=
  StreamCreate.reader.decode buf

def StreamCreate.encode (create : StreamCreate) : List UInt8 :=
  writeU32 create.surfaceId ++ writeU32 create.streamId ++ writeU8 create.flags ++
    writeU8 create.codec.toU8 ++ writeU64 create.stamp ++ writeU32 create.streamWidth ++
    writeU32 create.streamHeight ++ writeU32 create.srcWidth ++ writeU32 create.srcHeight ++
    create.dest.encode ++ create.clip.encode

def StreamCreate.isTopDown (create : StreamCreate) : Bool :=
  create.flags &&& StreamFlags.TOP_DOWN ≠ 0

structure StreamDataHeader where
  streamId : Nat
  multiMediaTime : Nat
  deriving DecidableEq, Repr

def StreamDataHeader.reader : Reader StreamDataHeader := do
  let streamId ← Reader.u32
  let multiMediaTime ← Reader.u32
  pure { streamId := streamId, multiMediaTime := multiMediaTime }

def StreamDataHeader.encode (header : StreamDataHeader) : List UInt8 :=
  writeU32 header.streamId ++ writeU32 header.multiMediaTime

structure StreamData where
  header : StreamDataHeader
  data : List UInt8
  deriving DecidableEq, Repr

def StreamData.reader : Reader StreamData := do
  let header ← StreamDataHeader.reader
  let dataSize ← Reader.u32
  let data ← Reader.bytes dataSize
  pure { header := header, data := data }

def StreamData.decode (buf : List UInt8) : Except ProtoError StreamData :=
  StreamData.reader.decode buf

def StreamData.encode (message : StreamData) : List UInt8 :=
  writeU32 message.header.streamId ++ writeU32 message.header.multiMediaTime ++
    writeU32 message.data.length ++ message.data

structure StreamDataSized where
  header : StreamDataHeader
  width : Nat
  height : Nat
  dest : Rect
  data : List UInt8
  deriving DecidableEq, Repr

def StreamDataSized.reader : Reader StreamDataSized := do
  let header ← StreamDataHeader.reader
  let width ← Reader.u32
  let height ← Reader.u32
  let dest ← Rect.decode
  let dataSize ← Reader.u32
  let data ← Reader.bytes dataSize
  pure { header := header, width := width, height := height, dest := dest, data := data }

def StreamDataSized.decode (buf : List UInt8) : Except ProtoError StreamDataSized :=
  StreamDataSized.reader.decode buf

def StreamDataSized.encode (message : StreamDataSized) : List UInt8 :=
  message.header.encode ++ writeU32 message.width ++ writeU32 message.height ++
    message.dest.encode ++ writeU32 message.data.length ++ message.data

structure StreamDestroy where
  streamId : Nat
  deriving DecidableEq, Repr

def StreamDestroy.reader : Reader StreamDestroy := do
  let streamId ← Reader.u32
  pure { streamId := streamId }

def StreamDestroy.decode (buf : List UInt8) : Except ProtoError StreamDestroy :=
  StreamDestroy.reader.decode buf

def StreamDestroy.encode (destroy : StreamDestroy) : List UInt8 := writeU32 destroy.streamId

structure StreamClip where
  streamId : Nat
  clip : Clip
  deriving DecidableEq, Repr

def StreamClip.reader : Reader StreamClip := do
  let streamId ← Reader.u32
  let clip ← Clip.reader
  pure { streamId := streamId, clip := clip }

def StreamClip.decode (buf : List UInt8) : Except ProtoError StreamClip :=
  StreamClip.reader.decode buf

def StreamClip.encode (message : StreamClip) : List UInt8 :=
  writeU32 message.streamId ++ message.clip.encode

end Capsaicin.Proto
