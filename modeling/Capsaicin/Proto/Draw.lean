/-
Drawing commands of the display channel. Offsets are measured from the start of the
message body.
-/

import Capsaicin.Proto.Types

namespace Capsaicin.Proto

namespace Ropd

def OP_PUT : Nat := 8

end Ropd

inductive Clip where
  | none
  | rects (offset : Nat)
  deriving DecidableEq, Repr

/-- Of an unknown type, the tag is taken as all that was there. -/
def Clip.reader : Reader Clip := do
  let tag ← Reader.u8
  if tag = 0 then pure .none
  else if tag = 1 then do
    let offset ← Reader.u32
    pure (.rects offset)
  else pure (.rects 0)

def Clip.encode : Clip → List UInt8
  | .none => writeU8 0
  | .rects offset => writeU8 1 ++ writeU32 offset

inductive Brush where
  | none
  | solid (color : Nat)
  | pattern (offset : Nat) (pos : Point)
  deriving DecidableEq, Repr

def Brush.reader : Reader Brush := do
  let tag ← Reader.u32
  if tag = 0 then pure .none
  else if tag = 1 then do
    let color ← Reader.u32
    pure (.solid color)
  else if tag = 2 then do
    let offset ← Reader.u32
    let pos ← Point.decode
    pure (.pattern offset pos)
  else pure .none

def Brush.encode : Brush → List UInt8
  | .none => writeU32 0
  | .solid color => writeU32 1 ++ writeU32 color
  | .pattern offset pos => writeU32 2 ++ writeU32 offset ++ writeI32 pos.x ++ writeI32 pos.y

structure QMask where
  flags : Nat
  pos : Point
  bitmapOffset : Nat
  deriving DecidableEq, Repr

def QMask.reader : Reader QMask := do
  let flags ← Reader.u8
  let pos ← Point.decode
  let bitmapOffset ← Reader.u32
  pure { flags := flags, pos := pos, bitmapOffset := bitmapOffset }

def QMask.encode (mask : QMask) : List UInt8 :=
  writeU8 mask.flags ++ writeI32 mask.pos.x ++ writeI32 mask.pos.y ++ writeU32 mask.bitmapOffset

def QMask.hasBitmap (mask : QMask) : Bool := mask.bitmapOffset ≠ 0

structure DrawBase where
  surfaceId : Nat
  bounds : Rect
  clip : Clip
  deriving DecidableEq, Repr

def DrawBase.reader : Reader DrawBase := do
  let surfaceId ← Reader.u32
  let bounds ← Rect.decode
  let clip ← Clip.reader
  pure { surfaceId := surfaceId, bounds := bounds, clip := clip }

def DrawBase.encode (base : DrawBase) : List UInt8 :=
  writeU32 base.surfaceId ++ base.bounds.encode ++ base.clip.encode

structure DrawFill where
  base : DrawBase
  brush : Brush
  ropDescriptor : Nat
  mask : QMask
  deriving DecidableEq, Repr

def DrawFill.reader : Reader DrawFill := do
  let base ← DrawBase.reader
  let brush ← Brush.reader
  let ropDescriptor ← Reader.u16
  let mask ← QMask.reader
  pure { base := base, brush := brush, ropDescriptor := ropDescriptor, mask := mask }

def DrawFill.decode (buf : List UInt8) : Except ProtoError DrawFill := DrawFill.reader.decode buf

def DrawFill.encode (fill : DrawFill) : List UInt8 :=
  fill.base.encode ++ fill.brush.encode ++ writeU16 fill.ropDescriptor ++ fill.mask.encode

def DrawFill.solidColor (fill : DrawFill) : Option Nat :=
  match fill.brush with
  | .solid color => some color
  | _ => none

def DrawFill.isSimpleSolid (fill : DrawFill) : Bool :=
  fill.base.clip = .none && fill.solidColor.isSome && fill.ropDescriptor = Ropd.OP_PUT &&
    !fill.mask.hasBitmap

structure CopyBits where
  base : DrawBase
  srcPos : Point
  deriving DecidableEq, Repr

def CopyBits.reader : Reader CopyBits := do
  let base ← DrawBase.reader
  let srcPos ← Point.decode
  pure { base := base, srcPos := srcPos }

def CopyBits.decode (buf : List UInt8) : Except ProtoError CopyBits := CopyBits.reader.decode buf

def CopyBits.encode (copy : CopyBits) : List UInt8 :=
  copy.base.encode ++ writeI32 copy.srcPos.x ++ writeI32 copy.srcPos.y

structure DrawCopy where
  base : DrawBase
  srcBitmapOffset : Nat
  srcArea : Rect
  ropDescriptor : Nat
  scaleMode : Nat
  mask : QMask
  deriving DecidableEq, Repr

def DrawCopy.reader : Reader DrawCopy := do
  let base ← DrawBase.reader
  let srcBitmapOffset ← Reader.u32
  let srcArea ← Rect.decode
  let ropDescriptor ← Reader.u16
  let scaleMode ← Reader.u8
  let mask ← QMask.reader
  pure
    { base := base
      srcBitmapOffset := srcBitmapOffset
      srcArea := srcArea
      ropDescriptor := ropDescriptor
      scaleMode := scaleMode
      mask := mask }

def DrawCopy.encode (copy : DrawCopy) : List UInt8 :=
  copy.base.encode ++ writeU32 copy.srcBitmapOffset ++ copy.srcArea.encode ++
    writeU16 copy.ropDescriptor ++ writeU8 copy.scaleMode ++ copy.mask.encode

def DrawCopy.decode (buf : List UInt8) : Except ProtoError DrawCopy := DrawCopy.reader.decode buf

end Capsaicin.Proto
