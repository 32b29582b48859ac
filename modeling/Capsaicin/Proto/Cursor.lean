/-
Bodies of the cursor channel.
-/

import Capsaicin.Proto.Types

namespace Capsaicin.Proto

namespace CursorMsg

def INIT : Nat := 101
def RESET : Nat := 102
def SET : Nat := 103
def MOVE : Nat := 104
def HIDE : Nat := 105
def TRAIL : Nat := 106
def INVAL_ONE : Nat := 107
def INVAL_ALL : Nat := 108

end CursorMsg

namespace CursorType

def ALPHA : Nat := 0

end CursorType

namespace CursorFlag

def CACHE_ME : Nat := 1
def FROM_CACHE : Nat := 2
def FROM_CACHE_LOSSLESS : Nat := 4

end CursorFlag

def MAX_CURSOR_DIM : Nat := 512
def MAX_CURSOR_BYTES : Nat := 512 * 512 * 4

structure CursorHeader where
  unique : Nat
  kind : Nat
  width : Nat
  height : Nat
  hotSpotX : Nat
  hotSpotY : Nat
  deriving DecidableEq, Repr

def CursorHeader.reader : Reader CursorHeader := do
  let unique ← Reader.u64
  let kind ← Reader.u16
  let width ← Reader.u16
  let height ← Reader.u16
  let hotSpotX ← Reader.u16
  let hotSpotY ← Reader.u16
  pure
    { unique := unique
      kind := kind
      width := width
      height := height
      hotSpotX := hotSpotX
      hotSpotY := hotSpotY }

def CursorHeader.encode (header : CursorHeader) : List UInt8 :=
  writeU64 header.unique ++ writeU16 header.kind ++ writeU16 header.width ++
    writeU16 header.height ++ writeU16 header.hotSpotX ++ writeU16 header.hotSpotY

structure Cursor where
  flags : Nat
  header : CursorHeader
  data : List UInt8
  deriving DecidableEq, Repr

/-- The `saturating_mul` of two 16-bit values does not saturate. -/
def Cursor.reader : Reader Cursor := do
  let flags ← Reader.u16
  let header ← CursorHeader.reader
  if header.width > MAX_CURSOR_DIM ∨ header.height > MAX_CURSOR_DIM then
    throw (.sizeTooLarge (header.width * header.height) (MAX_CURSOR_DIM * MAX_CURSOR_DIM))
  else do
    let data ←
      if flags &&& CursorFlag.FROM_CACHE ≠ 0 ∨ flags &&& CursorFlag.FROM_CACHE_LOSSLESS ≠ 0 then
        pure []
      else do
        let n ← Reader.remaining
        Reader.bytes n
    if data.length > MAX_CURSOR_BYTES then
      throw (.sizeTooLarge (data.length % 2 ^ 32) MAX_CURSOR_BYTES)
    else pure { flags := flags, header := header, data := data }

def Cursor.encode (cursor : Cursor) : List UInt8 :=
  writeU16 cursor.flags ++ cursor.header.encode ++ cursor.data

structure CursorInit where
  positionX : Int
  positionY : Int
  trailLength : Nat
  trailFrequency : Nat
  visible : Nat
  cursor : Cursor
  deriving DecidableEq, Repr

def CursorInit.reader : Reader CursorInit := do
  let positionX ← Reader.i16
  let positionY ← Reader.i16
  let trailLength ← Reader.u16
  let trailFrequency ← Reader.u16
  let visible ← Reader.u8
  let cursor ← Cursor.reader
  pure
    { positionX := positionX
      positionY := positionY
      trailLength := trailLength
      trailFrequency := trailFrequency
      visible := visible
      cursor := cursor }

def CursorInit.decode (buf : List UInt8) : Except ProtoError CursorInit :=
  CursorInit.reader.decode buf

structure CursorSet where
  positionX : Int
  positionY : Int
  visible : Nat
  cursor : Cursor
  deriving DecidableEq, Repr

def CursorSet.reader : Reader CursorSet := do
  let positionX ← Reader.i16
  let positionY ← Reader.i16
  let visible ← Reader.u8
  let cursor ← Cursor.reader
  pure { positionX := positionX, positionY := positionY, visible := visible, cursor := cursor }

def CursorSet.decode (buf : List UInt8) : Except ProtoError CursorSet := CursorSet.reader.decode buf

structure CursorMove where
  positionX : Int
  positionY : Int
  deriving DecidableEq, Repr

def CursorMove.reader : Reader CursorMove := do
  let positionX ← Reader.i16
  let positionY ← Reader.i16
  pure { positionX := positionX, positionY := positionY }

def CursorMove.decode (buf : List UInt8) : Except ProtoError CursorMove :=
  CursorMove.reader.decode buf

structure CursorInvalOne where
  unique : Nat
  deriving DecidableEq, Repr

def CursorInvalOne.reader : Reader CursorInvalOne := do
  let unique ← Reader.u64
  pure { unique := unique }

def CursorInvalOne.decode (buf : List UInt8) : Except ProtoError CursorInvalOne :=
  CursorInvalOne.reader.decode buf

end Capsaicin.Proto
