/-
The GLZ decompressor for 32-bit images.
-/

import Capsaicin.Glz.Format
import Capsaicin.Glz.Window
import Capsaicin.Library.ByteCode
import Capsaicin.Library.Lz77
import Capsaicin.Lz.Decoder

namespace Capsaicin.Glz

open ByteCode (takeByte extendLen)
open Lz (Cursor)
open Lz77 (copyRun takeRun decodeLoop)
open Program (index assign)

def MAX_COPY : Nat := 32

def take (body : List UInt8) (ip : Nat) : Except GlzFault (UInt8 × Nat) :=
  takeByte (.error (.short 1 0)) body ip

def addU32 (left right : Nat) : Except GlzFault Nat :=
  if left + right < 2 ^ 32 then .ok (left + right) else .error (.panic .overflow)

/-- A product and a sum of `usize`, of 64 bits. -/
def mulUsize (left right : Nat) : Except GlzFault Nat :=
  if left * right < 2 ^ 64 then .ok (left * right) else .error (.panic .overflow)

def addUsize (left right : Nat) : Except GlzFault Nat :=
  if left + right < 2 ^ 64 then .ok (left + right) else .error (.panic .overflow)

/-- The fields of a back-reference, and the position behind them. -/
structure Reference where
  len : Nat
  pixelOfs : Nat
  imageDist : Nat
  ip : Nat
  deriving DecidableEq, Repr

def readLen (body : List UInt8) (ip ctrl : Nat) : Except GlzFault (Nat × Nat) :=
  let len := ctrl >>> 5
  if len = 7 then extendLen addU32 (.error (.short 1 0)) body (body.length + 1) ip len
  else .ok (len, ip)

/-- The extra bytes of the image distance, the first one shifted by `shift`. -/
def readExtras (body : List UInt8) : Nat → Nat → Nat → Nat → Except GlzFault (Nat × Nat)
  | 0, _, ip, imageDist => .ok (imageDist, ip)
  | count + 1, shift, ip, imageDist => do
      let (extra, ip) ← take body ip
      let imageDist ← addU32 imageDist (extra.toNat <<< shift)
      readExtras body count (shift + 8) ip imageDist

def readReference (body : List UInt8) (ip ctrl : Nat) : Except GlzFault Reference := do
  let pixelFlag := (ctrl >>> 4) &&& 1
  let pixelOfs := ctrl &&& 0x0f
  let (len, ip) ← readLen body ip ctrl
  let (code, ip) ← take body ip
  let pixelOfs ← addU32 pixelOfs (code.toNat <<< 4)
  let (code, ip) ← take body ip
  let imageFlag := (code.toNat >>> 6) &&& 3
  if pixelFlag = 0 then do
    let (imageDist, ip) ← readExtras body imageFlag 6 ip (code.toNat &&& 0x3f)
    .ok { len := len, pixelOfs := pixelOfs, imageDist := imageDist, ip := ip }
  else do
    let pixelFlag2 := (code.toNat >>> 5) &&& 1
    let pixelOfs ← addU32 pixelOfs ((code.toNat &&& 0x1f) <<< 12)
    let (imageDist, ip) ← readExtras body imageFlag 0 ip 0
    if pixelFlag2 ≠ 0 then do
      let (extra, ip) ← take body ip
      let pixelOfs ← addU32 pixelOfs (extra.toNat <<< 17)
      .ok { len := len, pixelOfs := pixelOfs, imageDist := imageDist, ip := ip }
    else .ok { len := len, pixelOfs := pixelOfs, imageDist := imageDist, ip := ip }

def copyPixel (src dst : Nat) (out : List UInt8) : Except GlzFault (List UInt8) := do
  let b ← index out (src * 4)
  let out ← assign out (dst * 4) b
  let g ← index out (src * 4 + 1)
  let out ← assign out (dst * 4 + 1) g
  let r ← index out (src * 4 + 2)
  let out ← assign out (dst * 4 + 2) r
  assign out (dst * 4 + 3) 0

def crossPixel (pixels : List UInt8) (s dst : Nat) (out : List UInt8) :
    Except GlzFault (List UInt8) := do
  let b ← index pixels s
  let out ← assign out (dst * 4) b
  let g ← index pixels (s + 1)
  let out ← assign out (dst * 4 + 1) g
  let r ← index pixels (s + 2)
  let out ← assign out (dst * 4 + 2) r
  assign out (dst * 4 + 3) 0

def crossRun (pixels : List UInt8) (bpp : Nat) : Nat → Nat → Nat → List UInt8 →
    Except GlzFault (List UInt8)
  | 0, _, _, out => .ok out
  | count + 1, s, dst, out => do
      let out ← crossPixel pixels s dst out
      crossRun pixels bpp count (s + bpp) (dst + 1) out

def literalPixel (body : List UInt8) (ip dst : Nat) (out : List UInt8) :
    Except GlzFault (Nat × List UInt8) := do
  let (b, ip) ← take body ip
  let out ← assign out (dst * 4) b
  let (g, ip) ← take body ip
  let out ← assign out (dst * 4 + 1) g
  let (r, ip) ← take body ip
  let out ← assign out (dst * 4 + 2) r
  let out ← assign out (dst * 4 + 3) 0
  .ok (ip, out)

def intra (reference : Reference) (cursor : Cursor) : Except GlzFault Cursor :=
  if reference.pixelOfs = 0 ∨ reference.pixelOfs > cursor.op then .error (.error .badReference)
  else do
    let out ←
      copyRun copyPixel (cursor.op - reference.pixelOfs) cursor.op reference.len cursor.out
    .ok { ip := reference.ip, op := cursor.op + reference.len, out := out }

/-- The `wrapping_sub` of the image ids. -/
def targetId (selfId imageDist : Nat) : Nat := (selfId + 2 ^ 64 - imageDist) % 2 ^ 64

def cross (window : Option GlzWindow) (selfId : Nat) (reference : Reference) (cursor : Cursor) :
    Except GlzFault Cursor :=
  match window with
  | none => .error (.error (.crossImage reference.imageDist))
  | some window =>
      match window.get (targetId selfId reference.imageDist) with
      | none => .error (.error (.crossImage reference.imageDist))
      | some entry => do
          let srcStart ← mulUsize reference.pixelOfs entry.bpp
          let srcBytes ← mulUsize reference.len entry.bpp
          let srcEnd ← addUsize srcStart srcBytes
          if srcEnd > entry.pixels.length then .error (.error .badReference)
          else do
            let out ← crossRun entry.pixels entry.bpp reference.len srcStart cursor.op cursor.out
            .ok { ip := reference.ip, op := cursor.op + reference.len, out := out }

def backReference (window : Option GlzWindow) (selfId : Nat) (body : List UInt8)
    (nPixels ctrl : Nat) (cursor : Cursor) : Except GlzFault Cursor := do
  let fields ← readReference body cursor.ip ctrl
  -- Only a reference inside the image is stored less one.
  let pixelOfs ← if fields.imageDist = 0 then addU32 fields.pixelOfs 1 else .ok fields.pixelOfs
  let reference := { fields with pixelOfs := pixelOfs }
  if cursor.op + reference.len > nPixels then .error (.error .badReference)
  else if reference.imageDist = 0 then intra reference cursor
  else cross window selfId reference cursor

def literal (body : List UInt8) (nPixels ctrl : Nat) (cursor : Cursor) : Except GlzFault Cursor :=
  if cursor.op + (ctrl + 1) > nPixels then .error (.error .badReference)
  else do
    let (ip, out) ← takeRun (literalPixel body) (ctrl + 1) cursor.ip cursor.op cursor.out
    .ok { ip := ip, op := cursor.op + (ctrl + 1), out := out }

def token (window : Option GlzWindow) (selfId : Nat) (body : List UInt8) (nPixels : Nat)
    (cursor : Cursor) : Except GlzFault Cursor := do
  let (ctrl, ip) ← take body cursor.ip
  if ctrl.toNat ≥ MAX_COPY then
    backReference window selfId body nPixels ctrl.toNat { cursor with ip := ip }
  else literal body nPixels ctrl.toNat { cursor with ip := ip }

/-- Each round of the main loop reads a byte. -/
def imageLoop (window : Option GlzWindow) (selfId : Nat) (body : List UInt8) (nPixels : Nat) :
    Nat → Cursor → Except GlzFault Cursor :=
  decodeLoop (token window selfId body nPixels) .fuel nPixels

def decompressRgb32Inner (stream : List UInt8) (header : GlzHeader) (window : Option GlzWindow)
    (selfId : Nat) : Except GlzFault (List UInt8) := do
  let _ ← (validateDims header.width header.height 4).mapError .error
  if header.imageType ≠ .rgb32 then .error (.error (.unsupportedType header.imageType))
  else if stream.length < GLZ_HEADER_SIZE then .error (.panic .index)
  else do
    let body := stream.drop GLZ_HEADER_SIZE
    let nPixels := header.width * header.height
    let cursor ← imageLoop window selfId body nPixels (body.length + 1)
      { ip := 0, op := 0, out := List.replicate (nPixels * 4) 0 }
    .ok cursor.out

def decompressRgb32 (stream : List UInt8) (header : GlzHeader) (window : GlzWindow) :
    Except GlzFault (List UInt8) := decompressRgb32Inner stream header (some window) header.id

def decompressRgb32Intra (stream : List UInt8) (header : GlzHeader) :
    Except GlzFault (List UInt8) := decompressRgb32Inner stream header none header.id

end Capsaicin.Glz
