/-
The LZ decompressor: one loop for the colour and the alpha pass.
-/

import Capsaicin.Library.ByteCode
import Capsaicin.Library.Lz77
import Capsaicin.Lz.Format

namespace Capsaicin.Lz

open ByteCode (takeByte extendLen)
open Lz77 (copyRun takeRun decodeLoop)
open Program (index assign)

def MAX_COPY : Nat := 32
def MAX_DISTANCE : Nat := 8191

def wrappingAdd (left right : Nat) : Nat := (left + right) % 2 ^ 32
def wrappingSub (left right : Nat) : Nat := (left + 2 ^ 32 - right) % 2 ^ 32

inductive Stage where
  | bgr
  | alpha
  deriving DecidableEq, Repr

abbrev Cursor := Lz77.Cursor (List UInt8)

def readByte (input : List UInt8) (ip : Nat) : Except LzFault (UInt8 × Nat) :=
  takeByte (.error (.short 1 0)) input ip

def copyPixel (stage : Stage) (src dst : Nat) (out : List UInt8) : Except LzFault (List UInt8) :=
  match stage with
  | .bgr => do
      let b ← index out (src * 4)
      let out ← assign out (dst * 4) b
      let g ← index out (src * 4 + 1)
      let out ← assign out (dst * 4 + 1) g
      let r ← index out (src * 4 + 2)
      let out ← assign out (dst * 4 + 2) r
      assign out (dst * 4 + 3) 0
  | .alpha => do
      let a ← index out (src * 4 + 3)
      assign out (dst * 4 + 3) a

def literalPixel (stage : Stage) (input : List UInt8) (ip dst : Nat) (out : List UInt8) :
    Except LzFault (Nat × List UInt8) :=
  match stage with
  | .bgr => do
      let (b, ip) ← readByte input ip
      let out ← assign out (dst * 4) b
      let (g, ip) ← readByte input ip
      let out ← assign out (dst * 4 + 1) g
      let (r, ip) ← readByte input ip
      let out ← assign out (dst * 4 + 2) r
      let out ← assign out (dst * 4 + 3) 0
      .ok (ip, out)
  | .alpha => do
      let (a, ip) ← readByte input ip
      let out ← assign out (dst * 4 + 3) a
      .ok (ip, out)

/-- The length field, less one. Its loop reads a byte each time round. -/
def readLen (input : List UInt8) (ip ctrl : Nat) : Except LzFault (Nat × Nat) :=
  let len := wrappingSub (ctrl >>> 5) 1
  if len = 6 then
    extendLen (fun len code => .ok (wrappingAdd len code)) (.error (.short 1 0)) input
      (input.length + 1) ip len
  else .ok (len, ip)

/-- `ofs - code`, which cannot underflow. -/
def subtract (left right : Nat) : Except LzFault Nat :=
  if left < right then .error (.panic .overflow) else .ok (left - right)

def readDistance (input : List UInt8) (ip ctrl : Nat) : Except LzFault (Nat × Nat) := do
  let (code, ip) ← readByte input ip
  let ofs := wrappingAdd ((ctrl &&& 31) <<< 8) code.toNat
  if code = 255 then do
    let high ← subtract ofs code.toNat
    if high = 31 <<< 8 then do
      let (hi, ip) ← readByte input ip
      let (lo, ip) ← readByte input ip
      .ok (wrappingAdd ((hi.toNat <<< 8) ||| lo.toNat) MAX_DISTANCE, ip)
    else .ok (ofs, ip)
  else .ok (ofs, ip)

def Stage.bias : Stage → Nat
  | .bgr => 1
  | .alpha => 3

def backReference (stage : Stage) (input : List UInt8) (numPixels ctrl : Nat) (cursor : Cursor) :
    Except LzFault Cursor := do
  let (len, ip) ← readLen input cursor.ip ctrl
  let (ofs, ip) ← readDistance input ip ctrl
  let len := wrappingAdd len stage.bias
  let ofs := wrappingAdd ofs 1
  if ofs = 0 ∨ ofs > cursor.op ∨ cursor.op + len > numPixels then .error (.error (.short len 0))
  else do
    let out ← copyRun (copyPixel stage) (cursor.op - ofs) cursor.op len cursor.out
    .ok { ip := ip, op := cursor.op + len, out := out }

def literal (stage : Stage) (input : List UInt8) (numPixels ctrl : Nat) (cursor : Cursor) :
    Except LzFault Cursor :=
  if cursor.op + (ctrl + 1) > numPixels then .error (.error (.short (ctrl + 1) 0))
  else do
    let (ip, out) ← takeRun (literalPixel stage input) (ctrl + 1) cursor.ip cursor.op cursor.out
    .ok { ip := ip, op := cursor.op + (ctrl + 1), out := out }

def token (stage : Stage) (input : List UInt8) (numPixels : Nat) (cursor : Cursor) :
    Except LzFault Cursor := do
  let (ctrl, ip) ← readByte input cursor.ip
  if ctrl.toNat ≥ MAX_COPY then
    backReference stage input numPixels ctrl.toNat { cursor with ip := ip }
  else literal stage input numPixels ctrl.toNat { cursor with ip := ip }

/-- Each round of the main loop reads a byte. -/
def passLoop (stage : Stage) (input : List UInt8) (numPixels : Nat) :
    Nat → Cursor → Except LzFault Cursor :=
  decodeLoop (token stage input numPixels) .fuel numPixels

def decompressPass (input : List UInt8) (numPixels : Nat) (out : List UInt8) (stage : Stage) :
    Except LzFault (Nat × List UInt8) :=
  if out.length < numPixels * 4 then .error (.panic .assertion)
  else do
    let cursor ← passLoop stage input numPixels (input.length + 1) { ip := 0, op := 0, out := out }
    .ok (cursor.ip, cursor.out)

/-- The product of the source is a `checked_mul` on a 64-bit `usize`. -/
def boundedPixels (numPixels : Nat) : Except LzFault Unit :=
  if numPixels = 0 then .error (.error (.tooLarge 0 0))
  else if 2 ^ 64 ≤ numPixels * 4 then .error (.error (.tooLarge 0 0))
  else if numPixels * 4 > MAX_IMAGE_BYTES then
    .error (.error (.tooLarge (min numPixels (2 ^ 32 - 1)) 0))
  else .ok ()

def decompressRgb32 (stream : List UInt8) (numPixels : Nat) : Except LzFault (List UInt8) := do
  boundedPixels numPixels
  let (_, out) ← decompressPass stream numPixels (List.replicate (numPixels * 4) 0) .bgr
  .ok out

def decompressRgba (stream : List UInt8) (numPixels : Nat) : Except LzFault (List UInt8) := do
  boundedPixels numPixels
  let (consumed, out) ← decompressPass stream numPixels (List.replicate (numPixels * 4) 0) .bgr
  let (_, out) ← decompressPass (stream.drop consumed) numPixels out .alpha
  .ok out

end Capsaicin.Lz
