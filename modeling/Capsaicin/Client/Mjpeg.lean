/-
Frames of a video stream. The decoder of a JPEG image is a parameter.
-/

import Capsaicin.Library.Program

namespace Capsaicin.Client

open Program (index)

inductive PixelFormat where
  | l8
  | l16
  | rgb24
  | cmyk32
  deriving DecidableEq, Repr

structure ImageInfo where
  width : Nat
  height : Nat
  pixelFormat : PixelFormat
  deriving DecidableEq, Repr

/-- What the decoder returns: the pixels, and the description of the image. -/
abbrev JpegDecoder := List UInt8 → Except String (List UInt8 × Option ImageInfo)

structure DecodedFrame where
  width : Nat
  height : Nat
  bgra : List UInt8
  deriving DecidableEq, Repr

inductive MjpegError where
  | jpeg (text : String)
  | unsupportedPixelFormat (format : PixelFormat)
  | noDimensions
  deriving DecidableEq, Repr

abbrev MjpegFault := Program.Fault MjpegError

def MAX_MJPEG_DIM : Nat := 16384

def rgbPixel (pixels : List UInt8) (i : Nat) : Except MjpegFault (List UInt8) := do
  let b ← index pixels (i * 3 + 2)
  let g ← index pixels (i * 3 + 1)
  let r ← index pixels (i * 3)
  .ok [b, g, r, 0xFF]

def grayPixel (pixels : List UInt8) (i : Nat) : Except MjpegFault (List UInt8) := do
  let g ← index pixels i
  .ok [g, g, g, 0xFF]

/-- The product of two sides within the caps does not overflow. -/
def decodeMjpeg (jpeg : JpegDecoder) (payload : List UInt8) : Except MjpegFault DecodedFrame := do
  let (pixels, found) ← (jpeg payload).mapError fun text => .error (.jpeg text)
  match found with
  | none => .error (.error .noDimensions)
  | some info =>
      let w := info.width
      let h := info.height
      if w = 0 ∨ h = 0 ∨ w > MAX_MJPEG_DIM ∨ h > MAX_MJPEG_DIM then
        .error (.error (.jpeg s!"frame dimensions {w}×{h} out of range"))
      else
        match info.pixelFormat with
        | .rgb24 => do
            let rows ← (List.range (w * h)).mapM (rgbPixel pixels)
            .ok { width := w, height := h, bgra := rows.flatten }
        | .l8 => do
            let rows ← (List.range (w * h)).mapM (grayPixel pixels)
            .ok { width := w, height := h, bgra := rows.flatten }
        | other => .error (.error (.unsupportedPixelFormat other))

end Capsaicin.Client
