/-
The QUIC stream header, its size caps and the errors of the decoder.
-/

import Capsaicin.Library.Bytes
import Capsaicin.Library.Program
import Capsaicin.ImageDims

namespace Capsaicin.Quic

open Bytes (ofLe toLe slice)

inductive QuicError where
  | short (need avail : Nat)
  | badMagic (expected got : Nat)
  | badVersion (major minor : Nat)
  | badImageType (value : Nat)
  | tooLarge (width height : Nat)
  deriving DecidableEq, Repr

abbrev QuicFault := Program.Fault QuicError

def QUIC_MAGIC : Nat := 0x43495551
def QUIC_VERSION : Nat := 0
def MAX_IMAGE_DIM : Nat := 16384
def MAX_IMAGE_BYTES : Nat := 64 * 1024 * 1024
def QUIC_HEADER_SIZE : Nat := 20

def validateDims (width height bpp : Nat) : Except QuicError Nat :=
  checkDims .tooLarge MAX_IMAGE_DIM MAX_IMAGE_BYTES width height bpp

inductive QuicImageType where
  | gray
  | rgb16
  | rgb24
  | rgb32
  | rgba
  deriving DecidableEq, Repr

def QuicImageType.fromU32 : Nat → Except QuicError QuicImageType
  | 1 => .ok .gray
  | 2 => .ok .rgb16
  | 3 => .ok .rgb24
  | 4 => .ok .rgb32
  | 5 => .ok .rgba
  | value => .error (.badImageType value)

def QuicImageType.toU32 : QuicImageType → Nat
  | .gray => 1
  | .rgb16 => 2
  | .rgb24 => 3
  | .rgb32 => 4
  | .rgba => 5

structure QuicHeader where
  imageType : QuicImageType
  width : Nat
  height : Nat
  deriving DecidableEq, Repr

def QuicHeader.decode (buf : List UInt8) : Except QuicError QuicHeader :=
  if buf.length < QUIC_HEADER_SIZE then .error (.short QUIC_HEADER_SIZE buf.length)
  else
    let magic := ofLe (slice buf 0 4)
    if magic ≠ QUIC_MAGIC then .error (.badMagic QUIC_MAGIC magic)
    else
      let version := ofLe (slice buf 4 8)
      if version ≠ QUIC_VERSION then .error (.badVersion (version >>> 16) (version &&& 0xffff))
      else do
        let imageType ← QuicImageType.fromU32 (ofLe (slice buf 8 12))
        pure
          { imageType := imageType
            width := ofLe (slice buf 12 16)
            height := ofLe (slice buf 16 20) }

def QuicHeader.encode (header : QuicHeader) : List UInt8 :=
  toLe 4 QUIC_MAGIC ++ toLe 4 QUIC_VERSION ++ toLe 4 header.imageType.toU32 ++
    toLe 4 header.width ++ toLe 4 header.height

theorem QuicHeader.length_encode (header : QuicHeader) :
    header.encode.length = QUIC_HEADER_SIZE := by
  simp only [encode, List.length_append, Bytes.length_toLe, QUIC_HEADER_SIZE]

theorem validateDims_of_caps {width height bpp : Nat} (widthPositive : 0 < width)
    (heightPositive : 0 < height) (widthCap : width ≤ MAX_IMAGE_DIM)
    (heightCap : height ≤ MAX_IMAGE_DIM) (bytes : width * height * bpp ≤ MAX_IMAGE_BYTES) :
    validateDims width height bpp = .ok (width * height * bpp) :=
  checkDims_of_caps widthPositive heightPositive widthCap heightCap bytes (by decide) (by decide)

end Capsaicin.Quic
