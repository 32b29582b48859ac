/-
The LZ stream header, its size caps and the errors of the decoder. Unlike the rest
of the protocol the payload is big-endian.
-/

import Capsaicin.Library.Bytes
import Capsaicin.Library.Program
import Capsaicin.ImageDims

namespace Capsaicin.Lz

open Bytes (ofBe toBe slice)

inductive LzError where
  | short (need have_ : Nat)
  | badMagic (expected got : Nat)
  | badVersion (major minor : Nat)
  | badImageType (value : Nat)
  | tooLarge (width height : Nat)
  deriving DecidableEq, Repr

abbrev LzFault := Program.Fault LzError

def MAX_IMAGE_DIM : Nat := 16384
def MAX_IMAGE_BYTES : Nat := 64 * 1024 * 1024

def validateDims (width height bpp : Nat) : Except LzError Nat :=
  checkDims .tooLarge MAX_IMAGE_DIM MAX_IMAGE_BYTES width height bpp

def LZ_MAGIC : Nat := 0x20205a4c
def LZ_VERSION : Nat := 0x00010001
def LZ_HEADER_SIZE : Nat := 28

inductive LzImageType where
  | plt1Le
  | plt1Be
  | plt4Le
  | plt4Be
  | plt8
  | rgb16
  | rgb24
  | rgb32
  | rgba
  | xxxa
  | a8
  deriving DecidableEq, Repr

/-- An unknown type is reported as a short buffer of nothing. -/
def LzImageType.fromU32 : Nat → Except LzError LzImageType
  | 1 => .ok .plt1Le
  | 2 => .ok .plt1Be
  | 3 => .ok .plt4Le
  | 4 => .ok .plt4Be
  | 5 => .ok .plt8
  | 6 => .ok .rgb16
  | 7 => .ok .rgb24
  | 8 => .ok .rgb32
  | 9 => .ok .rgba
  | 10 => .ok .xxxa
  | 11 => .ok .a8
  | _ => .error (.short 0 0)

def LzImageType.toU32 : LzImageType → Nat
  | .plt1Le => 1
  | .plt1Be => 2
  | .plt4Le => 3
  | .plt4Be => 4
  | .plt8 => 5
  | .rgb16 => 6
  | .rgb24 => 7
  | .rgb32 => 8
  | .rgba => 9
  | .xxxa => 10
  | .a8 => 11

structure LzHeader where
  imageType : LzImageType
  width : Nat
  height : Nat
  stride : Nat
  topDown : Bool
  deriving DecidableEq, Repr

def LzHeader.decode (buf : List UInt8) : Except LzError LzHeader :=
  if buf.length < LZ_HEADER_SIZE then .error (.short LZ_HEADER_SIZE buf.length)
  else
    let magic := ofBe (slice buf 0 4)
    if magic ≠ LZ_MAGIC then .error (.badMagic LZ_MAGIC magic)
    else
      let version := ofBe (slice buf 4 8)
      if version ≠ LZ_VERSION then .error (.badVersion (version >>> 16) (version &&& 0xffff))
      else do
        let imageType ← LzImageType.fromU32 (ofBe (slice buf 8 12))
        pure
          { imageType := imageType
            width := ofBe (slice buf 12 16)
            height := ofBe (slice buf 16 20)
            stride := ofBe (slice buf 20 24)
            topDown := ofBe (slice buf 24 28) ≠ 0 }

def LzHeader.encode (header : LzHeader) : List UInt8 :=
  toBe 4 LZ_MAGIC ++ toBe 4 LZ_VERSION ++ toBe 4 header.imageType.toU32 ++ toBe 4 header.width ++
    toBe 4 header.height ++ toBe 4 header.stride ++ toBe 4 (if header.topDown then 1 else 0)

theorem LzHeader.encode_length (header : LzHeader) : header.encode.length = LZ_HEADER_SIZE := by
  unfold LzHeader.encode LZ_HEADER_SIZE
  simp only [List.length_append, Bytes.length_toBe]

structure LzHeader.Fits (header : LzHeader) : Prop where
  width : header.width < 256 ^ 4
  height : header.height < 256 ^ 4
  stride : header.stride < 256 ^ 4

theorem LzHeader.decode_encode {header : LzHeader} (fits : header.Fits) (rest : List UInt8) :
    LzHeader.decode (header.encode ++ rest) = .ok header := by
  obtain ⟨imageType, width, height, stride, topDown⟩ := header
  obtain ⟨fitsWidth, fitsHeight, fitsStride⟩ := fits
  dsimp only at fitsWidth fitsHeight fitsStride
  generalize whole : (LzHeader.mk imageType width height stride topDown).encode ++ rest = buf
  have long : ¬ buf.length < LZ_HEADER_SIZE := by
    rw [← whole, List.length_append, LzHeader.encode_length]
    omega
  simp only [LzHeader.encode, List.append_assoc] at whole
  have magicAt : slice buf 0 4 = toBe 4 LZ_MAGIC := by
    simp [← whole]
  have versionAt : slice buf 4 8 = toBe 4 LZ_VERSION := by
    simp [← whole]
  have typeAt : slice buf 8 12 = toBe 4 imageType.toU32 := by
    simp [← whole]
  have widthAt : slice buf 12 16 = toBe 4 width := by
    simp [← whole]
  have heightAt : slice buf 16 20 = toBe 4 height := by
    simp [← whole]
  have strideAt : slice buf 20 24 = toBe 4 stride := by
    simp [← whole]
  have orderAt : slice buf 24 28 = toBe 4 (if topDown then 1 else 0) := by
    simp [← whole]
  have magic : ofBe (toBe 4 LZ_MAGIC) = LZ_MAGIC := Bytes.ofBe_toBe (by decide)
  have version : ofBe (toBe 4 LZ_VERSION) = LZ_VERSION := Bytes.ofBe_toBe (by decide)
  have type : LzImageType.fromU32 (ofBe (toBe 4 imageType.toU32)) = .ok imageType := by
    cases imageType <;> decide
  have order : decide (ofBe (toBe 4 (if topDown then 1 else 0)) ≠ 0) = topDown := by
    cases topDown <;> decide
  rw [LzHeader.decode, if_neg long, magicAt, versionAt, typeAt, widthAt, heightAt, strideAt, orderAt,
    magic, version, type, Bytes.ofBe_toBe fitsWidth, Bytes.ofBe_toBe fitsHeight,
    Bytes.ofBe_toBe fitsStride, order]
  rfl

end Capsaicin.Lz
