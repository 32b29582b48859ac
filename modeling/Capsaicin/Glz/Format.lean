/-
The GLZ stream header, its size caps and the errors of the decoder. The fields are
big-endian, as in LZ.
-/

import Capsaicin.Lz.Format

namespace Capsaicin.Glz

open Bytes (ofBe toBe slice)
open Lz (LzError LzImageType)

inductive GlzError where
  | short (need have_ : Nat)
  | badMagic (expected got : Nat)
  | badVersion (major minor : Nat)
  | crossImage (dist : Nat)
  | badReference
  | unsupportedType (imageType : LzImageType)
  | lz (reason : LzError)
  | tooLarge (width height : Nat)
  deriving DecidableEq, Repr

abbrev GlzFault := Program.Fault GlzError

def MAX_IMAGE_DIM : Nat := 16384
def MAX_IMAGE_BYTES : Nat := 64 * 1024 * 1024

def validateDims (width height bpp : Nat) : Except GlzError Nat :=
  checkDims .tooLarge MAX_IMAGE_DIM MAX_IMAGE_BYTES width height bpp

def GLZ_MAGIC : Nat := 0x20205a4c
def GLZ_VERSION : Nat := 0x00010001
def GLZ_HEADER_SIZE : Nat := 33

structure GlzHeader where
  imageType : LzImageType
  topDown : Bool
  width : Nat
  height : Nat
  stride : Nat
  id : Nat
  winHeadDist : Nat
  deriving DecidableEq, Repr

def GlzHeader.decode (buf : List UInt8) : Except GlzError GlzHeader :=
  if buf.length < GLZ_HEADER_SIZE then .error (.short GLZ_HEADER_SIZE buf.length)
  else
    let magic := ofBe (slice buf 0 4)
    if magic ≠ GLZ_MAGIC then .error (.badMagic GLZ_MAGIC magic)
    else
      let version := ofBe (slice buf 4 8)
      if version ≠ GLZ_VERSION then .error (.badVersion (version >>> 16) (version &&& 0xffff))
      else do
        let tmp := ofBe (slice buf 8 9)
        let imageType ← (LzImageType.fromU32 (tmp &&& 0x0f)).mapError .lz
        pure
          { imageType := imageType
            topDown := (tmp >>> 4) ≠ 0
            width := ofBe (slice buf 9 13)
            height := ofBe (slice buf 13 17)
            stride := ofBe (slice buf 17 21)
            id := ofBe (slice buf 21 29)
            winHeadDist := ofBe (slice buf 29 33) }

def GlzHeader.encode (header : GlzHeader) : List UInt8 :=
  toBe 4 GLZ_MAGIC ++ toBe 4 GLZ_VERSION ++
    toBe 1 ((header.imageType.toU32 &&& 0x0f) ||| (if header.topDown then 1 <<< 4 else 0)) ++
    toBe 4 header.width ++ toBe 4 header.height ++ toBe 4 header.stride ++ toBe 8 header.id ++
    toBe 4 header.winHeadDist

theorem GlzHeader.encode_length (header : GlzHeader) : header.encode.length = GLZ_HEADER_SIZE := by
  unfold GlzHeader.encode GLZ_HEADER_SIZE
  simp only [List.length_append, Bytes.length_toBe]

theorem GlzHeader.decode_length {stream : List UInt8} {header : GlzHeader}
    (decoded : GlzHeader.decode stream = .ok header) : GLZ_HEADER_SIZE ≤ stream.length := by
  by_contra short
  rw [GlzHeader.decode, if_pos (Nat.not_le.mp short)] at decoded
  cases decoded

structure GlzHeader.Fits (header : GlzHeader) : Prop where
  width : header.width < 256 ^ 4
  height : header.height < 256 ^ 4
  stride : header.stride < 256 ^ 4
  id : header.id < 256 ^ 8
  winHeadDist : header.winHeadDist < 256 ^ 4

theorem GlzHeader.decode_encode {header : GlzHeader} (fits : header.Fits) (rest : List UInt8) :
    GlzHeader.decode (header.encode ++ rest) = .ok header := by
  obtain ⟨imageType, topDown, width, height, stride, id, winHeadDist⟩ := header
  obtain ⟨fitsWidth, fitsHeight, fitsStride, fitsId, fitsDist⟩ := fits
  dsimp only at fitsWidth fitsHeight fitsStride fitsId fitsDist
  generalize tag : (imageType.toU32 &&& 0x0f) ||| (if topDown then 1 <<< 4 else 0) = tmp
  have byte : tmp < 256 ^ 1 ∧ LzImageType.fromU32 (tmp &&& 0x0f) = .ok imageType ∧
      decide ((tmp >>> 4) ≠ 0) = topDown := by
    subst tag
    cases imageType <;> cases topDown <;> decide
  generalize whole : (GlzHeader.mk imageType topDown width height stride id winHeadDist).encode ++
    rest = buf
  have long : ¬ buf.length < GLZ_HEADER_SIZE := by
    rw [← whole, List.length_append, GlzHeader.encode_length]
    omega
  simp only [GlzHeader.encode, tag, List.append_assoc] at whole
  have magicAt : slice buf 0 4 = toBe 4 GLZ_MAGIC := by
    simp [← whole]
  have versionAt : slice buf 4 8 = toBe 4 GLZ_VERSION := by
    simp [← whole]
  have typeAt : slice buf 8 9 = toBe 1 tmp := by
    simp [← whole]
  have widthAt : slice buf 9 13 = toBe 4 width := by
    simp [← whole]
  have heightAt : slice buf 13 17 = toBe 4 height := by
    simp [← whole]
  have strideAt : slice buf 17 21 = toBe 4 stride := by
    simp [← whole]
  have idAt : slice buf 21 29 = toBe 8 id := by
    simp [← whole]
  have distAt : slice buf 29 33 = toBe 4 winHeadDist := by
    simp [← whole]
  have magic : ofBe (toBe 4 GLZ_MAGIC) = GLZ_MAGIC := Bytes.ofBe_toBe (by decide)
  have version : ofBe (toBe 4 GLZ_VERSION) = GLZ_VERSION := Bytes.ofBe_toBe (by decide)
  rw [GlzHeader.decode, if_neg long, magicAt, versionAt, typeAt, widthAt, heightAt, strideAt, idAt,
    distAt, magic, version, Bytes.ofBe_toBe byte.1, Bytes.ofBe_toBe fitsWidth,
    Bytes.ofBe_toBe fitsHeight, Bytes.ofBe_toBe fitsStride, Bytes.ofBe_toBe fitsId,
    Bytes.ofBe_toBe fitsDist]
  dsimp only
  rw [byte.2.1, byte.2.2]
  rfl

end Capsaicin.Glz
