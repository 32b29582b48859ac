/-
The image structures that a drawing command points to.
-/

import Capsaicin.Proto.Types

namespace Capsaicin.Proto

open Codec (Exact)

namespace ImageType

def BITMAP : Nat := 0
def QUIC : Nat := 1
def LZ_RGB : Nat := 101
def GLZ_RGB : Nat := 102

end ImageType

structure ImageDescriptor where
  id : Nat
  imageType : Nat
  flags : Nat
  width : Nat
  height : Nat
  deriving DecidableEq, Repr

def ImageDescriptor.SIZE : Nat := 18

def ImageDescriptor.reader : Reader ImageDescriptor := do
  let id ← Reader.u64
  let imageType ← Reader.u8
  let flags ← Reader.u8
  let width ← Reader.u32
  let height ← Reader.u32
  pure { id := id, imageType := imageType, flags := flags, width := width, height := height }

def ImageDescriptor.encode (desc : ImageDescriptor) : List UInt8 :=
  writeU64 desc.id ++ (writeU8 desc.imageType ++ (writeU8 desc.flags ++
    (writeU32 desc.width ++ writeU32 desc.height)))

structure Bitmap where
  format : Nat
  flags : Nat
  width : Nat
  height : Nat
  stride : Nat
  paletteOffset : Nat
  dataOffset : Nat
  deriving DecidableEq, Repr

def Bitmap.reader : Reader Bitmap := do
  let format ← Reader.u8
  let flags ← Reader.u8
  let width ← Reader.u32
  let height ← Reader.u32
  let stride ← Reader.u32
  let paletteOffset ← Reader.u32
  let dataOffset ← Reader.u32
  pure
    { format := format
      flags := flags
      width := width
      height := height
      stride := stride
      paletteOffset := paletteOffset
      dataOffset := dataOffset }

def Bitmap.encode (bitmap : Bitmap) : List UInt8 :=
  writeU8 bitmap.format ++ (writeU8 bitmap.flags ++ (writeU32 bitmap.width ++
    (writeU32 bitmap.height ++ (writeU32 bitmap.stride ++ (writeU32 bitmap.paletteOffset ++
      writeU32 bitmap.dataOffset)))))

def BitmapFlags.TOP_DOWN : Nat := 1

def Bitmap.isTopDown (bitmap : Bitmap) : Bool := bitmap.flags &&& BitmapFlags.TOP_DOWN ≠ 0

/-- Formats 6 to 10 are 16, 24 and 32 bits, RGBA and alpha only; 5 is 8 bits. -/
def bitmapBytesPerPixel (format : Nat) : Option Nat :=
  if format = 6 then some 2
  else if format = 7 then some 3
  else if format = 8 ∨ format = 9 then some 4
  else if format = 5 ∨ format = 10 then some 1
  else none

def readChunkList : Nat → Reader (List UInt8)
  | 0 => pure []
  | count + 1 => do
      let claimed ← Reader.u32
      let len ← boundedSize claimed MAX_CHUNK_BYTES
      let bytes ← Reader.bytes len
      let rest ← readChunkList count
      pure (bytes ++ rest)

def chunksReader : Reader (List UInt8) := do
  let claimedSize ← Reader.u32
  let dataSize ← boundedSize claimedSize MAX_CHUNK_BYTES
  let claimedCount ← Reader.u32
  let numChunks ← boundedCount claimedCount MAX_CHUNK_COUNT
  let out ← readChunkList numChunks
  if out.length ≠ dataSize then throw (.short dataSize out.length) else pure out

def readChunks (msgBody : List UInt8) (offset : Nat) : Except ProtoError (List UInt8) :=
  if offset + 8 > msgBody.length then .error (.short 8 (msgBody.length - offset))
  else chunksReader.decode (msgBody.drop offset)

/-- A table of chunks, of which `encode_single_chunk` writes those with one. -/
def encodeChunks (chunks : List (List UInt8)) : List UInt8 :=
  writeU32 chunks.flatten.length ++ (writeU32 chunks.length ++
    chunks.flatMap fun chunk => writeU32 chunk.length ++ chunk)

/-! ### Reading what was written -/

structure ImageDescriptor.Fits (desc : ImageDescriptor) : Prop where
  id : desc.id < 256 ^ 8
  imageType : desc.imageType < 256 ^ 1
  flags : desc.flags < 256 ^ 1
  width : desc.width < 256 ^ 4
  height : desc.height < 256 ^ 4

theorem ImageDescriptor.length_encode (desc : ImageDescriptor) :
    desc.encode.length = ImageDescriptor.SIZE := by
  simp [ImageDescriptor.encode, writeU8, writeU32, writeU64, ImageDescriptor.SIZE]

theorem ImageDescriptor.exact {desc : ImageDescriptor} (fits : desc.Fits) :
    Exact ImageDescriptor.reader desc.encode desc := by
  unfold ImageDescriptor.reader ImageDescriptor.encode
  apply (Reader.u64_exact fits.id).bind
  apply (Reader.u8_exact fits.imageType).bind
  apply (Reader.u8_exact fits.flags).bind
  apply (Reader.u32_exact fits.width).bind
  exact (Reader.u32_exact fits.height).map _

structure Bitmap.Fits (bitmap : Bitmap) : Prop where
  format : bitmap.format < 256 ^ 1
  flags : bitmap.flags < 256 ^ 1
  width : bitmap.width < 256 ^ 4
  height : bitmap.height < 256 ^ 4
  stride : bitmap.stride < 256 ^ 4
  paletteOffset : bitmap.paletteOffset < 256 ^ 4
  dataOffset : bitmap.dataOffset < 256 ^ 4

theorem Bitmap.exact {bitmap : Bitmap} (fits : bitmap.Fits) :
    Exact Bitmap.reader bitmap.encode bitmap := by
  unfold Bitmap.reader Bitmap.encode
  apply (Reader.u8_exact fits.format).bind
  apply (Reader.u8_exact fits.flags).bind
  apply (Reader.u32_exact fits.width).bind
  apply (Reader.u32_exact fits.height).bind
  apply (Reader.u32_exact fits.stride).bind
  apply (Reader.u32_exact fits.paletteOffset).bind
  exact (Reader.u32_exact fits.dataOffset).map _

theorem readChunkList_exact {chunks : List (List UInt8)}
    (small : ∀ chunk ∈ chunks, chunk.length ≤ MAX_CHUNK_BYTES) :
    Exact (readChunkList chunks.length)
      (chunks.flatMap fun chunk => writeU32 chunk.length ++ chunk) chunks.flatten := by
  induction chunks with
  | nil => exact Exact.pure []
  | cons chunk chunks ih =>
      have first := small chunk List.mem_cons_self
      have others := ih fun other member => small other (List.mem_cons_of_mem chunk member)
      have fits : chunk.length < 256 ^ 4 := Nat.lt_of_le_of_lt first (by decide)
      rw [List.length_cons, readChunkList, List.flatMap_cons, List.append_assoc, List.flatten_cons]
      apply (Reader.u32_exact fits).bind
      apply (boundedSize_exact first).skip
      apply (Reader.take_exact chunk).bind
      exact others.map _

theorem chunksReader_exact {chunks : List (List UInt8)}
    (total : chunks.flatten.length ≤ MAX_CHUNK_BYTES) (count : chunks.length ≤ MAX_CHUNK_COUNT)
    (small : ∀ chunk ∈ chunks, chunk.length ≤ MAX_CHUNK_BYTES) :
    Exact chunksReader (encodeChunks chunks) chunks.flatten := by
  have fitsTotal : chunks.flatten.length < 256 ^ 4 := Nat.lt_of_le_of_lt total (by decide)
  have fitsCount : chunks.length < 256 ^ 4 := Nat.lt_of_le_of_lt count (by decide)
  have same : ¬ chunks.flatten.length ≠ chunks.flatten.length := fun different => different rfl
  unfold chunksReader encodeChunks
  apply (Reader.u32_exact fitsTotal).bind
  apply (boundedSize_exact total).skip
  apply (Reader.u32_exact fitsCount).bind
  apply (boundedSize_exact count).skip
  rw [← List.append_nil (chunks.flatMap _)]
  apply (readChunkList_exact small).bind
  rw [if_neg same]
  exact Exact.pure chunks.flatten

theorem length_encodeChunks (chunks : List (List UInt8)) :
    (encodeChunks chunks).length = 8 + 4 * chunks.length + chunks.flatten.length := by
  have table : (chunks.flatMap fun chunk => writeU32 chunk.length ++ chunk).length =
      4 * chunks.length + chunks.flatten.length := by
    induction chunks with
    | nil => rfl
    | cons chunk chunks ih =>
        rw [List.flatMap_cons, List.length_append, List.length_append, ih, List.flatten_cons,
          List.length_append, List.length_cons, writeU32, Bytes.length_toLe]
        omega
  rw [encodeChunks, List.length_append, List.length_append, table, writeU32, writeU32,
    Bytes.length_toLe, Bytes.length_toLe]
  omega

theorem readChunks_encode {chunks : List (List UInt8)} {body rest : List UInt8} {offset : Nat}
    (placed : body.drop offset = encodeChunks chunks ++ rest)
    (small : body.length ≤ MAX_CHUNK_BYTES) : readChunks body offset = .ok chunks.flatten := by
  have size := congrArg List.length placed
  rw [List.length_drop, List.length_append, length_encodeChunks] at size
  have count : chunks.length ≤ MAX_CHUNK_COUNT := by
    unfold MAX_CHUNK_COUNT
    omega
  have total : chunks.flatten.length ≤ MAX_CHUNK_BYTES := by omega
  have within : ∀ chunk ∈ chunks, chunk.length ≤ MAX_CHUNK_BYTES := by
    intro chunk member
    exact Nat.le_trans (List.sublist_flatten_of_mem member).length_le total
  rw [readChunks, if_neg (by omega), placed]
  exact Reader.decode_ok ((chunksReader_exact total count within).whole rest)

end Capsaicin.Proto
