/-
The GLZ decoder of the browser bindings next to the native one, over whole sessions. The
bindings take the header off a stream before the decoder does it once more, and insert
images with their bits in place of their bytes per pixel.
-/

import Capsaicin.Glz.Eviction
import Capsaicin.Glz.Legal

namespace Capsaicin.Wasm

open Bytes (toBe)
open Glz
open Lz77 (expandBy)

structure GlzDecoder where
  window : GlzWindow

structure DecodedGlz where
  id : Nat
  width : Nat
  height : Nat
  pixels : List UInt8
  deriving DecidableEq, Repr

namespace GlzDecoder

def new (capacityBytes : Nat) : GlzDecoder where
  window := GlzWindow.new capacityBytes

/-- The bindings show an error as its text. -/
def decodeRgb32 (decoder : GlzDecoder) (stream : List UInt8) : Except GlzFault DecodedGlz := do
  let header ← (GlzHeader.decode stream).mapError .error
  if stream.length < GLZ_HEADER_SIZE then .error (.panic .index)
  else do
    let body := stream.drop GLZ_HEADER_SIZE
    let pixels ← decompressRgb32 body header decoder.window
    .ok
      { id := header.id
        width := header.width
        height := header.height
        pixels := pixels }

def insert (decoder : GlzDecoder) (id : Nat) (pixels : List UInt8) (bpp : Nat) : GlzDecoder where
  window := decoder.window.insert id pixels bpp

/-- One image as the docs of the bindings say: each decoded one is inserted with 32. -/
def feed (decoder : GlzDecoder) (stream : List UInt8) :
    Except GlzFault (List UInt8) × GlzDecoder :=
  match decoder.decodeRgb32 stream with
  | .ok decoded => (.ok decoded.pixels, decoder.insert decoded.id decoded.pixels 32)
  | .error fault => (.error fault, decoder)

end GlzDecoder

def nativeFeed (window : GlzWindow) (stream : List UInt8) :
    Except GlzFault (List UInt8) × GlzWindow :=
  match GlzHeader.decode stream with
  | .error reason => (.error (.error reason), window)
  | .ok header =>
      match decompressRgb32 stream header window with
      | .ok pixels => (.ok pixels, window.insert header.id pixels 4)
      | .error fault => (.error fault, window)

def session {σ ρ : Type} (feed : σ → List UInt8 → ρ × σ) : σ → List (List UInt8) → List ρ
  | _, [] => []
  | state, stream :: rest => (feed state stream).1 :: session feed (feed state stream).2 rest

/-! ### Windows that differ in their bytes per pixel -/

def retag (bpp : Nat) (entry : WindowEntry) : WindowEntry := { entry with bpp := bpp }

def retagItem (bpp : Nat) : (Sigma fun _ : Nat => WindowEntry) → Sigma fun _ : Nat => WindowEntry :=
  Sigma.map id fun _ => retag bpp

/-- The same images in the same order, each with `bpp`. -/
structure Retagged (bpp : Nat) (window other : GlzWindow) : Prop where
  entries : other.images.entries = window.images.entries.map (retagItem bpp)
  bytesUsed : other.bytesUsed = window.bytesUsed
  capacityBytes : other.capacityBytes = window.capacityBytes
  nextSeq : other.nextSeq = window.nextSeq

theorem argmin_map {α β : Type} (key : β → Nat) (change : α → β) (items : List α) :
    (items.map change).argmin key = (items.argmin (key ∘ change)).map change := by
  induction items using List.reverseRecOn with
  | nil => rfl
  | append_singleton items item ih =>
      rw [List.map_append, List.map_singleton, List.argmin_concat, List.argmin_concat, ih]
      cases items.argmin (key ∘ change) with
      | none => rfl
      | some least =>
          simp only [Option.map_some, Function.comp]
          split <;> rfl

section Retagged

variable {bpp other : Nat} {window wasm : GlzWindow}

theorem retagged_new (bpp capacityBytes : Nat) :
    Retagged bpp (.new capacityBytes) (.new capacityBytes) := ⟨rfl, rfl, rfl, rfl⟩

theorem Retagged.get (related : Retagged bpp window wasm) (id : Nat) :
    wasm.get id = (window.get id).map (retag bpp) := by
  change List.dlookup id wasm.images.entries = (List.dlookup id window.images.entries).map _
  rw [related.entries]
  exact List.dlookup_map₂ id

theorem Retagged.erase (related : Retagged bpp window wasm) (id : Nat) :
    List.kerase id wasm.images.entries =
      (List.kerase id window.images.entries).map (retagItem bpp) := by
  rw [related.entries]
  exact List.eraseP_map

theorem Retagged.remove (related : Retagged bpp window wasm) (id : Nat) :
    Retagged bpp (window.remove id) (wasm.remove id) := by
  have found := related.get id
  unfold GlzWindow.get at found
  unfold GlzWindow.remove
  rw [found]
  cases window.images.lookup id with
  | none => exact related
  | some old =>
      refine ⟨related.erase id, ?_, related.capacityBytes, related.nextSeq⟩
      rw [related.bytesUsed]
      rfl

theorem Retagged.oldest (related : Retagged bpp window wasm) : wasm.oldest = window.oldest := by
  unfold GlzWindow.oldest
  rw [related.entries, argmin_map, Option.map_map]
  rfl

theorem Retagged.evict (related : Retagged bpp window wasm) (fuel : Nat) :
    Retagged bpp (GlzWindow.evict fuel window) (GlzWindow.evict fuel wasm) := by
  induction fuel generalizing window wasm with
  | zero => exact related
  | succ fuel ih =>
      have count : wasm.images.entries.length = window.images.entries.length := by
        rw [related.entries, List.length_map]
      rw [GlzWindow.evict, GlzWindow.evict, related.oldest, related.bytesUsed,
        related.capacityBytes, count]
      split
      · cases window.oldest with
        | none => exact related
        | some victim => exact ih (related.remove victim)
      · exact related

theorem Retagged.insert (related : Retagged bpp window wasm) (id : Nat) (pixels : List UInt8) :
    Retagged bpp (window.insert id pixels other) (wasm.insert id pixels bpp) := by
  have removed := related.remove id
  have count : (wasm.remove id).images.entries.length = (window.remove id).images.entries.length := by
    rw [removed.entries, List.length_map]
  unfold GlzWindow.insert
  dsimp only
  rw [count]
  apply Retagged.evict
  refine ⟨?_, ?_, related.capacityBytes, ?_⟩
  · rw [AList.entries_insert, AList.entries_insert, List.map_cons, removed.erase id,
      related.nextSeq]
    rfl
  · rw [removed.bytesUsed]
  · rw [related.nextSeq]

end Retagged

/-! ### Sessions that agree -/

def strided (bpp : Nat) (bytes : List UInt8) : List Bgr :=
  (List.range (bytes.length / bpp)).map fun k =>
    { b := bytes.getD (k * bpp) 0
      g := bytes.getD (k * bpp + 1) 0
      r := bytes.getD (k * bpp + 2) 0 }

/-- The stored images by their distance, read as if they had `bpp` bytes a pixel. -/
def imagesBy (bpp : Nat) (window : GlzWindow) (selfId imageDist : Nat) : Option (List Bgr) :=
  (window.get (targetId selfId imageDist)).map fun entry => strided bpp entry.pixels

/-- The bytes of the whole image stand behind the header, and once more behind as many bytes
as a second header takes. The pixels that they name in stored images are the same ones when
these are read at every fourth and at every 32nd byte. -/
def Repeats (window : GlzWindow) (stream : List UInt8) (header : GlzHeader) : Prop :=
  ∃ tokens pieces pixels, List.Forall₂ Encodes tokens pieces ∧
    pieces.flatten <+: stream.drop GLZ_HEADER_SIZE ∧
      pieces.flatten <+: stream.drop (GLZ_HEADER_SIZE + GLZ_HEADER_SIZE) ∧
        pixels.length = header.width * header.height ∧
          expandBy (GlzToken.extend (imagesBy 4 window header.id)) [] tokens = some pixels ∧
            expandBy (GlzToken.extend (imagesBy 32 window header.id)) [] tokens = some pixels

/-- A stream whose header is refused, or whose body the bindings find where they look for it. -/
def Spared (window : GlzWindow) (stream : List UInt8) : Prop :=
  ∀ header, GlzHeader.decode stream = .ok header →
    (∃ bytes, validateDims header.width header.height 4 = .ok bytes) →
      header.imageType = .rgb32 → Repeats window stream header

def AllSpared : GlzWindow → List (List UInt8) → Prop
  | _, [] => True
  | window, stream :: rest => Spared window stream ∧ AllSpared (nativeFeed window stream).2 rest

section Sessions

variable {window wasm : GlzWindow} {bpp : Nat} {bytes stream : List UInt8}

theorem strided_stored {k : Nat} {pixel : Bgr} (whole : 3 ≤ bpp)
    (found : (strided bpp bytes)[k]? = some pixel) : StoredAt bytes (k * bpp) pixel := by
  rw [strided, List.getElem?_map, Option.map_eq_some_iff] at found
  rcases found with ⟨position, inside, rfl⟩
  rw [List.getElem?_eq_some_iff] at inside
  rcases inside with ⟨small, same⟩
  rw [List.getElem_range] at same
  subst same
  rw [List.length_range] at small
  have room : k * bpp + bpp ≤ bytes.length := by
    have slots := Nat.mul_le_of_le_div _ _ _ small
    rw [Nat.succ_mul] at slots
    exact slots
  have there : ∀ {lane}, lane < 3 →
      bytes[k * bpp + lane]? = some (bytes.getD (k * bpp + lane) 0) := by
    intro lane few
    have within : k * bpp + lane < bytes.length := by omega
    simp [List.getD, within]
  exact ⟨there (by decide : 0 < 3), there (by decide : 1 < 3), there (by decide : 2 < 3)⟩

theorem stores_imagesBy {selfId : Nat} (whole : 3 ≤ bpp) (small : bpp < 2 ^ 32)
    (tagged : ∀ id entry, wasm.get id = some entry → entry.bpp = bpp)
    (same : ∀ id, (wasm.get id).map WindowEntry.pixels = (window.get id).map WindowEntry.pixels) :
    Stores (some wasm) selfId (imagesBy bpp window selfId) := by
  intro imageDist image known
  rcases Option.map_eq_some_iff.mp known with ⟨stored, found, rfl⟩
  have both := same (targetId selfId imageDist)
  rw [found, Option.map_some, Option.map_eq_some_iff] at both
  rcases both with ⟨entry, present, pixels⟩
  have tag := tagged _ entry present
  rw [← pixels]
  refine ⟨entry, present, by omega, ?_, ?_⟩
  · rw [strided, List.length_map, List.length_range, tag]
    exact Nat.div_mul_le_self _ _
  · intro k item shown
    rw [tag]
    exact strided_stored whole shown

theorem refused {header : GlzHeader}
    (bad : ¬ ((∃ bytes, validateDims header.width header.height 4 = .ok bytes) ∧
      header.imageType = .rgb32)) :
    ∃ fault, ∀ stream window, decompressRgb32 stream header window = .error fault := by
  cases valid : validateDims header.width header.height 4 with
  | error reason =>
      refine ⟨.error reason, fun stream window => ?_⟩
      rw [decompressRgb32, decompressRgb32Inner, valid]
      rfl
  | ok bytes =>
      have other : header.imageType ≠ .rgb32 := fun rgb32 => bad ⟨⟨bytes, valid⟩, rgb32⟩
      refine ⟨.error (.unsupportedType header.imageType), fun stream window => ?_⟩
      rw [decompressRgb32, decompressRgb32Inner, valid]
      exact if_pos other

/-- The window of the bindings is the native one with 32 in place of 4. -/
structure Paired (window wasm : GlzWindow) : Prop where
  related : Retagged 32 window wasm
  native : ∀ id entry, window.get id = some entry → entry.bpp = 4

theorem Paired.start (capacityBytes : Nat) :
    Paired (.new capacityBytes) (GlzDecoder.new capacityBytes).window where
  related := retagged_new 32 capacityBytes
  native := by
    intro id entry found
    cases found

theorem Paired.insert (paired : Paired window wasm) (id : Nat) (pixels : List UInt8) :
    Paired (window.insert id pixels 4) (wasm.insert id pixels 32) where
  related := paired.related.insert id pixels
  native := by
    intro other entry found
    rcases GlzWindow.get_insert found with ⟨_same, _pixels, four⟩ | ⟨_differs, before⟩
    · exact four
    · exact paired.native other entry before

theorem Paired.stores (paired : Paired window wasm) (selfId : Nat) :
    Stores (some window) selfId (imagesBy 4 window selfId) ∧
      Stores (some wasm) selfId (imagesBy 32 window selfId) := by
  constructor
  · exact stores_imagesBy (by decide) (by decide) paired.native fun _id => rfl
  · refine stores_imagesBy (by decide) (by decide) ?_ ?_
    · intro id entry found
      rw [paired.related.get id, Option.map_eq_some_iff] at found
      rcases found with ⟨stored, _present, rfl⟩
      rfl
    · intro id
      rw [paired.related.get id, Option.map_map]
      rfl

theorem spelled_length {images : Nat → Option (List Bgr)} {tokens : List GlzToken}
    {pieces : List (List UInt8)} {pixels : List Bgr} (encoded : List.Forall₂ Encodes tokens pieces)
    (expanded : expandBy (GlzToken.extend images) [] tokens = some pixels)
    (some : 0 < pixels.length) : 0 < pieces.flatten.length := by
  cases encoded with
  | nil =>
      cases expanded
      exact some
  | cons first _rest =>
      obtain ⟨longer, extended, _expanded⟩ := Lz77.expandBy_cons expanded
      have bytes := (encodes_grows images _ _ _ _ first extended).2
      rw [List.flatten_cons, List.length_append]
      omega

/-- Both decoders return the image that the repeated bytes spell. -/
theorem repeats_decoded {header : GlzHeader} {count : Nat} (paired : Paired window wasm)
    (accepted : validateDims header.width header.height 4 = .ok count)
    (rgb32 : header.imageType = .rgb32) (long : GLZ_HEADER_SIZE ≤ stream.length)
    (repeats : Repeats window stream header) :
    ∃ pixels, decompressRgb32 stream header window = .ok pixels ∧
      decompressRgb32 (stream.drop GLZ_HEADER_SIZE) header wasm = .ok pixels := by
  obtain ⟨tokens, pieces, pixels, encoded, first, second, size, near, far⟩ := repeats
  obtain ⟨storesNear, storesFar⟩ := paired.stores header.id
  obtain ⟨_count, width, height, _caps⟩ := checkDims_ok accepted
  have bytes := spelled_length encoded near (by rw [size]; exact Nat.mul_pos width height)
  have longer := second.length_le
  rw [List.length_drop] at longer
  obtain ⟨suffix, body⟩ := first
  obtain ⟨suffix', body'⟩ := second
  refine ⟨packed (pixels.map fun pixel => pixel.withAlpha 0), ?_, ?_⟩
  · have whole : (stream.take GLZ_HEADER_SIZE).length = GLZ_HEADER_SIZE := by
      rw [List.length_take]
      exact Nat.min_eq_left long
    have run := decoder_expands whole rgb32 accepted storesNear encoded near size suffix
    rw [body, List.take_append_drop] at run
    exact run
  · have whole : ((stream.drop GLZ_HEADER_SIZE).take GLZ_HEADER_SIZE).length = GLZ_HEADER_SIZE := by
      rw [List.length_take, List.length_drop]
      omega
    have run := decoder_expands whole rgb32 accepted storesFar encoded far size suffix'
    rw [body', ← List.drop_drop, List.take_append_drop] at run
    exact run

theorem feed_agrees (paired : Paired window wasm) (spared : Spared window stream) :
    (nativeFeed window stream).1 = (GlzDecoder.feed { window := wasm } stream).1 ∧
      Paired (nativeFeed window stream).2 (GlzDecoder.feed { window := wasm } stream).2.window := by
  unfold nativeFeed GlzDecoder.feed GlzDecoder.decodeRgb32
  cases decoded : GlzHeader.decode stream with
  | error reason => exact ⟨rfl, paired⟩
  | ok header =>
      have long := GlzHeader.decode_length decoded
      simp only [Except.mapError, bind, Except.bind, if_neg (Nat.not_lt.mpr long)]
      by_cases accepted : (∃ bytes, validateDims header.width header.height 4 = .ok bytes) ∧
          header.imageType = .rgb32
      · obtain ⟨⟨bytes, valid⟩, rgb32⟩ := accepted
        obtain ⟨pixels, native, bindings⟩ :=
          repeats_decoded paired valid rgb32 long (spared header decoded ⟨bytes, valid⟩ rgb32)
        rw [native, bindings]
        exact ⟨rfl, paired.insert header.id pixels⟩
      · obtain ⟨fault, stops⟩ := refused accepted
        rw [stops, stops]
        exact ⟨rfl, paired⟩

/-- The bindings agree with the native client on every session whose streams are all spared. -/
theorem wasm_agrees {capacityBytes : Nat} {streams : List (List UInt8)}
    (spared : AllSpared (.new capacityBytes) streams) :
    session nativeFeed (.new capacityBytes) streams =
      session GlzDecoder.feed (GlzDecoder.new capacityBytes) streams := by
  have paired := Paired.start capacityBytes
  generalize GlzWindow.new capacityBytes = window at spared paired ⊢
  generalize GlzDecoder.new capacityBytes = decoder at paired ⊢
  induction streams generalizing window decoder with
  | nil => rfl
  | cons stream rest ih =>
      obtain ⟨same, next⟩ := feed_agrees paired spared.1
      rw [session, session]
      exact congrArg₂ List.cons same (ih _ spared.2 _ next)

end Sessions

/-- Eight pixels of one colour, and one pixel taken from among them, each with its bytes
standing in the stream twice. -/
def repeatedStreams : List (List UInt8) :=
  [(GlzHeader.mk .rgb32 true 8 1 32 1 0).encode ++ ([0, 9, 9, 9, 0xE0, 0, 0, 0] ++
      (List.replicate 25 0 ++ [0, 9, 9, 9, 0xE0, 0, 0, 0])),
    (GlzHeader.mk .rgb32 true 1 1 4 2 0).encode ++ ([0x20, 0, 1] ++
      (List.replicate 30 0 ++ [0x20, 0, 1]))]

theorem wasm_agrees_repeated :
    session nativeFeed (.new 4096) repeatedStreams =
      session GlzDecoder.feed (GlzDecoder.new 4096) repeatedStreams := by
  have first : Spared (.new 4096) repeatedStreams[0] := by
    intro header decoded _accepted _rgb32
    have known : GlzHeader.decode repeatedStreams[0] = .ok (.mk .rgb32 true 8 1 32 1 0) := by
      decide +kernel
    cases known.symm.trans decoded
    refine ⟨[.lit [⟨9, 9, 9⟩], .intra 7 1], [[0, 9, 9, 9], [0xE0, 0, 0, 0]],
      List.replicate 8 ⟨9, 9, 9⟩, ?_, ?_, ?_, rfl, ?_, ?_⟩
    · exact .cons ⟨by decide, by decide, rfl⟩
        (.cons ⟨by decide, by decide, .short 0, by decide, by decide⟩ .nil)
    · decide +kernel
    · decide +kernel
    · decide +kernel
    · decide +kernel
  have second : Spared (nativeFeed (.new 4096) repeatedStreams[0]).2 repeatedStreams[1] := by
    intro header decoded _accepted _rgb32
    have known : GlzHeader.decode repeatedStreams[1] = .ok (.mk .rgb32 true 1 1 4 2 0) := by
      decide +kernel
    cases known.symm.trans decoded
    refine ⟨[.cross 1 1 0], [[0x20, 0, 1]], [⟨9, 9, 9⟩], ?_, ?_, ?_, rfl, ?_, ?_⟩
    · exact .cons ⟨by decide, by decide, .short 0, by decide, by decide⟩ .nil
    · decide +kernel
    · decide +kernel
    · decide +kernel
    · decide +kernel
  exact @wasm_agrees 4096 repeatedStreams ⟨first, second, trivial⟩

/-- A single pixel: the native client shows it, the bindings look for it behind the end. -/
theorem wasm_differs :
    session nativeFeed (.new 4096) [(GlzHeader.mk .rgb32 true 1 1 4 1 0).encode ++ [0, 1, 2, 3]] =
        [.ok [1, 2, 3, 0]] ∧
      session GlzDecoder.feed (GlzDecoder.new 4096)
          [(GlzHeader.mk .rgb32 true 1 1 4 1 0).encode ++ [0, 1, 2, 3]] =
        [.error (.panic .index)] := by decide +kernel

end Capsaicin.Wasm
