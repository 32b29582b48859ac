/-
The LZ decoder on legal streams: every encoding of a token list is decoded to the
naive expansion of the list.
-/

import Capsaicin.Lz.Decoder
import Capsaicin.Pixels

namespace Capsaicin.Lz

open ByteCode (Ahead lengthBytes extendLen_modulo)
open Bytes (toBe ofBe)
open Lz77 (Token Filled Puts Reached expand)

/-- What a pass of the decoder reads and shows for each item of its tokens. -/
structure Coding (α : Type) where
  stage : Stage
  bytes : α → List UInt8
  shows : List UInt8 → Nat → α → Prop

def colours : Coding Bgr where
  stage := .bgr
  bytes := Bgr.bytes
  shows := OpaqueAt

def alphas : Coding UInt8 where
  stage := .alpha
  bytes := fun a => [a]
  shows := AlphaAt

/-! ### Legal streams -/

def Stage.shortest : Stage → Nat
  | .bgr => 1
  | .alpha => 3

def Stage.stored (stage : Stage) (len : Nat) : Nat := len + 1 - stage.shortest

def backHigh (back : Nat) : Nat := if back < MAX_DISTANCE then back / 256 else 31

def encodeBack (back : Nat) : List UInt8 :=
  if back < MAX_DISTANCE then [UInt8.ofNat (back % 256)] else 255 :: toBe 2 (back - MAX_DISTANCE)

def encodeCopy (stored back : Nat) : List UInt8 :=
  UInt8.ofNat (min stored 7 * 32 + backHigh back) :: (lengthBytes stored ++ encodeBack back)

example : encodeCopy 262 8191 = [0xFF, 255, 0, 255, 0, 0] := by decide

namespace Coding

variable {α : Type}

def encodeToken (coding : Coding α) : Token α → List UInt8
  | .literal items => UInt8.ofNat (items.length - 1) :: items.flatMap coding.bytes
  | .copy len dist => encodeCopy (coding.stage.stored len) (dist - 1)

def encode (coding : Coding α) (tokens : List (Token α)) : List UInt8 :=
  (tokens.map coding.encodeToken).flatten

/-- The tokens that the format can say. That a copy does not reach before the first
item is for the expansion to check. -/
def Legal (coding : Coding α) : Token α → Prop
  | .literal items => 1 ≤ items.length ∧ items.length ≤ 32
  | .copy len dist => coding.stage.shortest ≤ len ∧ 1 ≤ dist ∧ dist ≤ 73727

instance (coding : Coding α) (token : Token α) : Decidable (coding.Legal token) :=
  match token with
  | .literal items => inferInstanceAs (Decidable (1 ≤ items.length ∧ items.length ≤ 32))
  | .copy len dist =>
      inferInstanceAs (Decidable (coding.stage.shortest ≤ len ∧ 1 ≤ dist ∧ dist ≤ 73727))

/-- A buffer in which the pass can go on writing. -/
structure Sound (coding : Coding α) (count : Nat) (fits : List UInt8 → Prop) : Prop where
  size : ∀ {out}, fits out → out.length = count * 4
  copies : ∀ {src dst out item}, fits out → dst < count → coding.shows out src item →
    ∃ out', copyPixel coding.stage src dst out = .ok out' ∧
      Puts coding.shows fits dst item out out'
  literals : ∀ {input ip dst out item}, fits out → dst < count →
    Ahead input ip (coding.bytes item) →
    ∃ out', literalPixel coding.stage input ip dst out =
        .ok (ip + (coding.bytes item).length, out') ∧
      Puts coding.shows fits dst item out out'

end Coding

theorem readByte_ok {input bytes : List UInt8} {ip : Nat} {byte : UInt8}
    (ahead : Ahead input ip (byte :: bytes)) :
    readByte input ip = .ok (byte, ip + 1) ∧ Ahead input (ip + 1) bytes := Ahead.take _ ahead

theorem colours_sound (count : Nat) :
    colours.Sound count fun out => out.length = count * 4 where
  size := fun fits => fits
  copies := by
    intro src dst out item fits inside shown
    exact ⟨setOpaque out dst item, copyOpaque_ok fits inside shown, setOpaque_puts fits inside item⟩
  literals := by
    intro input ip dst out item fits inside ahead
    obtain ⟨blue, ahead⟩ := readByte_ok ahead
    obtain ⟨green, ahead⟩ := readByte_ok ahead
    obtain ⟨red, _ahead⟩ := readByte_ok ahead
    exact ⟨setOpaque out dst item, takeOpaque_ok fits inside blue green red,
      setOpaque_puts fits inside item⟩

/-- The second pass leaves the colours of the first one. -/
def Coloured (count : Nat) (pixels : List Bgr) (out : List UInt8) : Prop :=
  out.length = count * 4 ∧ Filled ColourAt out pixels

private theorem alpha_puts {count dst : Nat} {pixels : List Bgr} {out : List UInt8}
    (fits : Coloured count pixels out) (inside : dst < count) (a : UInt8) :
    Puts AlphaAt (Coloured count pixels) dst a out (out.set (dst * 4 + 3) a) where
  here := List.getElem?_set_self (by
    rw [fits.1]
    omega)
  elsewhere := by
    intro k other differs shown
    unfold AlphaAt
    rw [List.getElem?_set_ne (by omega)]
    exact shown
  fits := by
    refine ⟨(List.length_set ..).trans fits.1, ?_⟩
    intro k pixel found
    obtain ⟨blue, green, red⟩ := fits.2 k pixel found
    constructor
    · rw [List.getElem?_set_ne (by omega)]
      exact blue
    · rw [List.getElem?_set_ne (by omega)]
      exact green
    · rw [List.getElem?_set_ne (by omega)]
      exact red

theorem alphas_sound (count : Nat) (pixels : List Bgr) :
    alphas.Sound count (Coloured count pixels) where
  size := fun fits => fits.1
  copies := by
    intro src dst out a fits inside shown
    refine ⟨_, ?_, alpha_puts fits inside a⟩
    change (Program.index out (src * 4 + 3) >>= _) = _
    rw [Program.bind_ok (Program.index_eq_ok.mpr shown)]
    apply Program.assign_of_lt
    rw [fits.1]
    omega
  literals := by
    intro input ip dst out a fits inside ahead
    obtain ⟨taken, _ahead⟩ := readByte_ok ahead
    refine ⟨_, ?_, alpha_puts fits inside a⟩
    change (readByte input ip >>= _) = _
    rw [Program.bind_ok taken]
    dsimp only
    rw [Program.bind_ok (Program.assign_of_lt _ (by rw [fits.1]; omega))]
    rfl

/-! ### The fields of a copy -/

section Fields

variable {input : List UInt8} {ip ctrl stored back : Nat}

theorem backHigh_lt (back : Nat) : backHigh back < 32 := by
  unfold backHigh MAX_DISTANCE
  split
  · omega
  · decide

theorem copyControl (stored back : Nat) :
    (UInt8.ofNat (min stored 7 * 32 + backHigh back)).toNat = min stored 7 * 32 + backHigh back := by
  have high := backHigh_lt back
  rw [UInt8.toNat_ofNat']
  omega

theorem readLen_ok (top : ctrl >>> 5 = min stored 7) (positive : 0 < stored)
    (ahead : Ahead input ip (lengthBytes stored)) :
    readLen input ip ctrl = .ok ((stored - 1) % 2 ^ 32, ip + (lengthBytes stored).length) := by
  have less : wrappingSub (min stored 7) 1 = min stored 7 - 1 := by
    unfold wrappingSub
    omega
  rw [readLen, top, less]
  unfold lengthBytes at ahead ⊢
  by_cases short : stored < 7
  · have small : (stored - 1) % 2 ^ 32 = stored - 1 := by omega
    rw [if_pos short, if_neg (by omega), Nat.min_eq_left (by omega), small]
    rfl
  · rw [if_neg short] at ahead ⊢
    have six : min stored 7 - 1 = 6 % 2 ^ 32 := by omega
    have sum : 6 + (stored - 7) = stored - 1 := by omega
    have added := @extendLen_modulo LzError (fun left right => .ok (wrappingAdd left right)) _
      (fun _left _right => rfl) (.error (.short 1 0)) _ _ _ 6 ahead
    rw [sum] at added
    rw [six, if_pos (by decide)]
    exact added

private theorem readNear (low : ctrl &&& 31 = back / 256) (near : back < 8191)
    (ahead : Ahead input ip [UInt8.ofNat (back % 256)]) :
    readDistance input ip ctrl = .ok (back, ip + 1) := by
  obtain ⟨taken, _ahead⟩ := readByte_ok ahead
  have code : (UInt8.ofNat (back % 256)).toNat = back % 256 := by
    rw [UInt8.toNat_ofNat']
    omega
  have whole : wrappingAdd ((back / 256) <<< 8) (back % 256) = back := by
    unfold wrappingAdd
    rw [Nat.shiftLeft_eq]
    omega
  rw [readDistance, low, Program.bind_ok taken]
  dsimp only
  rw [code, whole]
  by_cases full : UInt8.ofNat (back % 256) = 255
  · -- The low byte may be full, but then the high bits are not.
    have last : back % 256 = 255 := by
      rw [full] at code
      exact code.symm
    have high : subtract back (back % 256) = .ok (back - back % 256) := if_neg (by omega)
    have room : back - back % 256 ≠ 31 <<< 8 := by
      rw [Nat.shiftLeft_eq]
      omega
    rw [if_pos full, Program.bind_ok high, if_neg room]
  · rw [if_neg full]

private theorem readFar (low : ctrl &&& 31 = 31) (beyond : 8191 ≤ back) (far : back ≤ 73726)
    (ahead : Ahead input ip (255 :: toBe 2 (back - 8191))) :
    readDistance input ip ctrl = .ok (back, ip + 3) := by
  have bytes : toBe 2 (back - 8191) =
      [UInt8.ofNat ((back - 8191) / 256), UInt8.ofNat (back - 8191)] := rfl
  rw [bytes] at ahead
  obtain ⟨takenMark, ahead⟩ := readByte_ok ahead
  obtain ⟨takenHigh, ahead⟩ := readByte_ok ahead
  obtain ⟨takenLow, _ahead⟩ := readByte_ok ahead
  have mark : wrappingAdd (31 <<< 8) (255 : UInt8).toNat = 8191 := rfl
  have high : subtract 8191 (255 : UInt8).toNat = .ok (31 <<< 8) := rfl
  have whole : wrappingAdd (((UInt8.ofNat ((back - 8191) / 256)).toNat <<< 8) |||
      (UInt8.ofNat (back - 8191)).toNat) MAX_DISTANCE = back := by
    rw [← Nat.shiftLeft_add_eq_or_of_lt (UInt8.toNat_lt _), Nat.shiftLeft_eq, Bytes.toNat_ofNat,
      Bytes.toNat_ofNat, Nat.mod_eq_of_lt (show (back - 8191) / 256 < 256 by omega)]
    unfold wrappingAdd MAX_DISTANCE
    omega
  rw [readDistance, low, Program.bind_ok takenMark]
  dsimp only
  rw [mark, if_pos rfl, Program.bind_ok high, if_pos rfl, Program.bind_ok takenHigh]
  dsimp only
  rw [Program.bind_ok takenLow]
  dsimp only
  rw [whole]

theorem readDistance_ok (low : ctrl &&& 31 = backHigh back) (far : back ≤ 73726)
    (ahead : Ahead input ip (encodeBack back)) :
    readDistance input ip ctrl = .ok (back, ip + (encodeBack back).length) := by
  unfold encodeBack at ahead ⊢
  unfold backHigh at low
  by_cases near : back < MAX_DISTANCE
  · rw [if_pos near] at low ahead ⊢
    exact readNear low near ahead
  · rw [if_neg near] at low ahead ⊢
    exact readFar low (Nat.not_lt.mp near) far ahead

theorem stored_ok (stage : Stage) {len : Nat} (long : stage.shortest ≤ len) :
    wrappingAdd ((stage.stored len - 1) % 2 ^ 32) stage.bias = len % 2 ^ 32 ∧
      0 < stage.stored len := by
  unfold wrappingAdd Stage.stored
  cases stage with
  | bgr =>
      simp only [Stage.bias, Stage.shortest] at long ⊢
      omega
  | alpha =>
      simp only [Stage.bias, Stage.shortest] at long ⊢
      omega

end Fields

/-! ### Tokens -/

section Tokens

variable {α : Type} {coding : Coding α} {count : Nat} {fits : List UInt8 → Prop} {input : List UInt8}
  {produced result : List α} {cursor : Cursor}

theorem copy_wraps {len dist : Nat} (sound : coding.Sound count fits)
    (legal : coding.Legal (.copy len dist))
    (extended : (Token.copy (len % 2 ^ 32) dist).extend produced = some result)
    (inside : result.length ≤ count) (reached : Reached coding.shows fits cursor produced)
    (ahead : Ahead input cursor.ip (coding.encodeToken (.copy len dist))) :
    ∃ cursor', token coding.stage input count cursor = .ok cursor' ∧
      cursor'.ip = cursor.ip + (coding.encodeToken (.copy len dist)).length ∧
      Reached coding.shows fits cursor' result := by
  obtain ⟨positive, back, copied⟩ := Lz77.extend_copy extended
  obtain ⟨long, _one, far⟩ := legal
  have total := Lz77.copyBack_length copied
  change Ahead input cursor.ip (encodeCopy (coding.stage.stored len) (dist - 1)) at ahead
  have whole : coding.encodeToken (.copy len dist) =
    encodeCopy (coding.stage.stored len) (dist - 1) := rfl
  obtain ⟨biased, storedPositive⟩ := stored_ok coding.stage long
  have offset : wrappingAdd (dist - 1) 1 = dist := by
    unfold wrappingAdd
    omega
  generalize coding.stage.stored len = stored at ahead whole biased storedPositive
  unfold encodeCopy at ahead whole
  have high := backHigh_lt (dist - 1)
  obtain ⟨taken, ahead⟩ := readByte_ok ahead
  obtain ⟨aheadLen, aheadBack⟩ := ahead.split
  have control := copyControl stored (dist - 1)
  have top : (min stored 7 * 32 + backHigh (dist - 1)) >>> 5 = min stored 7 := by
    rw [Nat.shiftRight_eq_div_pow]
    omega
  have low : (min stored 7 * 32 + backHigh (dist - 1)) &&& 31 = backHigh (dist - 1) := by
    rw [show 31 = 2 ^ 5 - 1 from rfl, Nat.and_two_pow_sub_one_eq_mod]
    omega
  have readL := readLen_ok top storedPositive aheadLen
  have readD := readDistance_ok low (by omega) aheadBack
  obtain ⟨out, ran, fit, filled⟩ :=
    Lz77.copyRun_ok sound.copies reached.filled reached.fits back copied inside
  rw [← reached.op] at ran total back
  refine
    ⟨{ ip := cursor.ip + 1 + (lengthBytes stored).length + (encodeBack (dist - 1)).length
       op := cursor.op + len % 2 ^ 32
       out := out }, ?_, ?_, ⟨total.symm, fit, filled⟩⟩
  · rw [token, Program.bind_ok taken]
    dsimp only
    rw [control, if_pos (show MAX_COPY ≤ _ by unfold MAX_COPY; omega)]
    rw [backReference, Program.bind_ok readL]
    dsimp only
    rw [Program.bind_ok readD]
    dsimp only
    rw [biased, offset, if_neg (by omega), Program.bind_ok ran]
  · rw [whole, List.length_cons, List.length_append]
    dsimp only
    omega

theorem literal_ok {items : List α} (sound : coding.Sound count fits)
    (legal : coding.Legal (.literal items)) (inside : (produced ++ items).length ≤ count)
    (reached : Reached coding.shows fits cursor produced)
    (ahead : Ahead input cursor.ip (coding.encodeToken (.literal items))) :
    ∃ cursor', token coding.stage input count cursor = .ok cursor' ∧
      cursor'.ip = cursor.ip + (coding.encodeToken (.literal items)).length ∧
      Reached coding.shows fits cursor' (produced ++ items) := by
  obtain ⟨some, few⟩ := legal
  rw [List.length_append] at inside
  obtain ⟨taken, ahead⟩ := readByte_ok ahead
  have control : (UInt8.ofNat (items.length - 1)).toNat + 1 = items.length := by
    rw [UInt8.toNat_ofNat']
    omega
  obtain ⟨out, ran, fit, filled⟩ :=
    Lz77.takeRun_ok sound.literals reached.filled reached.fits ahead inside
  rw [← reached.op] at ran inside
  refine
    ⟨{ ip := cursor.ip + 1 + (items.flatMap coding.bytes).length
       op := cursor.op + items.length
       out := out }, ?_, ?_, ⟨?_, fit, filled⟩⟩
  · rw [token, Program.bind_ok taken]
    dsimp only
    rw [if_neg (show ¬ MAX_COPY ≤ _ by unfold MAX_COPY; omega)]
    rw [literal, control]
    dsimp only
    rw [if_neg (by omega), Program.bind_ok ran]
  · change _ = cursor.ip + (_ :: items.flatMap coding.bytes).length
    rw [List.length_cons]
    dsimp only
    omega
  · rw [List.length_append, reached.op]

/-- The legal encodings of a token, of which there is one at most. -/
def Coding.Encodes (coding : Coding α) (token : Token α) (bytes : List UInt8) : Prop :=
  coding.Legal token ∧ bytes = coding.encodeToken token

theorem encodes_all {tokens : List (Token α)} (legal : ∀ token ∈ tokens, coding.Legal token) :
    List.Forall₂ coding.Encodes tokens (tokens.map coding.encodeToken) := by
  rw [List.forall₂_map_right_iff, List.forall₂_same]
  exact fun token member => ⟨legal token member, rfl⟩

theorem encodes_some (token : Token α) (bytes : List UInt8) (encoded : coding.Encodes token bytes) :
    bytes ≠ [] := by
  obtain ⟨_legal, rfl⟩ := encoded
  cases token with
  | literal items => exact List.cons_ne_nil _ _
  | copy len dist => exact List.cons_ne_nil _ _

theorem encodes_grows : Lz77.Grows coding.Encodes Token.extend := by
  rintro token bytes produced longer ⟨legal, rfl⟩ extended
  cases token with
  | literal items =>
      cases extended
      rw [List.length_append]
      exact ⟨Nat.lt_add_of_pos_right legal.1, Nat.succ_pos _⟩
  | copy len dist =>
      have total := Lz77.copyBack_length (Lz77.extend_copy extended).2.2
      have some : 0 < len := by
        have long := legal.1
        unfold Stage.shortest at long
        split at long <;> omega
      exact ⟨by omega, Nat.succ_pos _⟩

/-- A token with the length that the decoder adds up for it. -/
def wrapped : Token α → Token α
  | .literal items => .literal items
  | .copy len dist => .copy (len % 2 ^ 32) dist

def appends (produced : List α) (token : Token α) : Option (List α) := (wrapped token).extend produced

theorem token_wraps (sound : coding.Sound count fits) :
    Lz77.Decodes (token coding.stage input count) count input coding.shows fits coding.Encodes
      appends := by
  rintro token bytes produced longer cursor ⟨legal, rfl⟩ extended inside reached ahead
  cases token with
  | literal items =>
      cases extended
      exact literal_ok sound legal inside reached ahead
  | copy len dist => exact copy_wraps sound legal extended inside reached ahead

theorem appends_small {token : Token α} (extended : token.extend produced = some result)
    (small : result.length < 2 ^ 32) : appends produced token = some result := by
  cases token with
  | literal items => exact extended
  | copy len dist =>
      have total := Lz77.extend_size extended
      change result.length = produced.length + len at total
      rw [appends, wrapped, Nat.mod_eq_of_lt (by omega)]
      exact extended

theorem token_decodes (sound : coding.Sound count fits) (small : count ≤ 2 ^ 24) :
    Lz77.Decodes (token coding.stage input count) count input coding.shows fits coding.Encodes
      Token.extend := by
  intro token bytes produced longer cursor encoded extended inside reached ahead
  have appended := appends_small extended (by omega)
  exact token_wraps sound token bytes produced longer cursor encoded appended inside reached ahead

end Tokens

/-! ### Passes -/

theorem decompressPass_ok {α : Type} {coding : Coding α} {count : Nat} {fits : List UInt8 → Prop}
    {tokens : List (Token α)} {result : List α} {out : List UInt8} (sound : coding.Sound count fits)
    (small : count ≤ 2 ^ 24) (legal : ∀ token ∈ tokens, coding.Legal token)
    (expanded : expand [] tokens = some result) (size : result.length = count) (fit : fits out)
    (suffix : List UInt8) :
    ∃ out', decompressPass (coding.encode tokens ++ suffix) count out coding.stage =
        .ok ((coding.encode tokens).length, out') ∧
      fits out' ∧ Filled coding.shows out' result := by
  have start : Reached coding.shows fits { ip := 0, op := 0, out := out } [] :=
    ⟨rfl, fit, Filled.nil out⟩
  have within : (coding.encode tokens ++ suffix).length <
      0 + ((coding.encode tokens ++ suffix).length + 1) := by
    omega
  have room : ¬ out.length < count * 4 := by
    rw [sound.size fit]
    exact Nat.lt_irrefl _
  obtain ⟨cursor, ran, position, reached⟩ :=
    Lz77.decodeLoop_ok .fuel (token_decodes sound small) encodes_grows encodes_some
      (encodes_all legal) expanded size start (Ahead.start _ suffix) within (Nat.succ_pos _)
  have looped : passLoop coding.stage (coding.encode tokens ++ suffix) count
      ((coding.encode tokens ++ suffix).length + 1) { ip := 0, op := 0, out := out } =
        .ok cursor := ran
  refine ⟨cursor.out, ?_, reached.fits, reached.filled⟩
  rw [decompressPass, if_neg room, Program.bind_ok looped, position, Nat.zero_add]
  rfl

theorem boundedPixels_ok {count : Nat} (positive : 1 ≤ count) (cap : count ≤ 16777216) :
    boundedPixels count = .ok () := by
  unfold boundedPixels MAX_IMAGE_BYTES
  rw [if_neg (by omega), if_neg (by omega), if_neg (by omega)]

section Streams

variable {count : Nat} {tokens : List (Token Bgr)} {pixels : List Bgr}
  {alphaTokens : List (Token UInt8)} {values : List UInt8}

/-- The buffer behind the colour pass. -/
def blank (pixels : List Bgr) : List UInt8 := packed (pixels.map fun pixel => pixel.withAlpha 0)

theorem blank_room (count : Nat) : (List.replicate (count * 4) (0 : UInt8)).length = count * 4 :=
  List.length_replicate

theorem colours_blank {out : List UInt8} (size : pixels.length = count)
    (fit : out.length = count * 4) (filled : Filled OpaqueAt out pixels) :
    out = blank pixels ∧ Coloured count pixels (blank pixels) := by
  have whole : out.length = pixels.length * 4 := by rw [size, fit]
  have shown : out = blank pixels := eq_packed_opaque whole filled
  rw [shown] at fit filled
  exact ⟨shown, fit, fun k pixel found => (filled k pixel found).1⟩

theorem alphas_over {out : List UInt8} (size : pixels.length = count)
    (sizeAlpha : values.length = count) (fit : Coloured count pixels out)
    (filled : Filled AlphaAt out values) :
    out = packed (List.zipWith Bgr.withAlpha pixels values) := by
  apply eq_packed
  · rw [List.length_zipWith, size, sizeAlpha, Nat.min_self]
    exact fit.1
  · intro k pixel found
    rw [List.getElem?_zipWith_eq_some] at found
    obtain ⟨colour, value, atColour, atValue, rfl⟩ := found
    exact ⟨fit.2 k colour atColour, filled k value atValue⟩

theorem colourPass_ok (small : count ≤ 2 ^ 24) (legal : ∀ token ∈ tokens, colours.Legal token)
    (expanded : expand [] tokens = some pixels) (size : pixels.length = count)
    (suffix : List UInt8) :
    decompressPass (colours.encode tokens ++ suffix) count (List.replicate (count * 4) 0) .bgr =
        .ok ((colours.encode tokens).length, blank pixels) ∧
      Coloured count pixels (blank pixels) := by
  obtain ⟨out, ran, full, filled⟩ :=
    decompressPass_ok (colours_sound count) small legal expanded size (blank_room count) suffix
  obtain ⟨shown, coloured⟩ := colours_blank size full filled
  rw [shown] at ran
  exact ⟨ran, coloured⟩

theorem alphaPass_ok (small : count ≤ 2 ^ 24) (legal : ∀ token ∈ alphaTokens, alphas.Legal token)
    (expanded : expand [] alphaTokens = some values) (size : values.length = count)
    (sizePixels : pixels.length = count) (coloured : Coloured count pixels (blank pixels))
    (suffix : List UInt8) :
    decompressPass (alphas.encode alphaTokens ++ suffix) count (blank pixels) .alpha =
      .ok ((alphas.encode alphaTokens).length, packed (List.zipWith Bgr.withAlpha pixels values)) := by
  obtain ⟨out, ran, kept, filled⟩ :=
    decompressPass_ok (alphas_sound count pixels) small legal expanded size coloured suffix
  rw [alphas_over sizePixels size kept filled] at ran
  exact ran

/-- The decompressors return the naive expansion of every legal encoding; the alpha
pass starts on the byte behind the colour pass. -/
theorem lz_streams_decoded (positive : 1 ≤ count) (cap : count ≤ 16777216)
    (legal : ∀ token ∈ tokens, colours.Legal token) (expanded : expand [] tokens = some pixels)
    (size : pixels.length = count) :
    (∀ suffix, decompressRgb32 (colours.encode tokens ++ suffix) count =
      .ok (packed (pixels.map fun pixel => pixel.withAlpha 0))) ∧
    ∀ (alphaTokens : List (Token UInt8)) (values : List UInt8),
      (∀ token ∈ alphaTokens, alphas.Legal token) → expand [] alphaTokens = some values →
      values.length = count → ∀ suffix,
        decompressPass (colours.encode tokens ++ (alphas.encode alphaTokens ++ suffix)) count
            (List.replicate (count * 4) 0) .bgr =
          .ok ((colours.encode tokens).length,
            packed (pixels.map fun pixel => pixel.withAlpha 0)) ∧
        decompressRgba (colours.encode tokens ++ (alphas.encode alphaTokens ++ suffix)) count =
          .ok (packed (List.zipWith Bgr.withAlpha pixels values)) := by
  have bounded := boundedPixels_ok positive cap
  constructor
  · intro suffix
    have first := colourPass_ok cap legal expanded size suffix
    rw [decompressRgb32, Program.bind_ok bounded, Program.bind_ok first.1]
    rfl
  · intro alphaTokens values legalAlpha expandedAlpha sizeAlpha suffix
    have first := colourPass_ok cap legal expanded size (alphas.encode alphaTokens ++ suffix)
    have second := alphaPass_ok cap legalAlpha expandedAlpha sizeAlpha size first.2 suffix
    refine ⟨first.1, ?_⟩
    rw [decompressRgba, Program.bind_ok bounded, Program.bind_ok first.1]
    dsimp only
    rw [List.drop_left, Program.bind_ok second]

end Streams

/-- An overlapping copy in both passes. -/
theorem lz_streams_decoded_overlap :
    decompressRgb32 [0, 7, 8, 9, 0x60, 0, 0xEE] 4 =
        .ok [7, 8, 9, 0, 7, 8, 9, 0, 7, 8, 9, 0, 7, 8, 9, 0] ∧
      decompressRgba [0, 7, 8, 9, 0x60, 0, 0, 5, 0x20, 0, 0xEE] 4 =
        .ok [7, 8, 9, 5, 7, 8, 9, 5, 7, 8, 9, 5, 7, 8, 9, 5] := by
  have both := @lz_streams_decoded 4 [.literal [⟨7, 8, 9⟩], .copy 3 1]
    [⟨7, 8, 9⟩, ⟨7, 8, 9⟩, ⟨7, 8, 9⟩, ⟨7, 8, 9⟩] (by decide) (by decide) (by decide) (by decide)
    (by decide)
  exact ⟨both.1 [0xEE],
    (both.2 [.literal [5], .copy 3 1] [5, 5, 5, 5] (by decide) (by decide) (by decide) [0xEE]).2⟩

end Capsaicin.Lz
