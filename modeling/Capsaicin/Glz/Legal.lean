/-
The GLZ decoder on legal streams: every encoding of a token list is decoded to the
naive expansion of the list, whichever form each reference is laid out in.
-/

import Capsaicin.Glz.Decoder
import Capsaicin.Pixels

namespace Capsaicin.Glz

open ByteCode (Ahead lengthBytes extendLen_whole)
open Bytes (toLe)
open Lz (Cursor)
open Lz77 (Filled Puts Reached expandBy)
open Program (index)

/-! ### Legal streams -/

inductive GlzToken where
  | lit (pixels : List Bgr)
  | intra (len dist : Nat)
  | cross (len imageDist pixelOfs : Nat)
  deriving DecidableEq, Repr

/-- The layouts of a reference: the number of extra bytes of the image distance, and
in the long form whether a last byte makes the pixel offset wider. -/
inductive Form where
  | short (extras : Nat)
  | long (extras : Nat) (wide : Bool)
  deriving DecidableEq, Repr

def Form.Fits (pixelOfs imageDist : Nat) : Form → Prop
  | .short extras => extras ≤ 3 ∧ pixelOfs < 2 ^ 12 ∧ imageDist < 2 ^ 6 * 256 ^ extras
  | .long extras wide =>
      extras ≤ 3 ∧ pixelOfs < 2 ^ (if wide then 25 else 17) ∧ imageDist < 256 ^ extras

theorem Form.Fits.pixelOfs_lt {form : Form} {pixelOfs imageDist : Nat}
    (fits : form.Fits pixelOfs imageDist) : pixelOfs < 2 ^ 25 := by
  cases form with
  | short extras => exact Nat.lt_of_lt_of_le fits.2.1 (by decide)
  | long extras wide =>
      cases wide with
      | false => exact Nat.lt_of_lt_of_le fits.2.1 (by decide)
      | true => exact fits.2.1

def Form.flag : Form → Nat
  | .short _ => 0
  | .long _ _ => 1

instance (pixelOfs imageDist : Nat) (form : Form) : Decidable (form.Fits pixelOfs imageDist) :=
  match form with
  | .short extras =>
      inferInstanceAs (Decidable (extras ≤ 3 ∧ pixelOfs < 2 ^ 12 ∧ imageDist < 2 ^ 6 * 256 ^ extras))
  | .long extras wide =>
      inferInstanceAs (Decidable (extras ≤ 3 ∧ pixelOfs < 2 ^ (if wide then 25 else 17) ∧
        imageDist < 256 ^ extras))

def Form.tail (pixelOfs imageDist : Nat) : Form → List UInt8
  | .short extras =>
      UInt8.ofNat (pixelOfs / 16) :: UInt8.ofNat (extras * 64 + imageDist % 64) ::
        toLe extras (imageDist / 64)
  | .long extras wide =>
      UInt8.ofNat (pixelOfs / 16) ::
        UInt8.ofNat (extras * 64 + (wide.toNat * 32 + pixelOfs / 2 ^ 12 % 32)) ::
          (toLe extras imageDist ++ if wide then [UInt8.ofNat (pixelOfs / 2 ^ 17)] else [])

def encodeReference (len pixelOfs imageDist : Nat) (form : Form) : List UInt8 :=
  UInt8.ofNat (min len 7 * 32 + form.flag * 16 + pixelOfs % 16) ::
    (lengthBytes len ++ form.tail pixelOfs imageDist)

/-- A reference has an encoding for each form it fits in. -/
def Encodes : GlzToken → List UInt8 → Prop
  | .lit pixels, bytes =>
      1 ≤ pixels.length ∧ pixels.length ≤ 32 ∧
        bytes = UInt8.ofNat (pixels.length - 1) :: pixels.flatMap Bgr.bytes
  | .intra len dist, bytes =>
      1 ≤ len ∧ 1 ≤ dist ∧
        ∃ form : Form, form.Fits (dist - 1) 0 ∧ bytes = encodeReference len (dist - 1) 0 form
  | .cross len imageDist pixelOfs, bytes =>
      1 ≤ len ∧ 1 ≤ imageDist ∧
        ∃ form : Form, form.Fits pixelOfs imageDist ∧
          bytes = encodeReference len pixelOfs imageDist form

/-- What a token appends. A reference to a stored image must lie inside it. -/
def GlzToken.extend (images : Nat → Option (List Bgr)) (produced : List Bgr) :
    GlzToken → Option (List Bgr)
  | .lit pixels => some (produced ++ pixels)
  | .intra len dist => (Lz77.Token.copy len dist).extend produced
  | .cross len imageDist pixelOfs =>
      match images imageDist with
      | some image =>
          if pixelOfs + len ≤ image.length then
            some (produced ++ (image.drop pixelOfs).take len)
          else none
      | none => none

/-- The stored images of four bytes a pixel, by their distance. -/
def GlzWindow.image (window : GlzWindow) (selfId imageDist : Nat) : Option (List Bgr) :=
  (window.get (targetId selfId imageDist)).map fun entry => (unpacked entry.pixels).map Bgra.colour

/-! ### The fields of a reference -/

section Fields

variable {body : List UInt8} {ip ctrl len pixelOfs imageDist : Nat}

theorem take_ok {bytes : List UInt8} {byte : UInt8} (ahead : Ahead body ip (byte :: bytes)) :
    take body ip = .ok (byte, ip + 1) ∧ Ahead body (ip + 1) bytes := Ahead.take _ ahead

theorem addU32_ok {left right : Nat} (small : left + right < 2 ^ 32) :
    addU32 left right = .ok (left + right) := if_pos small

theorem readLen_ok (top : ctrl >>> 5 = min len 7) (small : len < 2 ^ 32)
    (ahead : Ahead body ip (lengthBytes len)) :
    readLen body ip ctrl = .ok (len, ip + (lengthBytes len).length) := by
  rw [readLen, top]
  unfold lengthBytes at ahead ⊢
  by_cases short : len < 7
  · rw [if_pos short, if_neg (by omega), Nat.min_eq_left (by omega)]
    rfl
  · rw [if_neg short] at ahead ⊢
    have seven : min len 7 = 7 := by omega
    have sum : 7 + (len - 7) = len := by omega
    rw [seven, if_pos rfl, extendLen_whole addU32_ok (.error (.short 1 0)) ahead (by omega), sum]

theorem readExtras_ok (shift imageDist : Nat) {count value : Nat} (ahead : Ahead body ip (toLe count value))
    (fits : value < 256 ^ count) (small : imageDist + value * 2 ^ shift < 2 ^ 32) :
    readExtras body count shift ip imageDist = .ok (imageDist + value * 2 ^ shift, ip + count) := by
  induction count generalizing shift ip imageDist value with
  | zero =>
      have nothing : value = 0 := Nat.lt_one_iff.mp fits
      subst nothing
      rw [Nat.zero_mul]
      rfl
  | succ count ih =>
      obtain ⟨taken, ahead⟩ := take_ok ahead
      have low : (UInt8.ofNat value).toNat <<< shift = value % 256 * 2 ^ shift := by
        rw [Bytes.toNat_ofNat, Nat.shiftLeft_eq]
      have rest : value / 256 < 256 ^ count := by
        rw [pow_succ] at fits
        exact Nat.div_lt_of_lt_mul (by omega)
      have split : imageDist + value % 256 * 2 ^ shift + value / 256 * 2 ^ (shift + 8) =
          imageDist + value * 2 ^ shift := by
        have whole : value % 256 + 256 * (value / 256) = value := Nat.mod_add_div value 256
        calc imageDist + value % 256 * 2 ^ shift + value / 256 * 2 ^ (shift + 8)
            = imageDist + (value % 256 + 256 * (value / 256)) * 2 ^ shift := by ring
          _ = imageDist + value * 2 ^ shift := by rw [whole]
      have first : imageDist + value % 256 * 2 ^ shift < 2 ^ 32 :=
        Nat.lt_of_le_of_lt (split ▸ Nat.le_add_right _ _) small
      have fitsBehind : imageDist + value % 256 * 2 ^ shift + value / 256 * 2 ^ (shift + 8) <
          2 ^ 32 := by
        rw [split]
        exact small
      have later := ih (shift + 8) _ ahead rest fitsBehind
      rw [split, Nat.add_assoc, Nat.add_comm 1 count] at later
      rw [readExtras, Program.bind_ok taken]
      dsimp only
      rw [low, Program.bind_ok (addU32_ok first)]
      exact later

theorem control_bits (top : Nat) {flag low : Nat} (bit : flag ≤ 1) (nibble : low < 16) :
    (top * 32 + flag * 16 + low) >>> 5 = top ∧ ((top * 32 + flag * 16 + low) >>> 4) &&& 1 = flag ∧
      (top * 32 + flag * 16 + low) &&& 0x0f = low := by
  refine ⟨?_, ?_, ?_⟩
  · rw [Nat.shiftRight_eq_div_pow]
    omega
  · rw [Nat.shiftRight_eq_div_pow, Nat.and_one_is_mod]
    omega
  · refine (Nat.and_two_pow_sub_one_eq_mod _ 4).trans ?_
    omega

theorem count_bits {extras low : Nat} (few : extras ≤ 3) (bits : low < 64) :
    (UInt8.ofNat (extras * 64 + low)).toNat = extras * 64 + low ∧
      ((extras * 64 + low) >>> 6) &&& 3 = extras ∧ (extras * 64 + low) &&& 0x3f = low := by
  refine ⟨?_, ?_, ?_⟩
  · rw [Bytes.toNat_ofNat]
    omega
  · rw [Nat.shiftRight_eq_div_pow]
    refine (Nat.and_two_pow_sub_one_eq_mod _ 2).trans ?_
    omega
  · refine (Nat.and_two_pow_sub_one_eq_mod _ 6).trans ?_
    omega

theorem long_bits (extras : Nat) {wide high : Nat} (bit : wide ≤ 1) (bits : high < 32) :
    ((extras * 64 + (wide * 32 + high)) >>> 5) &&& 1 = wide ∧
      (extras * 64 + (wide * 32 + high)) &&& 0x1f = high := by
  refine ⟨?_, ?_⟩
  · rw [Nat.shiftRight_eq_div_pow, Nat.and_one_is_mod]
    omega
  · refine (Nat.and_two_pow_sub_one_eq_mod _ 5).trans ?_
    omega

private theorem readShort {extras : Nat} (top : ctrl >>> 5 = min len 7)
    (flag : (ctrl >>> 4) &&& 1 = 0) (nibble : ctrl &&& 0x0f = pixelOfs % 16) (small : len < 2 ^ 32)
    (fits : (Form.short extras).Fits pixelOfs imageDist)
    (ahead : Ahead body ip (lengthBytes len ++ (Form.short extras).tail pixelOfs imageDist)) :
    readReference body ip ctrl = .ok
      { len := len
        pixelOfs := pixelOfs
        imageDist := imageDist
        ip := ip + (lengthBytes len ++ (Form.short extras).tail pixelOfs imageDist).length } := by
  obtain ⟨few, near, close⟩ := fits
  obtain ⟨aheadLen, ahead⟩ := ahead.split
  obtain ⟨takenMiddle, ahead⟩ := take_ok ahead
  obtain ⟨takenCount, ahead⟩ := take_ok ahead
  obtain ⟨count, counted, low⟩ := count_bits few (show imageDist % 64 < 64 by omega)
  have middle : pixelOfs % 16 + (UInt8.ofNat (pixelOfs / 16)).toNat <<< 4 = pixelOfs := by
    rw [Bytes.toNat_ofNat, Nat.shiftLeft_eq]
    omega
  have most : 256 ^ extras ≤ 256 ^ 3 := Nat.pow_le_pow_right (by decide) few
  have rest : imageDist / 64 < 256 ^ extras := Nat.div_lt_of_lt_mul close
  have whole : imageDist % 64 + imageDist / 64 * 2 ^ 6 = imageDist := by omega
  have read := readExtras_ok 6 (imageDist % 64) ahead rest (by omega)
  rw [readReference, Program.bind_ok (readLen_ok top small aheadLen)]
  dsimp only
  rw [Program.bind_ok takenMiddle]
  dsimp only
  rw [nibble, Program.bind_ok (addU32_ok (by omega)), Program.bind_ok takenCount]
  dsimp only
  have position : ip + (lengthBytes len ++ (Form.short extras).tail pixelOfs imageDist).length =
      ip + (lengthBytes len).length + 1 + 1 + extras := by
    simp only [Form.tail, List.length_append, List.length_cons, Bytes.length_toLe]
    omega
  rw [count, counted, low, flag, if_pos rfl, Program.bind_ok read, middle, whole, position]

private theorem readLong {extras : Nat} {wide : Bool} (top : ctrl >>> 5 = min len 7)
    (flag : (ctrl >>> 4) &&& 1 = 1) (nibble : ctrl &&& 0x0f = pixelOfs % 16) (small : len < 2 ^ 32)
    (fits : (Form.long extras wide).Fits pixelOfs imageDist)
    (ahead : Ahead body ip (lengthBytes len ++ (Form.long extras wide).tail pixelOfs imageDist)) :
    readReference body ip ctrl = .ok
      { len := len
        pixelOfs := pixelOfs
        imageDist := imageDist
        ip := ip + (lengthBytes len ++ (Form.long extras wide).tail pixelOfs imageDist).length } := by
  obtain ⟨few, near, close⟩ := fits
  obtain ⟨aheadLen, ahead⟩ := ahead.split
  obtain ⟨takenMiddle, ahead⟩ := take_ok ahead
  obtain ⟨takenCount, ahead⟩ := take_ok ahead
  obtain ⟨aheadExtras, ahead⟩ := ahead.split
  have most : 256 ^ extras ≤ 256 ^ 3 := Nat.pow_le_pow_right (by decide) few
  have bit : wide.toNat ≤ 1 := Bool.toNat_le wide
  obtain ⟨count, counted, _low⟩ :=
    count_bits few (show wide.toNat * 32 + pixelOfs / 2 ^ 12 % 32 < 64 by omega)
  obtain ⟨flagged, high⟩ :=
    long_bits extras bit (show pixelOfs / 2 ^ 12 % 32 < 32 by omega)
  have lowSum : pixelOfs % 16 + (UInt8.ofNat (pixelOfs / 16)).toNat <<< 4 = pixelOfs % 2 ^ 12 := by
    rw [Bytes.toNat_ofNat, Nat.shiftLeft_eq]
    omega
  have midSum : pixelOfs % 2 ^ 12 + (pixelOfs / 2 ^ 12 % 32) <<< 12 = pixelOfs % 2 ^ 17 := by
    rw [Nat.shiftLeft_eq]
    omega
  have read := readExtras_ok 0 0 aheadExtras close (by omega)
  rw [Nat.zero_add, Nat.pow_zero, Nat.mul_one] at read
  rw [readReference, Program.bind_ok (readLen_ok top small aheadLen)]
  dsimp only
  rw [Program.bind_ok takenMiddle]
  dsimp only
  rw [nibble, Program.bind_ok (addU32_ok (by omega)), Program.bind_ok takenCount]
  dsimp only
  rw [count, counted, flagged, high, lowSum, flag, if_neg Nat.one_ne_zero,
    Program.bind_ok (addU32_ok (by omega)), midSum, Program.bind_ok read]
  cases wide with
  | false =>
      have whole : pixelOfs % 2 ^ 17 = pixelOfs := Nat.mod_eq_of_lt near
      have narrow : ¬ false.toNat ≠ 0 := not_not_intro rfl
      have position :
          ip + (lengthBytes len ++ (Form.long extras false).tail pixelOfs imageDist).length =
            ip + (lengthBytes len).length + 1 + 1 + extras := by
        simp only [Form.tail, List.length_append, List.length_cons, Bytes.length_toLe,
          List.length_nil, Bool.false_eq_true, if_false]
        omega
      rw [if_neg narrow, whole, position]
  | true =>
      have behind : ip + (lengthBytes len).length + 1 + 1 + (toLe extras imageDist).length =
          ip + (lengthBytes len).length + 1 + 1 + extras := by rw [Bytes.length_toLe]
      rw [if_pos rfl, behind] at ahead
      obtain ⟨takenLast, _ahead⟩ := take_ok ahead
      have last : (UInt8.ofNat (pixelOfs / 2 ^ 17)).toNat <<< 17 = pixelOfs / 2 ^ 17 * 2 ^ 17 := by
        have small : pixelOfs / 2 ^ 17 < 256 := by
          rw [if_pos rfl] at near
          omega
        rw [Bytes.toNat_ofNat, Nat.mod_eq_of_lt small, Nat.shiftLeft_eq]
      have whole : pixelOfs % 2 ^ 17 + pixelOfs / 2 ^ 17 * 2 ^ 17 = pixelOfs := by omega
      have fits : pixelOfs % 2 ^ 17 + pixelOfs / 2 ^ 17 * 2 ^ 17 < 2 ^ 32 := by
        rw [whole]
        rw [if_pos rfl] at near
        omega
      have more : true.toNat ≠ 0 := Nat.one_ne_zero
      rw [if_pos more, Program.bind_ok takenLast]
      dsimp only
      have position :
          ip + (lengthBytes len ++ (Form.long extras true).tail pixelOfs imageDist).length =
            ip + (lengthBytes len).length + 1 + 1 + extras + 1 := by
        simp only [Form.tail, List.length_append, List.length_cons, Bytes.length_toLe,
          List.length_nil, if_true]
        omega
      rw [last, Program.bind_ok (addU32_ok fits), whole, position]

theorem readReference_ok {form : Form} (small : len < 2 ^ 32) (fits : form.Fits pixelOfs imageDist)
    (ahead : Ahead body ip (lengthBytes len ++ form.tail pixelOfs imageDist)) :
    readReference body ip (min len 7 * 32 + form.flag * 16 + pixelOfs % 16) = .ok
      { len := len
        pixelOfs := pixelOfs
        imageDist := imageDist
        ip := ip + (lengthBytes len ++ form.tail pixelOfs imageDist).length } := by
  have nibble : pixelOfs % 16 < 16 := Nat.mod_lt _ (by decide)
  cases form with
  | short extras =>
      obtain ⟨top, flag, low⟩ := control_bits (min len 7) (Nat.zero_le 1) nibble
      exact readShort top flag low small fits ahead
  | long extras wide =>
      obtain ⟨top, flag, low⟩ := control_bits (min len 7) (Nat.le_refl 1) nibble
      exact readLong top flag low small fits ahead

end Fields

/-! ### Tokens -/

section Tokens

variable {body : List UInt8} {count : Nat} {produced result : List Bgr} {cursor : Cursor}

/-- The buffer that is being filled. -/
def Room (count : Nat) (out : List UInt8) : Prop := out.length = count * 4

structure StoredAt (pixels : List UInt8) (position : Nat) (pixel : Bgr) : Prop where
  blue : pixels[position]? = some pixel.b
  green : pixels[position + 1]? = some pixel.g
  red : pixels[position + 2]? = some pixel.r

theorem crossRun_ok {pixels out : List UInt8} {items : List Bgr} {first bpp : Nat}
    (stored : ∀ k item, items[k]? = some item → StoredAt pixels ((first + k) * bpp) item)
    (filled : Filled OpaqueAt out produced) (fits : Room count out)
    (inside : produced.length + items.length ≤ count) :
    ∃ out', crossRun pixels bpp items.length (first * bpp) produced.length out = .ok out' ∧
      Room count out' ∧ Filled OpaqueAt out' (produced ++ items) := by
  induction items generalizing first produced out with
  | nil =>
      rw [List.append_nil]
      exact ⟨out, rfl, fits, filled⟩
  | cons item rest ih =>
      rw [List.length_cons] at inside
      have space : produced.length < count := by omega
      obtain ⟨blue, green, red⟩ := stored 0 item rfl
      rw [Nat.add_zero] at blue green red
      have wrote : crossPixel pixels (first * bpp) produced.length out =
          .ok (setOpaque out produced.length item) :=
        assignOpaque_ok (fun _ => index pixels (first * bpp))
          (fun _ => index pixels (first * bpp + 1)) (fun _ => index pixels (first * bpp + 2)) fits
          space (Program.index_eq_ok.mpr blue) (Program.index_eq_ok.mpr green)
          (Program.index_eq_ok.mpr red)
      have puts := setOpaque_puts fits space item
      have behind : ∀ k other, rest[k]? = some other →
          StoredAt pixels ((first + 1 + k) * bpp) other := by
        intro k other found
        have shown := stored (k + 1) other found
        rw [Nat.add_comm k, ← Nat.add_assoc] at shown
        exact shown
      have longer : (produced ++ [item]).length = produced.length + 1 := by
        rw [List.length_append, List.length_singleton]
      have room : (produced ++ [item]).length + rest.length ≤ count := by
        rw [longer]
        omega
      obtain ⟨out', ran, fits', filled'⟩ := ih behind (filled.push puts) puts.fits room
      rw [List.append_assoc, List.singleton_append] at filled'
      refine ⟨out', ?_, fits', filled'⟩
      rw [List.length_cons, crossRun, Program.bind_ok wrote]
      rw [longer, Nat.succ_mul] at ran
      exact ran

theorem token_reference (window : Option GlzWindow) (selfId : Nat) {len pixelOfs imageDist : Nat}
    {form : Form} (positive : 1 ≤ len) (small : len < 2 ^ 32) (fits : form.Fits pixelOfs imageDist)
    (ahead : Ahead body cursor.ip (encodeReference len pixelOfs imageDist form)) :
    token window selfId body count cursor =
      if cursor.op + len > count then .error (.error .badReference)
      else if imageDist = 0 then
        intra
          { len := len
            pixelOfs := pixelOfs + 1
            imageDist := imageDist
            ip := cursor.ip + (encodeReference len pixelOfs imageDist form).length }
          { cursor with ip := cursor.ip + 1 }
      else
        cross window selfId
          { len := len
            pixelOfs := pixelOfs
            imageDist := imageDist
            ip := cursor.ip + (encodeReference len pixelOfs imageDist form).length }
          { cursor with ip := cursor.ip + 1 } := by
  obtain ⟨taken, ahead⟩ := take_ok ahead
  have flag : form.flag ≤ 1 := by
    cases form with
    | short extras => exact Nat.zero_le 1
    | long extras wide => exact Nat.le_refl 1
  have near := fits.pixelOfs_lt
  have control : (UInt8.ofNat (min len 7 * 32 + form.flag * 16 + pixelOfs % 16)).toNat =
      min len 7 * 32 + form.flag * 16 + pixelOfs % 16 := by
    rw [Bytes.toNat_ofNat]
    omega
  have copies : min len 7 * 32 + form.flag * 16 + pixelOfs % 16 ≥ MAX_COPY := by
    unfold MAX_COPY
    omega
  have read := readReference_ok small fits ahead
  have position : cursor.ip + (encodeReference len pixelOfs imageDist form).length =
      cursor.ip + 1 + (lengthBytes len ++ form.tail pixelOfs imageDist).length := by
    rw [encodeReference, List.length_cons]
    omega
  rw [position, token, Program.bind_ok taken]
  dsimp only
  rw [control, if_pos copies, backReference, Program.bind_ok read]
  by_cases here : imageDist = 0
  · have biased : addU32 pixelOfs 1 = .ok (pixelOfs + 1) := addU32_ok (by omega)
    simp only [if_pos here, Program.bind_ok biased]
  · simp only [if_neg here, Program.bind_ok (Eq.refl (Except.ok pixelOfs))]

def referred (window : Option GlzWindow) (selfId imageDist : Nat) : Option WindowEntry :=
  window.bind fun window => window.get (targetId selfId imageDist)

/-- The pixels that a session takes its stored images for are those of its window, however
many bytes each of them takes. -/
def Stores (window : Option GlzWindow) (selfId : Nat) (images : Nat → Option (List Bgr)) : Prop :=
  ∀ imageDist image, images imageDist = some image →
    ∃ entry, referred window selfId imageDist = some entry ∧ entry.bpp < 2 ^ 32 ∧
      image.length * entry.bpp ≤ entry.pixels.length ∧
        ∀ k item, image[k]? = some item → StoredAt entry.pixels (k * entry.bpp) item

theorem cross_referred (reference : Reference) :
    cross window selfId reference cursor =
      match referred window selfId reference.imageDist with
      | none => .error (.error (.crossImage reference.imageDist))
      | some entry => (do
          let srcStart ← mulUsize reference.pixelOfs entry.bpp
          let srcBytes ← mulUsize reference.len entry.bpp
          let srcEnd ← addUsize srcStart srcBytes
          if srcEnd > entry.pixels.length then .error (.error .badReference)
          else do
            let out ← crossRun entry.pixels entry.bpp reference.len srcStart cursor.op cursor.out
            .ok { ip := reference.ip, op := cursor.op + reference.len, out := out }) := by
  cases window with
  | none => rfl
  | some window => rfl

theorem cross_stored {reference : Reference} {entry : WindowEntry}
    (found : referred window selfId reference.imageDist = some entry)
    (bpp : entry.bpp < 2 ^ 32) (near : reference.pixelOfs < 2 ^ 25)
    (short : reference.len ≤ 2 ^ 24) :
    cross window selfId reference cursor =
      if reference.pixelOfs * entry.bpp + reference.len * entry.bpp > entry.pixels.length then
        .error (.error .badReference)
      else (do
        let out ← crossRun entry.pixels entry.bpp reference.len (reference.pixelOfs * entry.bpp)
          cursor.op cursor.out
        .ok { ip := reference.ip, op := cursor.op + reference.len, out := out }) := by
  have startBound : reference.pixelOfs * entry.bpp ≤ 2 ^ 25 * 2 ^ 32 :=
    Nat.mul_le_mul (Nat.le_of_lt near) (Nat.le_of_lt bpp)
  have countBound : reference.len * entry.bpp ≤ 2 ^ 24 * 2 ^ 32 :=
    Nat.mul_le_mul short (Nat.le_of_lt bpp)
  have start : mulUsize reference.pixelOfs entry.bpp = .ok (reference.pixelOfs * entry.bpp) :=
    if_pos (by omega)
  have bytes : mulUsize reference.len entry.bpp = .ok (reference.len * entry.bpp) :=
    if_pos (by omega)
  have sum : addUsize (reference.pixelOfs * entry.bpp) (reference.len * entry.bpp) =
      .ok (reference.pixelOfs * entry.bpp + reference.len * entry.bpp) := if_pos (by omega)
  rw [cross_referred, found]
  dsimp only
  rw [Program.bind_ok start, Program.bind_ok bytes, Program.bind_ok sum]

theorem lit_ok {window : Option GlzWindow} {selfId : Nat} {pixels : List Bgr}
    (some : 1 ≤ pixels.length) (few : pixels.length ≤ 32)
    (inside : (produced ++ pixels).length ≤ count) (reached : Reached OpaqueAt (Room count) cursor produced)
    (ahead : Ahead body cursor.ip
      (UInt8.ofNat (pixels.length - 1) :: pixels.flatMap Bgr.bytes)) :
    ∃ cursor', token window selfId body count cursor = .ok cursor' ∧
      cursor'.ip = cursor.ip + (pixels.flatMap Bgr.bytes).length + 1 ∧
      Reached OpaqueAt (Room count) cursor' (produced ++ pixels) := by
  rw [List.length_append] at inside
  obtain ⟨taken, ahead⟩ := take_ok ahead
  have control : (UInt8.ofNat (pixels.length - 1)).toNat + 1 = pixels.length := by
    rw [Bytes.toNat_ofNat]
    omega
  have takes : ∀ {ip dst out item}, Room count out → dst < count → Ahead body ip (Bgr.bytes item) →
      ∃ out', literalPixel body ip dst out = .ok (ip + (Bgr.bytes item).length, out') ∧
        Puts OpaqueAt (Room count) dst item out out' := by
    intro ip dst out item fits space ahead
    obtain ⟨blue, ahead⟩ := take_ok ahead
    obtain ⟨green, ahead⟩ := take_ok ahead
    obtain ⟨red, _ahead⟩ := take_ok ahead
    exact ⟨setOpaque out dst item, takeOpaque_ok fits space blue green red,
      setOpaque_puts fits space item⟩
  obtain ⟨out, ran, fit, filled⟩ := Lz77.takeRun_ok takes reached.filled reached.fits ahead inside
  rw [← reached.op] at ran inside
  have few : ¬ (UInt8.ofNat (pixels.length - 1)).toNat ≥ MAX_COPY := by
    unfold MAX_COPY
    omega
  refine
    ⟨{ ip := cursor.ip + 1 + (pixels.flatMap Bgr.bytes).length
       op := cursor.op + pixels.length
       out := out }, ?_, ?_, ⟨?_, fit, filled⟩⟩
  · rw [token, Program.bind_ok taken]
    dsimp only
    rw [if_neg few, literal, control]
    dsimp only
    rw [if_neg (by omega), Program.bind_ok ran]
  · dsimp only
    omega
  · rw [List.length_append, reached.op]

theorem intra_ok {window : Option GlzWindow} {selfId len dist : Nat} {form : Form} (small : count < 2 ^ 32)
    (positive : 1 ≤ len) (fits : form.Fits (dist - 1) 0)
    (extended : (Lz77.Token.copy len dist).extend produced = some result)
    (inside : result.length ≤ count) (reached : Reached OpaqueAt (Room count) cursor produced)
    (ahead : Ahead body cursor.ip (encodeReference len (dist - 1) 0 form)) :
    ∃ cursor', token window selfId body count cursor = .ok cursor' ∧
      cursor'.ip = cursor.ip + (encodeReference len (dist - 1) 0 form).length ∧
      Reached OpaqueAt (Room count) cursor' result := by
  obtain ⟨one, back, copied⟩ := Lz77.extend_copy extended
  have total := Lz77.copyBack_length copied
  have copies : ∀ {src dst out item}, Room count out → dst < count → OpaqueAt out src item →
      ∃ out', copyPixel src dst out = .ok out' ∧ Puts OpaqueAt (Room count) dst item out out' := by
    intro src dst out item fits space shown
    exact ⟨setOpaque out dst item, copyOpaque_ok fits space shown, setOpaque_puts fits space item⟩
  obtain ⟨out, ran, fit, filled⟩ :=
    Lz77.copyRun_ok copies reached.filled reached.fits back copied inside
  rw [← reached.op] at ran total back
  have unbiased : dist - 1 + 1 = dist := Nat.sub_add_cancel one
  have within : ¬ (dist = 0 ∨ dist > cursor.op) := by omega
  have short : len < 2 ^ 32 := by omega
  have space : cursor.op + len ≤ count := by omega
  have read := @token_reference _ count _ window selfId _ _ _ _ positive short fits ahead
  rw [if_neg (Nat.not_lt.mpr space), if_pos rfl, unbiased, intra] at read
  dsimp only at read
  rw [if_neg within, Program.bind_ok ran] at read
  exact ⟨_, read, rfl, ⟨total.symm, fit, filled⟩⟩

theorem cross_ok {window : Option GlzWindow} {selfId len imageDist pixelOfs : Nat} {form : Form}
    {images : Nat → Option (List Bgr)} (small : count ≤ 2 ^ 24)
    (stores : Stores window selfId images) (positive : 1 ≤ len) (elsewhere : 1 ≤ imageDist)
    (fits : form.Fits pixelOfs imageDist)
    (extended : (GlzToken.cross len imageDist pixelOfs).extend images produced = some result)
    (inside : result.length ≤ count) (reached : Reached OpaqueAt (Room count) cursor produced)
    (ahead : Ahead body cursor.ip (encodeReference len pixelOfs imageDist form)) :
    ∃ cursor', token window selfId body count cursor = .ok cursor' ∧
      cursor'.ip = cursor.ip + (encodeReference len pixelOfs imageDist form).length ∧
      Reached OpaqueAt (Room count) cursor' result := by
  rw [GlzToken.extend] at extended
  cases known : images imageDist with
  | none =>
      rw [known] at extended
      cases extended
  | some image =>
      rw [known] at extended
      dsimp only at extended
      obtain ⟨entry, found, bpp, size, stored⟩ := stores imageDist image known
      by_cases within : pixelOfs + len ≤ image.length
      · rw [if_pos within] at extended
        cases extended
        have sliced : ((image.drop pixelOfs).take len).length = len := by
          rw [List.length_take, List.length_drop]
          omega
        rw [List.length_append, sliced] at inside
        have slices : ∀ k item, ((image.drop pixelOfs).take len)[k]? = some item →
            StoredAt entry.pixels ((pixelOfs + k) * entry.bpp) item := by
          intro k item shown
          have inRange : k < len := by
            obtain ⟨bound, _value⟩ := List.getElem?_eq_some_iff.mp shown
            rw [sliced] at bound
            exact bound
          rw [List.getElem?_take_of_lt inRange, List.getElem?_drop] at shown
          exact stored _ item shown
        have run := crossRun_ok slices reached.filled reached.fits (by rw [sliced]; exact inside)
        rw [sliced] at run
        obtain ⟨out, ran, fit, filled⟩ := run
        rw [← reached.op] at ran inside
        have away : imageDist ≠ 0 := Nat.ne_of_gt elsewhere
        have whole : ¬ pixelOfs * entry.bpp + len * entry.bpp > entry.pixels.length := by
          have bytes : (pixelOfs + len) * entry.bpp ≤ image.length * entry.bpp :=
            Nat.mul_le_mul_right _ within
          rw [Nat.add_mul] at bytes
          omega
        have read := @token_reference _ count _ window selfId _ _ _ _ positive (by omega) fits ahead
        rw [if_neg (Nat.not_lt.mpr inside), if_neg away,
          cross_stored found bpp fits.pixelOfs_lt (by dsimp only; omega)] at read
        dsimp only at read
        rw [if_neg whole, Program.bind_ok ran] at read
        refine ⟨_, read, rfl, ⟨?_, fit, filled⟩⟩
        rw [List.length_append, sliced, reached.op]
      · rw [if_neg within] at extended
        cases extended

theorem encodes_some (token : GlzToken) (bytes : List UInt8) (encoded : Encodes token bytes) :
    bytes ≠ [] := by
  cases token with
  | lit pixels =>
      obtain ⟨_some, _few, rfl⟩ := encoded
      exact List.cons_ne_nil _ _
  | intra len dist =>
      obtain ⟨_positive, _one, form, _fits, rfl⟩ := encoded
      exact List.cons_ne_nil _ _
  | cross len imageDist pixelOfs =>
      obtain ⟨_positive, _away, form, _fits, rfl⟩ := encoded
      exact List.cons_ne_nil _ _

theorem encodes_grows (images : Nat → Option (List Bgr)) :
    Lz77.Grows Encodes (GlzToken.extend images) := by
  intro token bytes produced longer encoded extended
  cases token with
  | lit pixels =>
      obtain ⟨some, _few, rfl⟩ := encoded
      cases extended
      rw [List.length_append]
      exact ⟨Nat.lt_add_of_pos_right some, Nat.succ_pos _⟩
  | intra len dist =>
      obtain ⟨positive, _one, form, _fits, rfl⟩ := encoded
      have total := Lz77.copyBack_length (Lz77.extend_copy extended).2.2
      exact ⟨by omega, Nat.succ_pos _⟩
  | cross len imageDist pixelOfs =>
      obtain ⟨positive, _away, form, _fits, rfl⟩ := encoded
      refine ⟨?_, Nat.succ_pos _⟩
      rw [GlzToken.extend] at extended
      cases found : images imageDist with
      | none =>
          rw [found] at extended
          cases extended
      | some image =>
          rw [found] at extended
          dsimp only at extended
          split at extended
          · cases extended
            rw [List.length_append, List.length_take, List.length_drop]
            omega
          · cases extended

theorem token_decodes {window : Option GlzWindow} {selfId : Nat}
    {images : Nat → Option (List Bgr)} (small : count ≤ 2 ^ 24)
    (stores : Stores window selfId images) :
    Lz77.Decodes (token window selfId body count) count body OpaqueAt (Room count) Encodes
      (GlzToken.extend images) := by
  intro token bytes produced longer cursor encoded extended inside reached ahead
  cases token with
  | lit pixels =>
      obtain ⟨some, few, rfl⟩ := encoded
      cases extended
      exact lit_ok some few inside reached ahead
  | intra len dist =>
      obtain ⟨positive, _one, form, fits, rfl⟩ := encoded
      exact intra_ok (by omega) positive fits extended inside reached ahead
  | cross len imageDist pixelOfs =>
      obtain ⟨positive, elsewhere, form, fits, rfl⟩ := encoded
      exact cross_ok small stores positive elsewhere fits extended inside reached ahead

end Tokens

/-- Behind the bytes of a header, the decoder returns the naive expansion of every legal
encoding over the images that are stored. -/
theorem decoder_expands {header : GlzHeader} {head : List UInt8} {window : Option GlzWindow}
    {images : Nat → Option (List Bgr)} {tokens : List GlzToken} {pieces : List (List UInt8)}
    {pixels : List Bgr} {bytes : Nat} (whole : head.length = GLZ_HEADER_SIZE)
    (rgb32 : header.imageType = .rgb32)
    (accepted : validateDims header.width header.height 4 = .ok bytes)
    (stores : Stores window header.id images) (encoded : List.Forall₂ Encodes tokens pieces)
    (expanded : expandBy (GlzToken.extend images) [] tokens = some pixels)
    (size : pixels.length = header.width * header.height) (suffix : List UInt8) :
    decompressRgb32Inner (head ++ (pieces.flatten ++ suffix)) header window header.id =
      .ok (packed (pixels.map fun pixel => pixel.withAlpha 0)) := by
  obtain ⟨_bytes, _width, _height, _maxWidth, _maxHeight, cap⟩ := checkDims_ok accepted
  have small : header.width * header.height ≤ 2 ^ 24 := by
    unfold MAX_IMAGE_BYTES at cap
    omega
  have zeros : Room (header.width * header.height)
      (List.replicate (header.width * header.height * 4) 0) := List.length_replicate
  have start : Reached OpaqueAt (Room (header.width * header.height))
      { ip := 0, op := 0, out := List.replicate (header.width * header.height * 4) 0 } [] :=
    ⟨rfl, zeros, Filled.nil _⟩
  have within : (pieces.flatten ++ suffix).length < 0 + ((pieces.flatten ++ suffix).length + 1) := by
    omega
  obtain ⟨cursor, ran, _position, reached⟩ :=
    Lz77.decodeLoop_ok .fuel (token_decodes small stores) (encodes_grows _) encodes_some encoded
      expanded size start (Ahead.start _ suffix) within (Nat.succ_pos _)
  have looped : imageLoop window header.id (pieces.flatten ++ suffix)
      (header.width * header.height) ((pieces.flatten ++ suffix).length + 1)
      { ip := 0, op := 0, out := List.replicate (header.width * header.height * 4) 0 } =
        .ok cursor := ran
  have full : cursor.out.length = pixels.length * 4 := by
    rw [size]
    exact reached.fits
  have shown := eq_packed_opaque full reached.filled
  have valid : (validateDims header.width header.height 4).mapError Program.Fault.error =
      .ok bytes := by
    rw [accepted]
    rfl
  have long : ¬ (head ++ (pieces.flatten ++ suffix)).length < GLZ_HEADER_SIZE := by
    rw [List.length_append, whole]
    omega
  have body : (head ++ (pieces.flatten ++ suffix)).drop GLZ_HEADER_SIZE =
      pieces.flatten ++ suffix := by
    rw [← whole]
    exact List.drop_left
  rw [decompressRgb32Inner, Program.bind_ok valid, if_neg (not_not_intro rgb32), if_neg long]
  dsimp only
  rw [body, Program.bind_ok looped, shown]

theorem stores_image {window : GlzWindow} {selfId : Nat}
    (bgra : ∀ id entry, window.get id = some entry → entry.bpp = 4) :
    Stores (some window) selfId (window.image selfId) := by
  intro imageDist image known
  obtain ⟨entry, found, rfl⟩ := Option.map_eq_some_iff.mp known
  have four := bgra _ entry found
  refine ⟨entry, found, by omega, ?_, ?_⟩
  · rw [List.length_map, four]
    exact unpacked_length_le entry.pixels
  · intro k item shown
    rw [List.getElem?_map, Option.map_eq_some_iff] at shown
    obtain ⟨pixel, atPixel, rfl⟩ := shown
    obtain ⟨blue, green, red⟩ := unpacked_colourAt atPixel
    rw [four]
    exact ⟨blue, green, red⟩

/-- Behind the bytes of a header, the decoder returns the naive expansion of every
legal encoding. -/
theorem glz_streams_decoded {header : GlzHeader} {head : List UInt8} {window : GlzWindow}
    {tokens : List GlzToken} {pieces : List (List UInt8)} {pixels : List Bgr} {bytes : Nat}
    (whole : head.length = GLZ_HEADER_SIZE) (rgb32 : header.imageType = .rgb32)
    (accepted : validateDims header.width header.height 4 = .ok bytes)
    (bgra : ∀ id entry, window.get id = some entry → entry.bpp = 4)
    (encoded : List.Forall₂ Encodes tokens pieces)
    (expanded : expandBy (GlzToken.extend (window.image header.id)) [] tokens = some pixels)
    (size : pixels.length = header.width * header.height) (suffix : List UInt8) :
    decompressRgb32 (head ++ (pieces.flatten ++ suffix)) header window =
      .ok (packed (pixels.map fun pixel => pixel.withAlpha 0)) :=
  decoder_expands whole rgb32 accepted (stores_image bgra) encoded expanded size suffix

/-- A literal run, a reference inside the image and one to the image before it, the
first reference in the short form and the second in the long one. -/
theorem glz_streams_decoded_mixed :
    decompressRgb32
      ((GlzHeader.mk .rgb32 true 3 2 12 8 1).encode ++
        [1, 1, 2, 3, 4, 5, 6, 0x41, 0, 0x40, 0, 0x51, 0, 0x60, 1, 0])
      (GlzHeader.mk .rgb32 true 3 2 12 8 1)
      (GlzWindow.default.insert 7 [9, 9, 9, 0, 7, 7, 7, 0, 8, 8, 8, 0] 4) =
    .ok [1, 2, 3, 0, 4, 5, 6, 0, 1, 2, 3, 0, 4, 5, 6, 0, 7, 7, 7, 0, 8, 8, 8, 0] := by
  have encoded : List.Forall₂ Encodes
      [.lit [⟨1, 2, 3⟩, ⟨4, 5, 6⟩], .intra 2 2, .cross 2 1 1]
      [[1, 1, 2, 3, 4, 5, 6], [0x41, 0, 0x40, 0], [0x51, 0, 0x60, 1, 0]] :=
    .cons ⟨by decide, by decide, rfl⟩ (.cons ⟨by decide, by decide, .short 1, by decide, by decide⟩
      (.cons ⟨by decide, by decide, .long 1 true, by decide, by decide⟩ .nil))
  have bgra : ∀ id entry,
      (GlzWindow.default.insert 7 [9, 9, 9, 0, 7, 7, 7, 0, 8, 8, 8, 0] 4).get id = some entry →
        entry.bpp = 4 := by
    intro id entry found
    rcases GlzWindow.get_insert found with ⟨_same, _pixels, bpp⟩ | ⟨_differs, before⟩
    · exact bpp
    · cases before
  exact @glz_streams_decoded (GlzHeader.mk .rgb32 true 3 2 12 8 1) _ _ _ _
    [⟨1, 2, 3⟩, ⟨4, 5, 6⟩, ⟨1, 2, 3⟩, ⟨4, 5, 6⟩, ⟨7, 7, 7⟩, ⟨8, 8, 8⟩] 24
    (GlzHeader.encode_length _) rfl rfl bgra encoded (by decide) rfl []

end Capsaicin.Glz
