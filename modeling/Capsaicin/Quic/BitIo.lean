/-
The bit reader and the bit writer. Both see the body as little-endian 32-bit
words whose bits go out most significant first; `BitReader.bit` and
`BitWriter.bits` are that stream on the two sides.
-/

import Capsaicin.Library.BitString
import Capsaicin.Quic.Format

namespace Capsaicin.Quic

open Bytes (ofLe toLe slice)
open BitString (Shows Window)

def bppmask (i : Nat) : Nat := if i ≥ 32 then 0xFFFFFFFF else (1 <<< i) - 1

structure BitReader where
  bytes : List UInt8
  bodyStart : Nat
  bitPos : Nat
  deriving DecidableEq, Repr

def BitReader.newAfterHeader (bytes : List UInt8) : Except QuicError BitReader :=
  if bytes.length < QUIC_HEADER_SIZE then .error (.short QUIC_HEADER_SIZE bytes.length)
  else .ok { bytes := bytes, bodyStart := QUIC_HEADER_SIZE, bitPos := 0 }

def BitReader.readWordAt (reader : BitReader) (byteOffset : Nat) : Nat :=
  if byteOffset + 4 ≤ reader.bytes.length then
    ofLe (slice reader.bytes byteOffset (byteOffset + 4))
  else 0

def BitReader.peek32 (reader : BitReader) : Nat :=
  let wordIdx := reader.bitPos / 32
  let bitInWord := reader.bitPos % 32
  let off := reader.bodyStart + wordIdx * 4
  let w0 := reader.readWordAt off
  if bitInWord = 0 then w0
  else
    let w1 := reader.readWordAt (off + 4)
    ((w0 <<< bitInWord) % 2 ^ 32) ||| (w1 >>> (32 - bitInWord))

/-- Reading may run one word past the end of the buffer, not further. -/
def BitReader.eat (reader : BitReader) (len : Nat) : Except QuicFault BitReader :=
  let newPos := reader.bitPos + len
  let maxBits := (reader.bytes.length - reader.bodyStart) * 8
  if newPos > maxBits + 32 then .error (.error (.short ((newPos - maxBits) / 8) 0))
  else .ok { reader with bitPos := newPos }

structure BitWriter where
  buf : List UInt8
  ioWord : Nat
  available : Nat
  deriving DecidableEq, Repr

def BitWriter.new : BitWriter := { buf := [], ioWord := 0, available := 32 }

def BitWriter.flushWord (writer : BitWriter) : BitWriter :=
  { buf := writer.buf ++ toLe 4 writer.ioWord, ioWord := 0, available := 32 }

/-- Write `len` low bits of `word`; the debug assertions of the source hold at
every call (`0 < len < 32` and `word < 2 ^ len`). -/
def BitWriter.write (writer : BitWriter) (word len : Nat) : BitWriter :=
  if len < writer.available then
    { writer with
      available := writer.available - len
      ioWord := writer.ioWord ||| ((word <<< (writer.available - len)) % 2 ^ 32) }
  else
    let delta := len - writer.available
    let flushed := { writer with ioWord := writer.ioWord ||| (word >>> delta) }.flushWord
    { flushed with
      available := 32 - delta
      ioWord := if delta = 0 then 0 else (word <<< ((32 - delta) % 32)) % 2 ^ 32 }

def BitWriter.finish (writer : BitWriter) : List UInt8 :=
  if writer.available ≠ 32 then writer.flushWord.buf else writer.buf

def BitWriter.writeOnes (writer : BitWriter) (n : Nat) : BitWriter :=
  if 31 ≤ n then (writer.write (bppmask 31) 31).writeOnes (n - 31)
  else if 0 < n then writer.write (bppmask n) n
  else writer
termination_by n

/-! ### The stream of a reader -/

/-- Bit `position` of the body; zero from the first incomplete word on. -/
def BitReader.bit (reader : BitReader) (position : Nat) : Bool :=
  (reader.readWordAt (reader.bodyStart + position / 32 * 4)).testBit (31 - position % 32)

theorem BitReader.readWordAt_lt (reader : BitReader) (offset : Nat) :
    reader.readWordAt offset < 2 ^ 32 := by
  unfold readWordAt
  split
  · have bound := Bytes.ofLe_lt (slice reader.bytes offset (offset + 4))
    have size : (slice reader.bytes offset (offset + 4)).length ≤ 4 := by
      unfold slice
      rw [List.length_take]
      omega
    calc ofLe (slice reader.bytes offset (offset + 4))
        < 256 ^ (slice reader.bytes offset (offset + 4)).length := bound
      _ ≤ 256 ^ 4 := Nat.pow_le_pow_right (by decide) size
      _ = 2 ^ 32 := by decide
  · decide

theorem BitReader.peek32_window (reader : BitReader) :
    Window reader.bit reader.bitPos reader.peek32 := by
  have small := reader.readWordAt_lt
  by_cases aligned : reader.bitPos % 32 = 0
  · have value : reader.peek32 = reader.readWordAt (reader.bodyStart + reader.bitPos / 32 * 4) := by
      simp only [peek32, if_pos aligned]
    constructor
    · rw [value]
      exact small _
    · intro offset inRange
      have word : (reader.bitPos + offset) / 32 = reader.bitPos / 32 := by omega
      have place : (reader.bitPos + offset) % 32 = offset := by omega
      rw [value]
      unfold bit
      rw [word, place]
  · have value : reader.peek32 =
        ((reader.readWordAt (reader.bodyStart + reader.bitPos / 32 * 4)
            <<< (reader.bitPos % 32)) % 2 ^ 32) |||
          (reader.readWordAt (reader.bodyStart + reader.bitPos / 32 * 4 + 4)
            >>> (32 - reader.bitPos % 32)) := by
      simp only [peek32, if_neg aligned]
    constructor
    · rw [value]
      apply Nat.or_lt_two_pow
      · exact Nat.mod_lt _ (by decide)
      · exact Nat.lt_of_le_of_lt (Nat.shiftRight_le _ _) (small _)
    · intro offset inRange
      rw [value, Nat.testBit_or, Nat.testBit_mod_two_pow, Nat.testBit_shiftLeft,
        Nat.testBit_shiftRight]
      have inWord : decide (31 - offset < 32) = true := decide_eq_true (by omega)
      rw [inWord, Bool.true_and]
      unfold bit
      by_cases first : offset + reader.bitPos % 32 < 32
      · -- the bit still lies in the first of the two words
        have word : (reader.bitPos + offset) / 32 = reader.bitPos / 32 := by omega
        have place : 31 - (reader.bitPos + offset) % 32 =
            31 - offset - reader.bitPos % 32 := by omega
        have reached : decide (31 - offset ≥ reader.bitPos % 32) = true :=
          decide_eq_true (by omega)
        have beyond : (reader.readWordAt (reader.bodyStart + reader.bitPos / 32 * 4 + 4)).testBit
            (32 - reader.bitPos % 32 + (31 - offset)) = false := by
          apply Nat.testBit_lt_two_pow
          exact Nat.lt_of_lt_of_le (small _) (Nat.pow_le_pow_right (by decide) (by omega))
        rw [word, place, reached, beyond, Bool.true_and, Bool.or_false]
      · have word : reader.bodyStart + (reader.bitPos + offset) / 32 * 4 =
            reader.bodyStart + reader.bitPos / 32 * 4 + 4 := by omega
        have place : 31 - (reader.bitPos + offset) % 32 =
            32 - reader.bitPos % 32 + (31 - offset) := by omega
        have short : decide (31 - offset ≥ reader.bitPos % 32) = false :=
          decide_eq_false (by omega)
        rw [word, place, short, Bool.false_and, Bool.false_or]

/-! ### The stream of a writer -/

def wordBits : List UInt8 → List Bool
  | b0 :: b1 :: b2 :: b3 :: rest => BitString.ofNat 32 (ofLe [b0, b1, b2, b3]) ++ wordBits rest
  | _ => []

def BitWriter.bits (writer : BitWriter) : List Bool :=
  wordBits writer.buf ++ BitString.ofNat (32 - writer.available) (writer.ioWord >>> writer.available)

structure BitWriter.Sound (writer : BitWriter) : Prop where
  aligned : writer.buf.length % 4 = 0
  room : 0 < writer.available
  roomLe : writer.available ≤ 32
  bounded : writer.ioWord < 2 ^ 32
  clean : ∀ position, position < writer.available → writer.ioWord.testBit position = false

theorem BitWriter.new_sound : BitWriter.new.Sound where
  aligned := rfl
  room := by decide
  roomLe := by decide
  bounded := by decide
  clean := fun position _free => Nat.zero_testBit position

theorem nil_of_no_word {buf : List UInt8} (aligned : buf.length % 4 = 0)
    (short : ∀ b0 b1 b2 b3 rest, buf = b0 :: b1 :: b2 :: b3 :: rest → False) : buf = [] := by
  rcases buf with _ | ⟨b0, _ | ⟨b1, _ | ⟨b2, _ | ⟨b3, rest⟩⟩⟩⟩
  · rfl
  · simp at aligned
  · simp at aligned
  · simp at aligned
  · exact (short b0 b1 b2 b3 rest rfl).elim

private theorem wordBits_append_word (buf : List UInt8) (word : Nat) (aligned : buf.length % 4 = 0)
    (bounded : word < 2 ^ 32) :
    wordBits (buf ++ toLe 4 word) = wordBits buf ++ BitString.ofNat 32 word := by
  induction buf using wordBits.induct with
  | case1 b0 b1 b2 b3 rest ih =>
      have restAligned : rest.length % 4 = 0 := by
        simp only [List.length_cons] at aligned
        omega
      simp only [List.cons_append, wordBits, ih restAligned, List.append_assoc]
  | case2 buf short =>
      have empty := nil_of_no_word aligned short
      subst empty
      change BitString.ofNat 32 (ofLe (toLe 4 word)) ++ [] = [] ++ BitString.ofNat 32 word
      rw [Bytes.ofLe_toLe (by omega), List.append_nil, List.nil_append]

private theorem testBit_above {value width position : Nat} (bounded : value < 2 ^ width)
    (above : width ≤ position) : value.testBit position = false :=
  Nat.testBit_lt_two_pow (Nat.lt_of_lt_of_le bounded (Nat.pow_le_pow_right (by decide) above))

private theorem shiftLeft_lt {word len shift : Nat} (fits : word < 2 ^ len) (room : len + shift ≤ 32) :
    word <<< shift < 2 ^ 32 := by
  rw [Nat.shiftLeft_eq]
  calc word * 2 ^ shift < 2 ^ len * 2 ^ shift := Nat.mul_lt_mul_of_pos_right fits (Nat.two_pow_pos _)
    _ = 2 ^ (len + shift) := (Nat.pow_add 2 len shift).symm
    _ ≤ 2 ^ 32 := Nat.pow_le_pow_right (by decide) room

private theorem write_inside {writer : BitWriter} {word len : Nat} (sound : writer.Sound)
    (fits : word < 2 ^ len) (inside : len < writer.available) :
    (writer.write word len).Sound ∧
      (writer.write word len).bits = writer.bits ++ BitString.ofNat len word := by
  have roomLe := sound.roomLe
  have small : word <<< (writer.available - len) < 2 ^ 32 := shiftLeft_lt fits (by omega)
  have written : writer.write word len =
      { writer with
        available := writer.available - len
        ioWord := writer.ioWord ||| (word <<< (writer.available - len)) } := by
    unfold BitWriter.write
    rw [if_pos inside, Nat.mod_eq_of_lt small]
  constructor
  · rw [written]
    refine ⟨sound.aligned, by change 0 < writer.available - len; omega,
      by change writer.available - len ≤ 32; omega, Nat.or_lt_two_pow sound.bounded small, ?_⟩
    intro position free
    change position < writer.available - len at free
    change (writer.ioWord ||| word <<< (writer.available - len)).testBit position = false
    rw [Nat.testBit_or, sound.clean position (by omega), Nat.testBit_shiftLeft,
      decide_eq_false (by omega), Bool.false_and, Bool.false_or]
  · have split : 32 - (writer.available - len) = (32 - writer.available) + len := by omega
    rw [written]
    unfold BitWriter.bits
    change wordBits writer.buf ++ BitString.ofNat (32 - (writer.available - len))
      ((writer.ioWord ||| word <<< (writer.available - len)) >>> (writer.available - len)) = _
    rw [split, BitString.ofNat_add, List.append_assoc]
    congr 2
    · apply BitString.ofNat_congr
      intro position _inRange
      rw [Nat.testBit_shiftRight, Nat.testBit_shiftRight, Nat.testBit_shiftRight, Nat.testBit_or,
        Nat.testBit_shiftLeft]
      have place : writer.available - len + (len + position) = writer.available + position := by omega
      have high : word.testBit (writer.available + position - (writer.available - len)) = false :=
        testBit_above fits (by omega)
      rw [place, high, Bool.and_false, Bool.or_false]
    · apply BitString.ofNat_congr
      intro position inRange
      rw [Nat.testBit_shiftRight, Nat.testBit_or, sound.clean _ (by omega), Nat.testBit_shiftLeft,
        decide_eq_true (by omega), Bool.true_and, Bool.false_or, Nat.add_sub_cancel_left]

/-- The bits of a field that the current word has no room for, at the top of the next word. -/
private def carried (delta word : Nat) : Nat :=
  if delta = 0 then 0 else (word <<< ((32 - delta) % 32)) % 2 ^ 32

private theorem carried_lt (delta word : Nat) : carried delta word < 2 ^ 32 := by
  unfold carried
  split
  · decide
  · exact Nat.mod_lt _ (by decide)

private theorem carried_clean {delta word position : Nat} (short : delta < 32)
    (free : position < 32 - delta) : (carried delta word).testBit position = false := by
  unfold carried
  split
  · exact Nat.zero_testBit position
  · rw [Nat.mod_eq_of_lt (show 32 - delta < 32 by omega), Nat.testBit_mod_two_pow,
      Nat.testBit_shiftLeft, decide_eq_false (show ¬position ≥ 32 - delta by omega),
      Bool.false_and, Bool.and_false]

private theorem ofNat_carried {delta word : Nat} (short : delta < 32) :
    BitString.ofNat delta (carried delta word >>> (32 - delta)) = BitString.ofNat delta word := by
  apply BitString.ofNat_congr
  intro position inRange
  have some : delta ≠ 0 := by omega
  unfold carried
  rw [Nat.testBit_shiftRight, if_neg some, Nat.mod_eq_of_lt (show 32 - delta < 32 by omega),
    Nat.testBit_mod_two_pow, Nat.testBit_shiftLeft, Nat.add_sub_cancel_left,
    decide_eq_true (show 32 - delta + position < 32 by omega),
    decide_eq_true (show 32 - delta + position ≥ 32 - delta by omega), Bool.true_and,
    Bool.true_and]

private theorem ofNat_filled {writer : BitWriter} {word delta : Nat} (sound : writer.Sound)
    (fits : word < 2 ^ (writer.available + delta)) :
    BitString.ofNat 32 (writer.ioWord ||| (word >>> delta)) =
      BitString.ofNat (32 - writer.available) (writer.ioWord >>> writer.available) ++
        BitString.ofNat writer.available (word >>> delta) := by
  have roomLe := sound.roomLe
  have word32 : (32 : Nat) = 32 - writer.available + writer.available := by omega
  conv_lhs => rw [word32]
  rw [BitString.ofNat_add]
  congr 1
  · apply BitString.ofNat_congr
    intro position _inRange
    have high : word.testBit (delta + (writer.available + position)) = false :=
      testBit_above fits (by omega)
    rw [Nat.testBit_shiftRight, Nat.testBit_shiftRight, Nat.testBit_or, Nat.testBit_shiftRight,
      high, Bool.or_false]
  · apply BitString.ofNat_congr
    intro position inRange
    rw [Nat.testBit_or, sound.clean position inRange, Bool.false_or]

private theorem write_across {writer : BitWriter} {word len : Nat} (sound : writer.Sound)
    (short : len < 32) (fits : word < 2 ^ len) (across : writer.available ≤ len) :
    (writer.write word len).Sound ∧
      (writer.write word len).bits = writer.bits ++ BitString.ofNat len word := by
  have room := sound.room
  obtain ⟨delta, lenEq⟩ : ∃ delta, len = writer.available + delta :=
    ⟨len - writer.available, by omega⟩
  have small : delta < 32 := by omega
  have filled : writer.ioWord ||| (word >>> delta) < 2 ^ 32 := by
    apply Nat.or_lt_two_pow sound.bounded
    exact Nat.lt_of_le_of_lt (Nat.shiftRight_le word delta)
      (Nat.lt_of_lt_of_le fits (Nat.pow_le_pow_right (by decide) (by omega)))
  have written : writer.write word len =
      { buf := writer.buf ++ toLe 4 (writer.ioWord ||| (word >>> delta))
        available := 32 - delta
        ioWord := carried delta word } := by
    have difference : len - writer.available = delta := by omega
    unfold BitWriter.write
    rw [if_neg (by omega), difference]
    rfl
  rw [written]
  constructor
  · refine ⟨?_, by change 0 < 32 - delta; omega, Nat.sub_le 32 delta, carried_lt delta word, ?_⟩
    · have aligned := sound.aligned
      simp only [List.length_append, Bytes.length_toLe]
      omega
    · intro position free
      exact carried_clean small free
  · have back : 32 - (32 - delta) = delta := by omega
    unfold BitWriter.bits
    change wordBits (writer.buf ++ toLe 4 (writer.ioWord ||| (word >>> delta))) ++
      BitString.ofNat (32 - (32 - delta)) (carried delta word >>> (32 - delta)) = _
    rw [wordBits_append_word _ _ sound.aligned filled, back, ofNat_filled sound (lenEq ▸ fits),
      ofNat_carried small, lenEq, BitString.ofNat_add]
    simp only [List.append_assoc]

/-- `write` appends the field to the stream. -/
theorem BitWriter.write_bits {writer : BitWriter} {word len : Nat} (sound : writer.Sound)
    (short : len < 32) (fits : word < 2 ^ len) :
    (writer.write word len).Sound ∧
      (writer.write word len).bits = writer.bits ++ BitString.ofNat len word := by
  by_cases inside : len < writer.available
  · exact write_inside sound fits inside
  · exact write_across sound short fits (by omega)

theorem bppmask_eq {count : Nat} (short : count < 32) : bppmask count = 2 ^ count - 1 := by
  unfold bppmask
  rw [if_neg (by omega), Nat.shiftLeft_eq, Nat.one_mul]

theorem BitWriter.writeOnes_bits {writer : BitWriter} (n : Nat) (sound : writer.Sound) :
    (writer.writeOnes n).Sound ∧
      (writer.writeOnes n).bits = writer.bits ++ List.replicate n true := by
  induction n using Nat.strong_induction_on generalizing writer with
  | _ n ih =>
      unfold BitWriter.writeOnes
      by_cases long : 31 ≤ n
      · have chunk := BitWriter.write_bits sound (show 31 < 32 by decide)
          (show bppmask 31 < 2 ^ 31 by decide)
        have rest := ih (n - 31) (by omega) chunk.1
        rw [if_pos long]
        refine ⟨rest.1, ?_⟩
        have ones : BitString.ofNat 31 (bppmask 31) = List.replicate 31 true :=
          BitString.ofNat_ones 31
        have total : n = 31 + (n - 31) := by omega
        rw [rest.2, chunk.2, ones, List.append_assoc, ← List.replicate_add, ← total]
      · rw [if_neg long]
        by_cases some : 0 < n
        · have fits : bppmask n < 2 ^ n := by
            rw [bppmask_eq (by omega)]
            exact Nat.sub_lt (Nat.two_pow_pos n) (by decide)
          have field := BitWriter.write_bits sound (by omega) fits
          rw [if_pos some]
          refine ⟨field.1, ?_⟩
          rw [field.2, bppmask_eq (by omega), BitString.ofNat_ones]
        · have none : n = 0 := by omega
          rw [if_neg some, none, List.replicate_zero, List.append_nil]
          exact ⟨sound, rfl⟩

theorem BitWriter.bits_prefix_finish {writer : BitWriter} (sound : writer.Sound) :
    writer.finish.length % 4 = 0 ∧ writer.bits <+: wordBits writer.finish := by
  have aligned := sound.aligned
  have roomLe := sound.roomLe
  unfold BitWriter.finish
  split
  · constructor
    · simp only [BitWriter.flushWord, List.length_append, Bytes.length_toLe]
      omega
    · change writer.bits <+: wordBits (writer.buf ++ toLe 4 writer.ioWord)
      have word32 : (32 : Nat) = 32 - writer.available + writer.available := by omega
      rw [wordBits_append_word _ _ sound.aligned sound.bounded]
      conv => rhs; rw [word32]
      rw [BitString.ofNat_add, ← List.append_assoc]
      exact List.prefix_append _ _
  · rename_i full
    have empty : writer.available = 32 := by omega
    refine ⟨aligned, ?_⟩
    unfold BitWriter.bits
    rw [empty]
    exact (List.append_nil _).symm ▸ List.prefix_refl _

theorem BitReader.shows_wordBits {reader : BitReader} (front body suffix : List UInt8) (words : Nat)
    (placed : reader.bytes = front ++ body ++ suffix)
    (start : front.length = reader.bodyStart + 4 * words) :
    Shows reader.bit (32 * words) (wordBits body) := by
  induction body using wordBits.induct generalizing front words with
  | case1 b0 b1 b2 b3 rest ih =>
      have later := ih (front ++ [b0, b1, b2, b3]) (words + 1)
        (by rw [placed]; simp only [List.append_assoc, List.cons_append, List.nil_append])
        (by simp only [List.length_append, List.length_cons, List.length_nil]; omega)
      have word : reader.readWordAt (reader.bodyStart + words * 4) = ofLe [b0, b1, b2, b3] := by
        have offset : reader.bodyStart + words * 4 = front.length := by omega
        have inside : front.length + 4 ≤ reader.bytes.length := by
          rw [placed]
          simp only [List.length_append, List.length_cons]
          omega
        unfold BitReader.readWordAt
        rw [offset, if_pos inside, placed]
        unfold slice
        rw [List.append_assoc, List.drop_left, Nat.add_sub_cancel_left]
        rfl
      simp only [wordBits]
      apply BitString.shows_append.mpr
      constructor
      · intro position inRange
        rw [BitString.length_ofNat] at inRange
        have index : (32 * words + position) / 32 = words := by omega
        have place : (32 * words + position) % 32 = position := by omega
        rw [BitString.getElem_ofNat]
        unfold BitReader.bit
        rw [index, place, word]
      · rw [BitString.length_ofNat, ← Nat.mul_succ]
        exact later
  | case2 body short =>
      intro position inRange
      unfold wordBits at inRange
      split at inRange
      · rename_i b0 b1 b2 b3 rest _
        exact absurd rfl (short b0 b1 b2 b3 rest)
      · exact absurd inRange (Nat.not_lt_zero position)

end Capsaicin.Quic
