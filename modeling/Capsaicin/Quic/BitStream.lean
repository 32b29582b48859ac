/-
What the bit writer puts down the bit reader takes up again, field by field and
run code by run code, whatever stands before and behind it in the stream.
-/

import Capsaicin.Quic.Melcode
import Mathlib.Algebra.Ring.Nat

namespace Capsaicin.Quic

open BitString (Shows)

/-- One call on the writer: `write(v, n)` or `write_ones(m)`. -/
inductive Field where
  | value (v n : Nat)
  | ones (m : Nat)
  deriving DecidableEq, Repr

/-- What the debug assertions of `write` ask. -/
def Field.Fits : Field → Prop
  | .value v n => 0 < n ∧ n < 32 ∧ v < 2 ^ n
  | .ones _ => True

def Field.len : Field → Nat
  | .value _ n => n
  | .ones m => m

def Field.bits : Field → List Bool
  | .value v n => BitString.ofNat n v
  | .ones m => List.replicate m true

def BitWriter.put (writer : BitWriter) : Field → BitWriter
  | .value v n => writer.write v n
  | .ones m => writer.writeOnes m

def BitWriter.puts (writer : BitWriter) (fields : List Field) : BitWriter :=
  fields.foldl BitWriter.put writer

def totalBits (fields : List Field) : Nat := (fields.map Field.len).sum

@[simp] theorem Field.length_bits (field : Field) : field.bits.length = field.len := by
  cases field with
  | value v n => exact BitString.length_ofNat n v
  | ones m => exact List.length_replicate

theorem length_flatMap_bits (fields : List Field) :
    (fields.flatMap Field.bits).length = totalBits fields := by
  simp only [List.length_flatMap, Field.length_bits, totalBits]

theorem BitWriter.put_bits {writer : BitWriter} {field : Field} (sound : writer.Sound)
    (fits : field.Fits) :
    (writer.put field).Sound ∧ (writer.put field).bits = writer.bits ++ field.bits := by
  cases field with
  | value v n => exact BitWriter.write_bits sound fits.2.1 fits.2.2
  | ones m => exact BitWriter.writeOnes_bits m sound

theorem BitWriter.puts_bits {writer : BitWriter} {fields : List Field} (sound : writer.Sound)
    (fits : ∀ field ∈ fields, field.Fits) :
    (writer.puts fields).Sound ∧
      (writer.puts fields).bits = writer.bits ++ fields.flatMap Field.bits := by
  induction fields generalizing writer with
  | nil => exact ⟨sound, (List.append_nil _).symm⟩
  | cons field rest ih =>
      have first := BitWriter.put_bits sound (fits field List.mem_cons_self)
      have later := ih first.1 fun other member => fits other (List.mem_cons_of_mem field member)
      constructor
      · exact later.1
      · rw [List.flatMap_cons, ← List.append_assoc, ← first.2]
        exact later.2

/-! ### The finished stream -/

theorem length_wordBits {buf : List UInt8} (aligned : buf.length % 4 = 0) :
    (wordBits buf).length = 8 * buf.length := by
  induction buf using wordBits.induct with
  | case1 b0 b1 b2 b3 rest ih =>
      have restAligned : rest.length % 4 = 0 := by
        simp only [List.length_cons] at aligned
        omega
      simp only [wordBits, List.length_append, BitString.length_ofNat, List.length_cons,
        ih restAligned]
      omega
  | case2 buf short =>
      have empty := nil_of_no_word aligned short
      subst empty
      rfl

theorem BitWriter.length_bits {writer : BitWriter} (sound : writer.Sound) :
    writer.bits.length = 8 * writer.buf.length + (32 - writer.available) := by
  simp only [BitWriter.bits, List.length_append, length_wordBits sound.aligned,
    BitString.length_ofNat]

theorem BitWriter.length_finish {writer : BitWriter} (sound : writer.Sound) :
    writer.finish.length = 4 * ((writer.bits.length + 31) / 32) := by
  have aligned := sound.aligned
  have room := sound.room
  have roomLe := sound.roomLe
  rw [BitWriter.length_bits sound]
  unfold BitWriter.finish
  split
  · simp only [BitWriter.flushWord, List.length_append, Bytes.length_toLe]
    omega
  · omega

/-- A reader over a stream: `before` bits behind the start of the body, the bytes being
any header, what the writer finished, and any suffix. -/
def BitReader.inside (header : List UInt8) (writer : BitWriter) (suffix : List UInt8)
    (before : Nat) : BitReader :=
  { bytes := header ++ writer.finish ++ suffix, bodyStart := header.length, bitPos := before }

theorem BitReader.inside_shows {writer : BitWriter} (sound : writer.Sound)
    (header suffix : List UInt8) (before : Nat) :
    Shows (BitReader.inside header writer suffix before).bit 0 writer.bits := by
  have shown := @BitReader.shows_wordBits (.inside header writer suffix before)
    header writer.finish suffix 0 rfl rfl
  exact Shows.initial shown (BitWriter.bits_prefix_finish sound).2

theorem BitReader.inside_limit {writer : BitWriter} (sound : writer.Sound)
    (header suffix : List UInt8) (before : Nat) :
    writer.bits.length ≤ (BitReader.inside header writer suffix before).limit := by
  have length := BitWriter.length_finish sound
  simp only [BitReader.limit, BitReader.inside, List.length_append]
  omega

/-! ### Fields -/

/-- The next `m` bits are ones, in whatever pieces of up to 32 bits they are taken. -/
def BitReader.HasOnes (reader : BitReader) (m : Nat) : Prop :=
  ∀ offset count, count ≤ 32 → offset + count ≤ m →
    (reader.skip offset).peek32 >>> (32 - count) = 2 ^ count - 1 ∧
      (reader.skip offset).eat count = .ok (reader.skip (offset + count))

/-- The reader yields the fields in order: each value at the top of `peek32`, taken by `eat`. -/
def BitReader.Yields : BitReader → List Field → Prop
  | _, [] => True
  | reader, .value v n :: rest =>
      reader.peek32 >>> (32 - n) = v ∧ reader.eat n = .ok (reader.skip n) ∧
        (reader.skip n).Yields rest
  | reader, .ones m :: rest => reader.HasOnes m ∧ (reader.skip m).Yields rest

theorem BitReader.hasOnes_of_shows {reader : BitReader} {m : Nat}
    (shown : Shows reader.bit reader.bitPos (List.replicate m true))
    (room : reader.bitPos + m ≤ reader.limit) : reader.HasOnes m := by
  intro offset count short within
  have split : List.replicate m true =
      List.replicate offset true ++ (List.replicate count true ++
        List.replicate (m - offset - count) true) := by
    rw [← List.replicate_add, ← List.replicate_add]
    congr 1
    omega
  rw [split] at shown
  have piece := (BitString.shows_append.mp (BitString.shows_append.mp shown).2).1
  rw [List.length_replicate, ← BitString.ofNat_ones] at piece
  constructor
  · apply (reader.skip offset).peek32_window.field short _ piece
    exact Nat.sub_lt (Nat.two_pow_pos count) (Nat.succ_pos 0)
  · have roomHere : (reader.skip offset).bitPos + count ≤ (reader.skip offset).limit := by
      change reader.bitPos + offset + count ≤ reader.limit
      omega
    rw [BitReader.eat_ok roomHere]
    simp only [BitReader.skip, Nat.add_assoc]

theorem BitReader.yields_of_shows {reader : BitReader} {fields : List Field}
    (fits : ∀ field ∈ fields, field.Fits)
    (shown : Shows reader.bit reader.bitPos (fields.flatMap Field.bits))
    (room : reader.bitPos + totalBits fields ≤ reader.limit) : reader.Yields fields := by
  induction fields generalizing reader with
  | nil => trivial
  | cons field rest ih =>
      have total : totalBits (field :: rest) = field.len + totalBits rest := rfl
      rw [List.flatMap_cons] at shown
      obtain ⟨first, behind⟩ := BitString.shows_append.mp shown
      rw [Field.length_bits] at behind
      have later : (reader.skip field.len).Yields rest := by
        apply ih (fun other member => fits other (List.mem_cons_of_mem field member)) behind
        change reader.bitPos + field.len + totalBits rest ≤ reader.limit
        omega
      have fieldFits := fits field List.mem_cons_self
      cases field with
      | value v n =>
          obtain ⟨_some, short, small⟩ := fieldFits
          change totalBits (.value v n :: rest) = n + totalBits rest at total
          constructor
          · exact reader.peek32_window.field (Nat.le_of_lt short) small first
          · constructor
            · exact BitReader.eat_ok (by omega)
            · exact later
      | ones m =>
          change totalBits (.ones m :: rest) = m + totalBits rest at total
          constructor
          · exact BitReader.hasOnes_of_shows first (by omega)
          · exact later

/-- The reader yields back what any sequence of writer calls wrote, and the output is as
many words as the bits fill. -/
theorem BitReader.undoes_writer (fields : List Field) (fits : ∀ field ∈ fields, field.Fits)
    (header suffix : List UInt8) (placed : header.length = QUIC_HEADER_SIZE) :
    (BitWriter.new.puts fields).finish.length = 4 * ((totalBits fields + 31) / 32) ∧
      ∃ reader, BitReader.newAfterHeader
          (header ++ (BitWriter.new.puts fields).finish ++ suffix) = .ok reader ∧
        reader.Yields fields := by
  obtain ⟨sound, written⟩ := BitWriter.puts_bits BitWriter.new_sound fits
  have bits : (BitWriter.new.puts fields).bits = fields.flatMap Field.bits := written
  have total : (BitWriter.new.puts fields).bits.length = totalBits fields := by
    rw [bits, length_flatMap_bits]
  constructor
  · rw [BitWriter.length_finish sound, total]
  · have long : ¬(header ++ (BitWriter.new.puts fields).finish ++ suffix).length <
        QUIC_HEADER_SIZE := by
      simp only [List.length_append]
      omega
    refine ⟨.inside header (BitWriter.new.puts fields) suffix 0, ?_, ?_⟩
    · unfold BitReader.newAfterHeader BitReader.inside
      rw [if_neg long, placed]
    · have shown := BitReader.inside_shows sound header suffix 0
      have room := BitReader.inside_limit sound header suffix 0
      rw [bits] at shown
      rw [total] at room
      apply BitReader.yields_of_shows fits shown
      rw [← Nat.zero_add (totalBits fields)] at room
      exact room

/-- A field that straddles the first word, forty ones and a last bit. -/
theorem BitReader.undoes_writer_straddling :
    (BitWriter.new.puts [.value 5 17, .value 1 31, .ones 40, .value 0 1]).finish.length = 12 ∧
      ∃ reader, BitReader.newAfterHeader (List.replicate 20 0 ++
          (BitWriter.new.puts [.value 5 17, .value 1 31, .ones 40, .value 0 1]).finish ++
          [7]) = .ok reader ∧
        reader.Yields [.value 5 17, .value 1 31, .ones 40, .value 0 1] :=
  BitReader.undoes_writer [.value 5 17, .value 1 31, .ones 40, .value 0 1]
    (by simp [Field.Fits]) (List.replicate 20 0) [7] rfl

/-! ### Run codes -/

/-- Consecutive calls of `encode_state_run`, with the state left by each. -/
def encodeRuns (writer : BitWriter) (state : CommonState) :
    List Nat → Except QuicFault (BitWriter × List CommonState)
  | [] => .ok (writer, [])
  | runlen :: rest => do
      let written ← encodeStateRun writer state runlen
      let later ← encodeRuns written.1 written.2 rest
      pure (later.1, written.2 :: later.2)

def decodeRuns (reader : BitReader) (state : CommonState) :
    Nat → Except QuicFault (List Nat × BitReader × List CommonState)
  | 0 => .ok ([], reader, [])
  | count + 1 => do
      let taken ← decodeStateRun reader state
      let later ← decodeRuns taken.2.1 taken.2.2 count
      pure (taken.1 :: later.1, later.2.1, taken.2.2 :: later.2.2)

theorem BitReader.skip_skip (reader : BitReader) (first second : Nat) :
    (reader.skip first).skip second = reader.skip (first + second) := by
  simp only [BitReader.skip, Nat.add_assoc]

/-- The runs are written as one code, and any reader placed at the code reads them back. -/
theorem encodeRuns_eq {writer : BitWriter} (state : CommonState) {runs : List Nat}
    (sound : writer.Sound) (bounded : ∀ runlen ∈ runs, runlen < 2 ^ 32) :
    ∃ writer' states code,
      encodeRuns writer state runs = .ok (writer', states) ∧
      writer'.Sound ∧ writer'.bits = writer.bits ++ code ∧
      ∀ reader : BitReader, Shows reader.bit reader.bitPos code →
        reader.bitPos + code.length ≤ reader.limit →
        decodeRuns reader state runs.length = .ok (runs, reader.skip code.length, states) := by
  induction runs generalizing writer state with
  | nil =>
      refine ⟨writer, [], [], rfl, sound, (List.append_nil _).symm, ?_⟩
      intro reader _shown _room
      rfl
  | cons runlen rest ih =>
      obtain ⟨middle, ones, code, encoded, middleSound, middleBits, reads⟩ :=
        @encodeStateRun_eq writer state runlen sound
      obtain ⟨last, states, later, encodedLater, lastSound, lastBits, readsLater⟩ :=
        ih (state.risen ones).fall middleSound
          fun other member => bounded other (List.mem_cons_of_mem runlen member)
      refine ⟨last, (state.risen ones).fall :: states, code ++ later, ?_, lastSound, ?_, ?_⟩
      · unfold encodeRuns
        rw [Program.bind_ok encoded, Program.bind_ok encodedLater]
        rfl
      · rw [lastBits, middleBits, List.append_assoc]
      · intro reader shown room
        obtain ⟨first, behind⟩ := BitString.shows_append.mp shown
        rw [List.length_append] at room
        have takenFirst := reads reader (bounded runlen List.mem_cons_self) first (by omega)
        have roomLater : (reader.skip code.length).bitPos + later.length ≤
            (reader.skip code.length).limit := by
          change reader.bitPos + code.length + later.length ≤ reader.limit
          omega
        have takenLater := readsLater (reader.skip code.length) behind roomLater
        rw [List.length_cons, decodeRuns, Program.bind_ok takenFirst, Program.bind_ok takenLater,
          BitReader.skip_skip,
          List.length_append]
        rfl

/-- Runs written between any other fields read back in order, from the first bit of the
first to the last bit of the last, and each leaves both sides in the same state. -/
theorem runs_roundTrip (state : CommonState) (runs : List Nat)
    (bounded : ∀ runlen ∈ runs, runlen < 2 ^ 32) (front behind : List Field)
    (frontFits : ∀ field ∈ front, field.Fits) (behindFits : ∀ field ∈ behind, field.Fits)
    (header suffix : List UInt8) :
    ∃ writer states,
      encodeRuns (BitWriter.new.puts front) state runs = .ok (writer, states) ∧
      decodeRuns (.inside header (writer.puts behind) suffix (totalBits front)) state
          runs.length =
        .ok (runs, .inside header (writer.puts behind) suffix writer.bits.length, states) := by
  obtain ⟨frontSound, frontBits⟩ := BitWriter.puts_bits BitWriter.new_sound frontFits
  obtain ⟨writer, states, code, encoded, sound, bits, reads⟩ :=
    encodeRuns_eq state frontSound bounded
  obtain ⟨lastSound, lastBits⟩ := BitWriter.puts_bits sound behindFits
  have start : (BitWriter.new.puts front).bits.length = totalBits front := by
    rw [frontBits, List.length_append, length_flatMap_bits]
    exact Nat.zero_add _
  refine ⟨writer, states, encoded, ?_⟩
  have shown := BitReader.inside_shows lastSound header suffix (totalBits front)
  rw [lastBits, bits, List.append_assoc] at shown
  have code_shown := (BitString.shows_append.mp
    (BitString.shows_append.mp shown).2).1
  rw [Nat.zero_add, start] at code_shown
  have stop : writer.bits.length = totalBits front + code.length := by
    rw [bits, List.length_append, start]
  have room := BitReader.inside_limit lastSound header suffix (totalBits front)
  have inBits : writer.bits.length ≤ (writer.puts behind).bits.length := by
    rw [lastBits, List.length_append]
    exact Nat.le_add_right _ _
  have taken := reads _ code_shown (by
    change totalBits front + code.length ≤ _
    omega)
  rw [taken, stop]
  rfl

/-- Two runs of the first pass, behind three bits and before a last one. -/
theorem runs_roundTrip_between :
    ∃ writer states,
      encodeRuns (BitWriter.new.puts [.value 5 3]) .default [70, 2] = .ok (writer, states) ∧
      decodeRuns (.inside [] (writer.puts [.ones 1]) [9] (totalBits [.value 5 3])) .default 2 =
        .ok ([70, 2], .inside [] (writer.puts [.ones 1]) [9] writer.bits.length, states) :=
  runs_roundTrip .default [70, 2] (by simp) [.value 5 3] [.ones 1] (by simp [Field.Fits])
    (by simp [Field.Fits]) [] [9]

end Capsaicin.Quic
