/-
MELCODE run codes: a run of one-bits whose weights grow with the state, a zero
bit, and a field of `melclen` bits.
-/

import Capsaicin.Quic.BitIo
import Capsaicin.Quic.State

namespace Capsaicin.Quic

open BitString (Shows Window leadingZeros)

def CommonState.hits : Nat → Nat → CommonState → Nat × CommonState
  | 0, runlen, state => (runlen, state)
  | temp + 1, runlen, state => hits temp ((runlen + state.melcorder) % 2 ^ 32) state.rise

/-- The `loop` of `decode_state_run`, a byte of one-bits at a time. -/
def decodeOnes : Nat → BitReader → CommonState → Nat →
    Except QuicFault (Nat × BitReader × CommonState)
  | 0, _, _, _ => .error .fuel
  | fuel + 1, reader, state, runlen =>
      let temp := leadingZeros 8 (255 - reader.peek32 >>> 24)
      let counted := state.hits temp runlen
      if temp ≠ 8 then do
        let reader ← reader.eat (temp + 1)
        pure (counted.1, reader, counted.2)
      else do
        let reader ← reader.eat 8
        decodeOnes fuel reader counted.2 counted.1

def decodeStateRun (reader : BitReader) (state : CommonState) :
    Except QuicFault (Nat × BitReader × CommonState) := do
  let (runlen, reader, state) ← decodeOnes (reader.bytes.length + 1) reader state 0
  if state.melclen ≠ 0 then
    let field := reader.peek32 >>> (32 - state.melclen)
    let reader ← reader.eat state.melclen
    pure ((runlen + field) % 2 ^ 32, reader, state.fall)
  else pure (runlen, reader, state.fall)

/-- The `while` of `encode_state_run`: the number of one-bits and what is left. -/
def encodeHits : Nat → Nat → CommonState → Nat → Except QuicFault (Nat × Nat × CommonState)
  | 0, _, _, _ => .error .fuel
  | fuel + 1, runlen, state, hits =>
      if runlen ≥ state.melcorder then
        encodeHits fuel (runlen - state.melcorder) state.rise (hits + 1)
      else .ok (hits, runlen, state)

def encodeStateRun (writer : BitWriter) (state : CommonState) (runlen : Nat) :
    Except QuicFault (BitWriter × CommonState) := do
  let (hits, runlen, state) ← encodeHits (runlen + 1) runlen state 0
  let writer := writer.writeOnes hits
  pure (writer.write runlen (state.melclen + 1), state.fall)

/-! ### The number a run code stands for -/

def CommonState.risen : Nat → CommonState → CommonState
  | 0, state => state
  | ones + 1, state => state.rise.risen ones

def CommonState.weight : Nat → CommonState → Nat
  | 0, _ => 0
  | ones + 1, state => state.melcorder + state.rise.weight ones

/-- The bit position up to which `eat` succeeds. -/
def BitReader.limit (reader : BitReader) : Nat := (reader.bytes.length - reader.bodyStart) * 8 + 32

/-- The reader `len` bits on. -/
def BitReader.skip (reader : BitReader) (len : Nat) : BitReader :=
  { reader with bitPos := reader.bitPos + len }

/-- The stream has `ones` one-bits and then a zero at the reader. -/
def BitReader.ShowsOnes (reader : BitReader) (ones : Nat) : Prop :=
  Shows reader.bit reader.bitPos (List.replicate ones true ++ [false])

/-- The exact integer coded at a reader that shows `ones` one-bits. -/
def runValue (reader : BitReader) (state : CommonState) (ones : Nat) : Nat :=
  state.weight ones +
    (reader.skip (ones + 1)).peek32 >>> (32 - (state.risen ones).melclen)

def runBits (state : CommonState) (ones : Nat) : Nat := ones + 1 + (state.risen ones).melclen

theorem CommonState.risen_fall_clock (state : CommonState) (ones : Nat) :
    (state.risen ones).fall.clock = state.clock := by
  rw [fall_clock]
  induction ones generalizing state with
  | zero => rfl
  | succ ones ih => exact (ih state.rise).trans state.rise_clock

theorem CommonState.risen_add (state : CommonState) (first second : Nat) :
    state.risen (first + second) = (state.risen first).risen second := by
  induction first generalizing state with
  | zero => rw [Nat.zero_add]; rfl
  | succ first ih =>
      rw [Nat.succ_add]
      exact ih state.rise

theorem CommonState.weight_add (state : CommonState) (first second : Nat) :
    state.weight (first + second) = state.weight first + (state.risen first).weight second := by
  induction first generalizing state with
  | zero =>
      rw [Nat.zero_add]
      exact (Nat.zero_add _).symm
  | succ first ih =>
      rw [Nat.succ_add]
      change state.melcorder + state.rise.weight (first + second) =
        state.melcorder + state.rise.weight first + (state.rise.risen first).weight second
      rw [ih state.rise, Nat.add_assoc]

/-- The counting loop keeps the exact weight modulo `2 ^ 32`. -/
theorem CommonState.hits_eq (state : CommonState) (temp runlen : Nat) (bounded : runlen < 2 ^ 32) :
    state.hits temp runlen = ((runlen + state.weight temp) % 2 ^ 32, state.risen temp) := by
  induction temp generalizing state runlen with
  | zero =>
      change (runlen, state) = ((runlen + 0) % 2 ^ 32, state)
      rw [Nat.add_zero, Nat.mod_eq_of_lt bounded]
  | succ temp ih =>
      change state.rise.hits temp ((runlen + state.melcorder) % 2 ^ 32) = _
      rw [ih state.rise _ (Nat.mod_lt _ (by decide)), Nat.mod_add_mod, Nat.add_assoc]
      rfl

theorem BitReader.eat_ok {reader : BitReader} {len : Nat} (room : reader.bitPos + len ≤ reader.limit) :
    reader.eat len = .ok (reader.skip len) := by
  unfold eat
  exact if_neg (Nat.not_lt.mpr room)

theorem BitReader.eat_eq_ok {reader reader' : BitReader} {len : Nat}
    (eaten : reader.eat len = .ok reader') : reader' = reader.skip len := by
  by_cases room : reader.bitPos + len ≤ reader.limit
  · rw [eat_ok room] at eaten
    cases eaten
    rfl
  · have stopped : reader.eat len = _ := if_pos (Nat.not_le.mp room)
    rw [stopped] at eaten
    cases eaten

theorem BitReader.eat_short {reader : BitReader} {len : Nat}
    (past : reader.limit < reader.bitPos + len) :
    ∃ reason, reader.eat len = .error (.error reason) := by
  unfold eat
  exact ⟨_, if_pos past⟩

/-! ### Reading a run code -/

private theorem byte_leadingOnes (byte : Fin 256) :
    (∀ offset : Fin 8, offset.val < leadingZeros 8 (255 - byte.val) →
        byte.val.testBit (7 - offset.val) = true) ∧
      (∀ offset : Fin 8, offset.val = leadingZeros 8 (255 - byte.val) →
        byte.val.testBit (7 - offset.val) = false) := by
  revert byte
  decide +kernel

private theorem BitReader.top_byte {reader : BitReader} {offset : Nat} (inByte : offset < 8) :
    (reader.peek32 >>> 24).testBit (7 - offset) = reader.bit (reader.bitPos + offset) := by
  rw [Nat.testBit_shiftRight, ← reader.peek32_window.bit offset (by omega)]
  congr 1
  omega

theorem BitReader.top_byte_lt (reader : BitReader) : reader.peek32 >>> 24 < 256 := by
  have bounded := reader.peek32_window.bounded
  rw [Nat.shiftRight_eq_div_pow]
  omega

private theorem BitReader.ShowsOnes.one {reader : BitReader} {ones offset : Nat}
    (shown : reader.ShowsOnes ones) (early : offset < ones) :
    reader.bit (reader.bitPos + offset) = true := by
  have bit := shown offset (by simp only [List.length_append, List.length_replicate]; omega)
  rw [List.getElem_append_left (by rw [List.length_replicate]; exact early),
    List.getElem_replicate] at bit
  exact bit

private theorem BitReader.ShowsOnes.stop {reader : BitReader} {ones : Nat} (shown : reader.ShowsOnes ones) :
    reader.bit (reader.bitPos + ones) = false := by
  have bit := shown ones (by
    simp only [List.length_append, List.length_replicate, List.length_singleton]
    omega)
  rw [List.getElem_append_right (by rw [List.length_replicate])] at bit
  simp only [List.length_replicate, Nat.sub_self, List.getElem_cons_zero] at bit
  exact bit

theorem BitReader.leadingOnes {reader : BitReader} {ones : Nat} (shown : reader.ShowsOnes ones) :
    leadingZeros 8 (255 - reader.peek32 >>> 24) = min ones 8 := by
  have counted := byte_leadingOnes ⟨reader.peek32 >>> 24, reader.top_byte_lt⟩
  have most := BitString.leadingZeros_le 8 (255 - reader.peek32 >>> 24)
  simp only at counted
  generalize leadingZeros 8 (255 - reader.peek32 >>> 24) = found at counted most ⊢
  rcases Nat.lt_trichotomy found (min ones 8) with fewer | same | more
  · have zero : (reader.peek32 >>> 24).testBit (7 - found) = false :=
      counted.2 ⟨found, by omega⟩ rfl
    rw [BitReader.top_byte (by omega), shown.one (by omega)] at zero
    cases zero
  · exact same
  · have one : (reader.peek32 >>> 24).testBit (7 - ones) = true :=
      counted.1 ⟨ones, by omega⟩ (show ones < found by omega)
    rw [BitReader.top_byte (by omega), shown.stop] at one
    cases one

theorem BitReader.ShowsOnes.unique {reader : BitReader} {ones ones' : Nat}
    (shown : reader.ShowsOnes ones) (shown' : reader.ShowsOnes ones') : ones = ones' := by
  rcases Nat.lt_trichotomy ones ones' with fewer | same | more
  · have one := shown'.one fewer
    rw [shown.stop] at one
    cases one
  · exact same
  · have one := shown.one more
    rw [shown'.stop] at one
    cases one

/-- Every reader shows a run code: past its words the stream is zero. -/
theorem BitReader.exists_showsOnes (reader : BitReader) :
    ∃ ones, reader.ShowsOnes ones ∧ ones ≤ 8 * reader.bytes.length := by
  have beyond : reader.bit (reader.bitPos + 8 * reader.bytes.length) = false := by
    unfold bit readWordAt
    rw [if_neg (by omega)]
    exact Nat.zero_testBit _
  have stops : ∃ count, reader.bit (reader.bitPos + count) = false := ⟨_, beyond⟩
  refine ⟨Nat.find stops, ?_, Nat.find_min' stops beyond⟩
  apply BitString.shows_append.mpr
  constructor
  · intro offset inRange
    rw [List.length_replicate] at inRange
    rw [List.getElem_replicate]
    exact Bool.eq_true_of_not_eq_false (Nat.find_min stops inRange)
  · intro offset inRange
    have first : offset = 0 := by
      rw [List.length_singleton] at inRange
      omega
    subst first
    rw [List.length_replicate]
    exact Nat.find_spec stops

theorem BitReader.ShowsOnes.skip {reader : BitReader} {ones : Nat}
    (shown : reader.ShowsOnes (8 + ones)) : (reader.skip 8).ShowsOnes ones := by
  unfold ShowsOnes at shown ⊢
  rw [List.replicate_add, List.append_assoc] at shown
  have rest := (BitString.shows_append.mp shown).2
  rw [List.length_replicate] at rest
  exact rest

theorem decodeOnes_eq {reader : BitReader} (state : CommonState) {fuel ones runlen : Nat}
    (shown : reader.ShowsOnes ones) (enough : ones < 8 * fuel) (bounded : runlen < 2 ^ 32) :
    (reader.bitPos + ones + 1 ≤ reader.limit ∧ decodeOnes fuel reader state runlen =
        .ok ((runlen + state.weight ones) % 2 ^ 32, reader.skip (ones + 1), state.risen ones)) ∨
      (reader.limit < reader.bitPos + ones + 1 ∧
        ∃ reason, decodeOnes fuel reader state runlen = .error (.error reason)) := by
  induction fuel generalizing reader state ones runlen with
  | zero => exact absurd enough (Nat.not_lt_zero ones)
  | succ fuel ih =>
      have counted := BitReader.leadingOnes shown
      unfold decodeOnes
      simp only [counted, CommonState.hits_eq state _ _ bounded]
      by_cases last : ones < 8
      · rw [Nat.min_eq_left (Nat.le_of_lt last), if_pos (Nat.ne_of_lt last)]
        by_cases room : reader.bitPos + (ones + 1) ≤ reader.limit
        · left
          refine ⟨room, ?_⟩
          rw [BitReader.eat_ok room]
          rfl
        · right
          obtain ⟨reason, stopped⟩ := BitReader.eat_short (Nat.not_le.mp room)
          refine ⟨Nat.not_le.mp room, reason, ?_⟩
          rw [stopped]
          rfl
      · obtain ⟨rest, total⟩ : ∃ rest, ones = 8 + rest := ⟨ones - 8, by omega⟩
        subst total
        rw [Nat.min_eq_right (by omega), if_neg (fun differs => differs rfl)]
        by_cases room : reader.bitPos + 8 ≤ reader.limit
        · have next := ih (state.risen 8) shown.skip (by omega)
            (Nat.mod_lt (runlen + state.weight 8) (by decide))
          have position : (reader.skip 8).bitPos + rest + 1 = reader.bitPos + (8 + rest) + 1 := by
            change reader.bitPos + 8 + rest + 1 = _
            omega
          have target : (reader.skip 8).skip (rest + 1) = reader.skip (8 + rest + 1) := by
            unfold BitReader.skip
            simp only [BitReader.mk.injEq, true_and]
            omega
          have sum : ((runlen + state.weight 8) % 2 ^ 32 + (state.risen 8).weight rest) % 2 ^ 32 =
              (runlen + state.weight (8 + rest)) % 2 ^ 32 := by
            rw [Nat.mod_add_mod, Nat.add_assoc, ← CommonState.weight_add]
          rw [position, target, sum, ← CommonState.risen_add] at next
          rw [BitReader.eat_ok room]
          exact next
        · right
          obtain ⟨reason, stopped⟩ := BitReader.eat_short (Nat.not_le.mp room)
          refine ⟨by omega, reason, ?_⟩
          rw [stopped]
          rfl

/-- One run code is read exactly, up to the width of the sum. -/
theorem decodeStateRun_eq {reader : BitReader} {ones : Nat} (state : CommonState)
    (shown : reader.ShowsOnes ones) (within : ones ≤ 8 * reader.bytes.length) :
    (reader.bitPos + runBits state ones ≤ reader.limit ∧ decodeStateRun reader state =
        .ok (runValue reader state ones % 2 ^ 32, reader.skip (runBits state ones),
          (state.risen ones).fall)) ∨
      (reader.limit < reader.bitPos + runBits state ones ∧
        ∃ reason, decodeStateRun reader state = .error (.error reason)) := by
  unfold decodeStateRun runBits runValue
  rcases decodeOnes_eq state shown
      (show ones < 8 * (reader.bytes.length + 1) by omega) (show 0 < 2 ^ 32 by decide)
    with ⟨room, counted⟩ | ⟨past, reason, stopped⟩
  · rw [Program.bind_ok counted, Nat.zero_add]
    dsimp only
    by_cases plain : (state.risen ones).melclen = 0
    · have noField : (reader.skip (ones + 1)).peek32 >>> 32 = 0 := by
        have bounded := (reader.skip (ones + 1)).peek32_window.bounded
        rw [Nat.shiftRight_eq_div_pow]
        exact Nat.div_eq_of_lt bounded
      left
      rw [plain, if_neg (fun differs => differs rfl), Nat.sub_zero, noField]
      exact ⟨room, rfl⟩
    · rw [if_pos plain]
      have position : (reader.skip (ones + 1)).bitPos + (state.risen ones).melclen =
          reader.bitPos + (ones + 1 + (state.risen ones).melclen) := Nat.add_assoc _ _ _
      have target : (reader.skip (ones + 1)).skip (state.risen ones).melclen =
          reader.skip (ones + 1 + (state.risen ones).melclen) := by
        unfold BitReader.skip
        simp only [BitReader.mk.injEq, true_and]
        omega
      by_cases roomField : reader.bitPos + (ones + 1 + (state.risen ones).melclen) ≤ reader.limit
      · left
        refine ⟨roomField, ?_⟩
        rw [Program.bind_ok (BitReader.eat_ok (position ▸ roomField)), target, Nat.mod_add_mod]
        rfl
      · right
        have past : (reader.skip (ones + 1)).limit <
            (reader.skip (ones + 1)).bitPos + (state.risen ones).melclen :=
          position ▸ Nat.not_le.mp roomField
        obtain ⟨reason, stopped⟩ := BitReader.eat_short past
        refine ⟨Nat.not_le.mp roomField, reason, ?_⟩
        rw [stopped]
        rfl
  · right
    refine ⟨by omega, reason, ?_⟩
    rw [stopped]
    rfl

/-! ### Writing a run code -/

theorem encodeHits_eq (state : CommonState) {fuel runlen : Nat} (hits : Nat)
    (enough : runlen < fuel) :
    ∃ ones rest, encodeHits fuel runlen state hits = .ok (hits + ones, rest, state.risen ones) ∧
      runlen = state.weight ones + rest ∧ rest < 2 ^ (state.risen ones).melclen := by
  induction fuel generalizing state runlen hits with
  | zero => exact absurd enough (Nat.not_lt_zero runlen)
  | succ fuel ih =>
      have positive := Nat.two_pow_pos state.melclen
      have order := state.melcorder_eq
      unfold encodeHits
      by_cases more : runlen ≥ state.melcorder
      · obtain ⟨ones, rest, counted, total, small⟩ := ih state.rise (hits + 1)
          (show runlen - state.melcorder < fuel by omega)
        refine ⟨ones + 1, rest, ?_, ?_, small⟩
        · rw [if_pos more, counted, Nat.add_assoc, Nat.add_comm 1 ones]
          rfl
        · change runlen = state.melcorder + state.rise.weight ones + rest
          omega
      · refine ⟨0, runlen, if_neg more, (Nat.zero_add _).symm, ?_⟩
        change runlen < 2 ^ state.melclen
        omega

private theorem field_bits {melclen rest : Nat} (small : rest < 2 ^ melclen) :
    BitString.ofNat (melclen + 1) rest = [false] ++ BitString.ofNat melclen rest := by
  have top : rest >>> melclen = 0 := by
    rw [Nat.shiftRight_eq_div_pow]
    exact Nat.div_eq_of_lt small
  rw [Nat.add_comm, BitString.ofNat_add, top]
  rfl

/-- A run is written as a code that reads back as the run, from any reader placed
at it, and both sides end in the same state. -/
theorem encodeStateRun_eq {writer : BitWriter} (state : CommonState) {runlen : Nat}
    (sound : writer.Sound) :
    ∃ writer' ones code,
      encodeStateRun writer state runlen = .ok (writer', (state.risen ones).fall) ∧
      writer'.Sound ∧ writer'.bits = writer.bits ++ code ∧
      ∀ reader : BitReader, runlen < 2 ^ 32 → Shows reader.bit reader.bitPos code →
        reader.bitPos + code.length ≤ reader.limit →
        decodeStateRun reader state =
          .ok (runlen, reader.skip code.length, (state.risen ones).fall) := by
  obtain ⟨ones, rest, counted, total, small⟩ := encodeHits_eq state 0 (Nat.lt_succ_self runlen)
  have short := (state.risen ones).melclen_le
  have onesWritten := BitWriter.writeOnes_bits ones sound
  have fits : rest < 2 ^ ((state.risen ones).melclen + 1) :=
    Nat.lt_of_lt_of_le small (Nat.pow_le_pow_right (by decide) (Nat.le_succ _))
  have fieldWritten := BitWriter.write_bits onesWritten.1
    (show (state.risen ones).melclen + 1 < 32 by omega) fits
  refine ⟨_, ones, List.replicate ones true ++ [false] ++
    BitString.ofNat (state.risen ones).melclen rest, ?_, fieldWritten.1, ?_, ?_⟩
  · unfold encodeStateRun
    rw [counted, Nat.zero_add]
    rfl
  · rw [fieldWritten.2, onesWritten.2, field_bits small]
    simp only [List.append_assoc]
  · intro reader bounded shown room
    have parts := BitString.shows_append.mp shown
    have length : (List.replicate ones true ++ [false] ++
        BitString.ofNat (state.risen ones).melclen rest).length = runBits state ones := by
      simp only [List.length_append, List.length_replicate, List.length_singleton,
        BitString.length_ofNat, runBits]
    have onesLength : (List.replicate ones true ++ [false]).length = ones + 1 := by
      simp only [List.length_append, List.length_replicate, List.length_singleton]
    rw [length] at room ⊢
    have fieldRead : (reader.skip (ones + 1)).peek32 >>> (32 - (state.risen ones).melclen) = rest := by
      apply (reader.skip (ones + 1)).peek32_window.field (by omega) small
      have field := parts.2
      rw [onesLength] at field
      exact field
    have value : runValue reader state ones % 2 ^ 32 = runlen := by
      unfold runValue
      rw [fieldRead, ← total, Nat.mod_eq_of_lt bounded]
    obtain ⟨count, shownCount, within⟩ := reader.exists_showsOnes
    have same : count = ones := BitReader.ShowsOnes.unique shownCount parts.1
    subst same
    rcases decodeStateRun_eq state parts.1 within with ⟨_room, read⟩ | ⟨past, _reason, _stopped⟩
    · rw [read, value]
    · exact absurd past (Nat.not_lt.mpr room)

end Capsaicin.Quic
