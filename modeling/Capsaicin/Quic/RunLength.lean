/-
Runs on hostile input. The RGB32 decoder adds up a run length modulo `2 ^ 32` and
checks the end of the run after the addition; both are exact as long as the run
that the stream codes ends below `2 ^ 32`.
-/

import Capsaicin.Quic.Causality

namespace Capsaicin.Quic

open Program (Keeps Triple step view)

/-- The run that the stream codes, if all its bits are there, ends below `2 ^ 32`. -/
def Event.RunFits (stream : List UInt8) : Event → Prop
  | .run _row start _stop bitPos state =>
      ∀ ones, (readerAt stream bitPos).ShowsOnes ones →
        bitPos + runBits state ones ≤ (readerAt stream bitPos).limit →
        start + runValue (readerAt stream bitPos) state ones < 2 ^ 32
  | .symbol _ _ _ => True
  | .pixel _ _ => True

/-- The sum that `runLen` was added up to is exact, and the end of the run is formed
without overflow and inside the segment, or refused. -/
structure ExactRun (reader : BitReader) (state : CommonState) (start stop runLen : Nat) : Prop where
  exact : ∃ ones, reader.ShowsOnes ones ∧ runLen = runValue reader state ones
  small : start + runLen < 2 ^ 32
  ends : (∃ reached, runEnd start runLen stop = .ok reached ∧ start ≤ reached ∧ reached ≤ stop) ∨
    ∃ reason, runEnd start runLen stop = .error (.error reason)

/-- `decode_state_run` fails or returns an exact run; `decode_one_pixel` is not
entered at 0. -/
def Event.RunSound (stream : List UInt8) : Event → Prop
  | .run _row start stop bitPos state =>
      (∃ reason, decodeStateRun (readerAt stream bitPos) state = .error (.error reason)) ∨
        ∃ decoded, decodeStateRun (readerAt stream bitPos) state = .ok decoded ∧
          ExactRun (readerAt stream bitPos) state start stop decoded.1
  | .pixel _row i => i ≠ 0
  | .symbol _ _ _ => True

def Event.place : Event → Option (Nat × Nat)
  | .run row start _ _ _ => some (row, start)
  | .pixel row i => some (row, i)
  | .symbol _ _ _ => none

/-- The cursor never moves backwards within a row. The log has its newest event first. -/
def Forward (log : List Event) : Prop :=
  log.Pairwise fun later earlier => ∀ row i j, later.place = some (row, i) →
    earlier.place = some (row, j) → j ≤ i

theorem runEnd_total {start runLen stop : Nat} (small : start + runLen < 2 ^ 32) :
    (∃ reached, runEnd start runLen stop = .ok reached ∧ start ≤ reached ∧ reached ≤ stop) ∨
      ∃ reason, runEnd start runLen stop = .error (.error reason) := by
  unfold runEnd
  rw [if_neg (Nat.not_le.mpr small)]
  by_cases past : start + runLen > stop
  · rw [if_pos past]
    exact Or.inr ⟨_, rfl⟩
  · rw [if_neg past]
    exact Or.inl ⟨_, rfl, Nat.le_add_right start runLen, Nat.not_lt.mp past⟩

/-- A run is exact if and only if it fits. -/
theorem runSound_iff (stream : List UInt8) (row start stop bitPos : Nat) (state : CommonState) :
    (Event.run row start stop bitPos state).RunSound stream ↔
      (Event.run row start stop bitPos state).RunFits stream := by
  obtain ⟨ones, shown, within⟩ := (readerAt stream bitPos).exists_showsOnes
  have total := decodeStateRun_eq state shown within
  constructor
  · intro sound other shownOther room
    have same : other = ones := shownOther.unique shown
    subst same
    rcases total with ⟨_room, read⟩ | ⟨past, _reason, _stopped⟩
    · rcases sound with ⟨reason, stopped⟩ | ⟨decoded, returned, exactRun⟩
      · rw [read] at stopped
        cases stopped
      · rw [read] at returned
        cases returned
        obtain ⟨other', shown', value⟩ := exactRun.exact
        have same' : other' = other := shown'.unique shown
        subst same'
        rw [← value]
        exact exactRun.small
    · exact absurd past (Nat.not_lt.mpr room)
  · intro fits
    rcases total with ⟨room, read⟩ | ⟨_past, reason, stopped⟩
    · have small := fits ones shown room
      have bounded : runValue (readerAt stream bitPos) state ones < 2 ^ 32 := by omega
      refine Or.inr ⟨_, read, ?_⟩
      dsimp only
      rw [Nat.mod_eq_of_lt bounded]
      exact { exact := ⟨ones, shown, rfl⟩, small := small, ends := runEnd_total small }
    · exact Or.inl ⟨reason, stopped⟩

/-! ### The cursor -/

structure Paced (log : List Event) : Prop where
  forward : Forward log
  entered : ∀ row i, Event.pixel row i ∈ log → i ≠ 0

theorem Paced.symbol {log : List Event} (paced : Paced log) (bpc l window : Nat) :
    Paced (.symbol bpc l window :: log) where
  forward := List.Pairwise.cons (fun _earlier _member _row _i _j later => by cases later)
    paced.forward
  entered := by
    intro row i member
    rcases List.mem_cons.mp member with new | old
    · cases new
    · exact paced.entered row i old

/-- Every event so far is above the current row, or in it and not past `k`. -/
def Behind (rows k : Nat) (log : List Event) : Prop :=
  ∀ event ∈ log, ∀ row i, event.place = some (row, i) → row < rows ∨ (row = rows ∧ i ≤ k)

theorem Behind.symbol {rows k : Nat} {log : List Event} (behind : Behind rows k log)
    (bpc l window : Nat) : Behind rows k (.symbol bpc l window :: log) := by
  intro event member row i place
  rcases List.mem_cons.mp member with new | old
  · rw [new] at place
    cases place
  · exact behind event old row i place

theorem Behind.mono {rows k k' : Nat} {log : List Event} (behind : Behind rows k log)
    (further : k ≤ k') : Behind rows k' log := by
  intro event member row i place
  rcases behind event member row i place with above | ⟨here, before⟩
  · exact Or.inl above
  · exact Or.inr ⟨here, Nat.le_trans before further⟩

theorem Behind.visit {rows k : Nat} {log : List Event} (behind : Behind rows k log)
    (forward : Forward log) {event : Event} (placed : event.place = some (rows, k)) :
    Forward (event :: log) ∧ Behind rows k (event :: log) := by
  constructor
  · apply List.Pairwise.cons _ forward
    intro earlier member row i j later place
    rw [placed] at later
    cases later
    rcases behind earlier member rows j place with above | ⟨_here, before⟩
    · exact absurd above (Nat.lt_irrefl rows)
    · exact before
  · intro other member row i place
    rcases List.mem_cons.mp member with new | old
    · rw [new, placed] at place
      cases place
      exact Or.inr ⟨rfl, Nat.le_refl k⟩
    · exact behind other old row i place

structure CursorIdle (stream : List UInt8) (width : Nat) (clock : Clock)
    (pass : Pass Tracer (List UInt8)) : Prop where
  clock : pass.state.clock = clock
  reader : pass.coder.reader = readerAt stream pass.coder.reader.bitPos
  above : ∀ row ∈ pass.above, FullRow width row
  paced : Paced pass.coder.log
  past : ∀ event ∈ pass.coder.log, ∀ row i, event.place = some (row, i) → row < pass.above.length

structure Cursor (stream : List UInt8) (width : Nat) (clock : Clock) (k : Nat)
    (pass : Pass Tracer (List UInt8)) : Prop where
  clock : pass.state.clock = clock
  reader : pass.coder.reader = readerAt stream pass.coder.reader.bitPos
  above : ∀ row ∈ pass.above, FullRow width row
  cur : FullRow width pass.cur
  paced : Paced pass.coder.log
  behind : Behind pass.above.length k pass.coder.log

section Cursor

variable {stream : List UInt8} {width : Nat} {clock : Clock} {k : Nat}
  {pass : Pass Tracer (List UInt8)}

theorem Cursor.mono {k' : Nat} (cursor : Cursor stream width clock k pass) (further : k ≤ k') :
    Cursor stream width clock k' pass :=
  { cursor with behind := cursor.behind.mono further }

theorem Cursor.framed : Framed bgra (Cursor stream width clock k) where
  noted := fun bpc l window cursor =>
    { clock := cursor.clock, reader := cursor.reader, above := cursor.above, cur := cursor.cur
      paced := cursor.paced.symbol bpc l window, behind := cursor.behind.symbol bpc l window }
  moved := by
    intro pass len chans cursor
    have reader : pass.coder.reader.skip len = readerAt stream (pass.coder.reader.bitPos + len) := by
      rw [cursor.reader]
      rfl
    exact { clock := cursor.clock, reader := reader, above := cursor.above, cur := cursor.cur
            paced := cursor.paced, behind := cursor.behind }
  written := fun cursor written =>
    { clock := cursor.clock, reader := cursor.reader, above := cursor.above
      cur := (setByte_length written).trans cursor.cur, paced := cursor.paced
      behind := cursor.behind }
  cleared := fun cursor cleared =>
    { clock := cursor.clock, reader := cursor.reader, above := cursor.above
      cur := (setByte_length cleared).trans cursor.cur, paced := cursor.paced
      behind := cursor.behind }

private theorem cursor_step {program : Decoding (List UInt8) Unit} {k' : Nat} (further : k ≤ k')
    (keeps : Keeps (Cursor stream width clock k) program) :
    Triple (Cursor stream width clock k) program (fun _ => Cursor stream width clock k')
      fun _fault pass => Paced pass.coder.log :=
  (keeps.conseq (fun _pass cursor => cursor) fun _value _pass cursor => cursor.mono further).relax
    fun _fault _pass cursor => cursor.paced

theorem decodeOnePixel_paced {j : Nat} (positive : 0 < j) :
    Triple (Cursor stream width clock j) (decodeOnePixel j)
      (fun _ => Cursor stream width clock (j + 1)) fun _fault pass => Paced pass.coder.log := by
  have noted : Keeps (Cursor stream width clock j) (note fun pass => .pixel pass.above.length j) := by
    apply Keeps.step
    intro pass value last cursor ran
    cases ran
    have placed : (Event.pixel pass.above.length j).place = some (pass.above.length, j) := rfl
    obtain ⟨forward, behind⟩ := cursor.behind.visit cursor.paced.forward placed
    have entered : ∀ row i, Event.pixel row i ∈ .pixel pass.above.length j :: pass.coder.log →
        i ≠ 0 := by
      intro row i member
      rcases List.mem_cons.mp member with new | old
      · cases new
        exact Nat.pos_iff_ne_zero.mp positive
      · exact cursor.paced.entered row i old
    exact { clock := cursor.clock, reader := cursor.reader, above := cursor.above, cur := cursor.cur
            paced := { forward := forward, entered := entered }, behind := behind }
  apply cursor_step (Nat.le_succ j)
  apply Keeps.bind noted
  intro _
  rw [if_neg (Nat.pos_iff_ne_zero.mp positive)]
  exact Cursor.framed.decodePixel _ _ _

theorem decodeRun_paced {j stop : Nat} (positive : 0 < j) (fits : stop ≤ width) :
    Triple (Cursor stream width clock j) (decodeRun j stop)
      (fun reached pass => (j ≤ reached ∧ reached ≤ stop) ∧ Cursor stream width clock reached pass)
      fun _fault pass => Paced pass.coder.log := by
  intro pass cursor
  have placed : (runEvent pass j stop).place = some (pass.above.length, j) := rfl
  obtain ⟨forward, behind⟩ := cursor.behind.visit cursor.paced.forward placed
  have paced : Paced (runEvent pass j stop :: pass.coder.log) := by
    refine { forward := forward, entered := ?_ }
    intro row i member
    rcases List.mem_cons.mp member with new | old
    · cases new
    · exact cursor.paced.entered row i old
  have turn := decodeRun_turn cursor.reader cursor.cur positive fits
  generalize decodeRun j stop pass = result at turn ⊢
  cases turn with
  | copied _addressable further inside sameClock sameLength =>
      exact ⟨⟨further, inside⟩,
        { clock := sameClock.trans cursor.clock, reader := rfl, above := cursor.above
          cur := sameLength.trans cursor.cur, paced := paced, behind := behind.mono further }⟩
  | refused _addressable => exact paced
  | overflowed _tooFar => exact paced

theorem rgb32Decoder_paced (width : Nat) :
    Guarded rgb32Decoder width (fun _fault tracer => Paced tracer.log) (Cursor stream width)
      (CursorIdle stream width) (FullRow width) where
  clock := fun cursor => cursor.clock
  retime := fun state cursor _melc =>
    { clock := rfl, reader := cursor.reader, above := cursor.above, cur := cursor.cur
      paced := cursor.paced, behind := cursor.behind }
  escapes := by
    intro clock j pass runIndex positive inside cursor
    have prev : ∀ row ∈ pass.prev, FullRow width row := fun row first =>
      cursor.above row (List.mem_of_mem_head? first)
    obtain ⟨answer, answered, met⟩ := rleMatch_ok cursor.cur prev inside runIndex
    refine ⟨answer, answered, fun yes => ?_⟩
    obtain ⟨_above, _first, _late, fresh, _rest⟩ := met.mp yes
    exact fresh
  first := fun _clock _some => cursor_step (Nat.zero_le 1) (Cursor.framed.decodePixel _ _ _)
  pixel := fun _clock _j positive _inside => decodeOnePixel_paced positive
  run := fun _clock _j _stop positive _inside fits => decodeRun_paced positive fits
  models := by
    intro clock idx _inside
    apply cursor_step (Nat.le_refl (idx + 1))
    apply Keeps.step
    intro pass value last cursor ran
    obtain ⟨chans, _updated, ran⟩ := Program.bind_eq_ok.mp ran
    cases ran
    exact { clock := cursor.clock, reader := cursor.reader, above := cursor.above, cur := cursor.cur
            paced := cursor.paced, behind := cursor.behind }
  opened := fun idle full =>
    { clock := idle.clock, reader := idle.reader, above := idle.above, cur := full
      paced := idle.paced, behind := fun event member row i place =>
        Or.inl (idle.past event member row i place) }
  closed := by
    intro clock
    apply Triple.step
    · intro pass value last cursor ran
      obtain ⟨chans, _latched, ran⟩ := Program.bind_eq_ok.mp ran
      cases ran
      have above : ∀ row ∈ pass.cur :: pass.above, FullRow width row := by
        intro row member
        rcases List.mem_cons.mp member with first | later
        · exact first ▸ cursor.cur
        · exact cursor.above row later
      have past : ∀ event ∈ pass.coder.log, ∀ row i, event.place = some (row, i) →
          row < (pass.cur :: pass.above).length := by
        intro event member row i place
        rw [List.length_cons]
        rcases cursor.behind event member row i place with higher | ⟨here, _before⟩
        · exact Nat.lt_succ_of_lt higher
        · exact here ▸ Nat.lt_succ_self _
      exact { clock := cursor.clock, reader := cursor.reader, above := above, paced := cursor.paced
              past := past }
    · exact fun _pass _fault cursor _stopped => cursor.paced

end Cursor

theorem startPass_cursor (stream : List UInt8) (width : Nat) :
    CursorIdle stream width CommonState.default.clock
      (startPass UInt8 (readerAt stream 0) 8 3 width) where
  clock := rfl
  reader := rfl
  above := fun _row member => absurd member List.not_mem_nil
  paced :=
    { forward := List.Pairwise.nil
      entered := fun _row _i member => absurd member List.not_mem_nil }
  past := fun _event member => absurd member List.not_mem_nil

theorem rgbPhase_paced (stream : List UInt8) (width height : Nat) :
    Triple (CursorIdle stream width CommonState.default.clock)
      (decompressRgbPhase width (blankRows 0 (4 * width) height))
      (fun _ pass => Paced pass.coder.log) fun _fault pass => Paced pass.coder.log :=
  ((rgb32Decoder_paced width).phase (blankRows_bgra width height) CommonState.default.clock).conseq
    (fun _pass idle => idle) fun _value _pass ⟨_clock, idle⟩ => idle.paced

theorem alphaDecoder_paced : alphaDecoder.Steady fun pass => Paced pass.coder.log := by
  have framed : Framed alphaPlane fun pass => Paced pass.coder.log :=
    { noted := fun bpc l window paced => paced.symbol bpc l window
      moved := fun _len _chans paced => paced
      written := fun paced _written => paced
      cleared := fun paced _cleared => paced }
  exact
    { retime := fun _state paced => paced
      remodel := fun _chans paced => paced
      first := framed.decodePixel _ _ _
      pixel := fun _j => framed.decodePixel _ _ _
      run := fun j _stop => Keeps.pure j }

theorem decodeWith_paced {body : Decoding (List UInt8) Unit}
    (expand : List (List UInt8) → List UInt8) (stream : List UInt8) (width height : Nat)
    (paced : Triple (CursorIdle stream width CommonState.default.clock) body
      (fun _ pass => Paced pass.coder.log) fun _fault pass => Paced pass.coder.log) :
    Paced (decodeWith 8 3 body expand stream width height).log := by
  apply decodeWith_spec fun decoded => Paced decoded.log
  · intro _reason
    exact (startPass_cursor stream width).paced
  · intro _some _narrow
    have ends := paced _ (startPass_cursor stream width)
    cases ran : body (startPass UInt8 (readerAt stream 0) 8 3 width) with
    | ok value pass =>
        rw [ran] at ends
        exact ends
    | error fault pass =>
        rw [ran] at ends
        exact ends

theorem traceRgb32_paced (stream : List UInt8) (width height : Nat) :
    Paced (traceRgb32 stream width height).log :=
  decodeWith_paced _ stream width height (rgbPhase_paced stream width height)

theorem traceRgba_paced (stream : List UInt8) (width height : Nat) :
    Paced (traceRgba stream width height).log := by
  apply decodeWith_paced
  apply (rgbPhase_paced stream width height).bind
  intro _
  apply Keeps.bind (Keeps.view _)
  intro rows
  have restarted : Keeps (fun pass : Pass Tracer (List UInt8) => Paced pass.coder.log)
      (step fun pass => .ok ((), pass.restart 8 1 width) : Decoding (List UInt8) Unit) := by
    apply Keeps.step
    intro pass value last paced ran
    cases ran
    exact paced
  apply Keeps.bind restarted
  exact fun _ => @Coder.Steady.phase Tracer _ (fun tracer => Paced tracer.log) _ alphaDecoder_paced
    width rows

def runDecoders : List (List UInt8 → Nat → Nat → Decoded) := [traceRgb32, traceRgba]

/-- On any stream: every run met is exact, stays below `2 ^ 32` and in its segment or
is refused, and the cursor only moves forward and never enters `decode_one_pixel`
at 0, if and only if every run that the stream codes where one is met fits. -/
theorem runs_sound_iff (decoder : List UInt8 → Nat → Nat → Decoded) (listed : decoder ∈ runDecoders)
    (stream : List UInt8) (width height : Nat) :
    ((∀ event ∈ (decoder stream width height).log, event.RunSound stream) ∧
        Forward (decoder stream width height).log) ↔
      ∀ event ∈ (decoder stream width height).log, event.RunFits stream := by
  have paced : Paced (decoder stream width height).log := by
    simp only [runDecoders, List.mem_cons, List.not_mem_nil, or_false] at listed
    rcases listed with rfl | rfl
    · exact traceRgb32_paced stream width height
    · exact traceRgba_paced stream width height
  constructor
  · rintro ⟨sound, _forward⟩ event member
    cases event with
    | symbol bpc l window => exact True.intro
    | pixel row i => exact True.intro
    | run row start stop bitPos state =>
        exact (runSound_iff stream row start stop bitPos state).mp (sound _ member)
  · intro fits
    refine ⟨?_, paced.forward⟩
    intro event member
    cases event with
    | symbol bpc l window => exact True.intro
    | pixel row i => exact paced.entered row i member
    | run row start stop bitPos state =>
        exact (runSound_iff stream row start stop bitPos state).mpr (fits _ member)

/-! ### A run that wraps -/

/-- A header for 4 by 2 pixels, one word of codewords and `words` words of ones. The
ones give the rest of the first row and three equal pixels of the second, and then
a run. -/
def onesStream (words : Nat) : List UInt8 :=
  (QuicHeader.encode { imageType := .rgb32, width := 4, height := 2 } ++ [255, 128, 128, 128]) ++
    List.replicate (4 * words) 255

private theorem onesStream_length (words : Nat) : (onesStream words).length = 24 + 4 * words := by
  unfold onesStream
  rw [List.length_append, List.length_replicate]
  rfl

private theorem ones_word {words word : Nat} (positive : 0 < word) (inside : word ≤ words) :
    (readerAt (onesStream words) 0).readWordAt (QUIC_HEADER_SIZE + word * 4) = 0xFFFFFFFF := by
  have room : QUIC_HEADER_SIZE + word * 4 + 4 ≤ (onesStream words).length := by
    rw [onesStream_length]
    change 20 + word * 4 + 4 ≤ 24 + 4 * words
    omega
  have ones : Bytes.slice (onesStream words) (QUIC_HEADER_SIZE + word * 4)
      (QUIC_HEADER_SIZE + word * 4 + 4) = List.replicate 4 255 := by
    obtain ⟨before, rfl⟩ : ∃ before, word = before + 1 := ⟨word - 1, by omega⟩
    have start : QUIC_HEADER_SIZE + (before + 1) * 4 = 24 + before * 4 := by
      change 20 + (before + 1) * 4 = _
      omega
    unfold Bytes.slice onesStream
    rw [start, List.drop_append, Nat.add_sub_cancel_left, List.drop_replicate,
      List.drop_eq_nil_of_le (by change 24 ≤ 24 + before * 4; omega), List.nil_append,
      List.take_replicate]
    congr 1
    change min 4 (4 * words - (24 + before * 4 - 24)) = 4
    omega
  refine (if_pos room).trans ?_
  change Bytes.ofLe (Bytes.slice (onesStream words) _ _) = _
  rw [ones]
  rfl

private theorem first_word (words : Nat) :
    (readerAt (onesStream words) 0).readWordAt QUIC_HEADER_SIZE = 0x808080FF := by
  have room : QUIC_HEADER_SIZE + 4 ≤ (onesStream words).length := by
    rw [onesStream_length]
    exact Nat.le_add_right 24 _
  have start : Bytes.slice (onesStream words) QUIC_HEADER_SIZE (QUIC_HEADER_SIZE + 4) =
      [255, 128, 128, 128] := by
    unfold Bytes.slice onesStream
    rw [List.drop_append_of_le_length (by decide), List.take_append_of_le_length (by decide)]
    rfl
  refine (if_pos room).trans ?_
  change Bytes.ofLe (Bytes.slice (onesStream words) _ _) = _
  rw [start]
  rfl

private theorem ones_bit {words position : Nat} (late : 32 ≤ position)
    (inside : position < 32 + 32 * words) :
    (readerAt (onesStream words) 0).bit position = true := by
  unfold BitReader.bit
  change ((readerAt (onesStream words) 0).readWordAt
    (QUIC_HEADER_SIZE + position / 32 * 4)).testBit _ = true
  rw [ones_word (by omega) (by omega)]
  have within : 31 - position % 32 < 32 := by omega
  exact (Nat.testBit_two_pow_sub_one 32 _).trans (decide_eq_true within)

private theorem ones_shown (words : Nat) (some : 0 < words) :
    (readerAt (onesStream words) 42).ShowsOnes (32 * words - 10) := by
  intro offset inRange
  rw [List.length_append, List.length_replicate] at inRange
  change (readerAt (onesStream words) 0).bit (42 + offset) = _
  by_cases within : offset < 32 * words - 10
  · rw [List.getElem_append_left (by rw [List.length_replicate]; exact within),
      List.getElem_replicate]
    exact ones_bit (by omega) (by omega)
  · have last : offset = 32 * words - 10 := by
      change offset < 32 * words - 10 + 1 at inRange
      omega
    subst last
    rw [List.getElem_append_right (by rw [List.length_replicate])]
    have past : ¬QUIC_HEADER_SIZE + (42 + (32 * words - 10)) / 32 * 4 + 4 ≤
        (onesStream words).length := by
      rw [onesStream_length]
      change ¬20 + (42 + (32 * words - 10)) / 32 * 4 + 4 ≤ _
      omega
    unfold BitReader.bit BitReader.readWordAt
    change (if QUIC_HEADER_SIZE + (42 + (32 * words - 10)) / 32 * 4 + 4 ≤
      (onesStream words).length then _ else 0).testBit _ = _
    rw [if_neg past, Nat.zero_testBit]
    simp only [List.length_replicate, Nat.sub_self, List.getElem_cons_zero]

private theorem ones_agree {words words' : Nat} (longer : words ≤ words') :
    Agree (onesStream words) (onesStream words') (32 + 32 * words) where
  bits := by
    intro position inside
    by_cases late : 32 ≤ position
    · rw [ones_bit late inside, ones_bit late (by omega)]
    · have first : position / 32 = 0 := by omega
      unfold BitReader.bit
      change ((readerAt (onesStream words) 0).readWordAt
          (QUIC_HEADER_SIZE + position / 32 * 4)).testBit _ =
        ((readerAt (onesStream words') 0).readWordAt
          (QUIC_HEADER_SIZE + position / 32 * 4)).testBit _
      rw [first, Nat.zero_mul, Nat.add_zero, first_word, first_word]
  inside := by
    change 32 + 32 * words ≤ ((onesStream words).length - 20) * 8 + 32
    rw [onesStream_length]
    omega
  inside' := by
    change 32 + 32 * words ≤ ((onesStream words').length - 20) * 8 + 32
    rw [onesStream_length]
    omega

private theorem weight_top {state : CommonState} (top : state.melcstate = 31) (ones : Nat) :
    state.weight ones = 2 ^ 15 * ones := by
  induction ones generalizing state with
  | zero => rfl
  | succ ones ih =>
      have stays : state.rise.melcstate = 31 := by
        unfold CommonState.rise
        rw [dif_neg (by rw [top]; decide)]
        exact top
      have order : state.melcorder = 2 ^ 15 := by
        rw [state.melcorder_eq, state.melclen_eq, top]
        rfl
      rw [CommonState.weight, ih stays, order]
      ring

def metState : CommonState :=
  { CommonState.default.resetRle with tabrandSeed := 262, wmileft := 2044 }

private theorem ones_met {words : Nat} (longer : 4 ≤ words) :
    Event.run 1 3 4 42 metState ∈ (traceRgb32 (onesStream words) 4 2).log := by
  have short : firstRun (traceRgb32 (onesStream 4) 4 2).log = some (.run 1 3 4 42 metState) := by
    decide +kernel
  have inShared : InShared (32 + 32 * 4) (.run 1 3 4 42 metState) :=
    ⟨1, 3, 4, 42, metState, rfl, by decide⟩
  have accepted : validateDims 4 2 4 = .ok 32 := rfl
  have header : ∀ count, QUIC_HEADER_SIZE ≤ (onesStream count).length := by
    intro count
    rw [onesStream_length]
    exact Nat.le_trans (by decide) (Nat.le_add_right 24 _)
  exact firstRun_mem
    (firstRun_transfer (ones_agree longer) inShared (header 4) (header words) accepted short)

/-- 16 KiB of ones, or more, are the code of a run of more than `2 ^ 32` pixels, and
the decoder meets it. -/
theorem ones_unfit {words : Nat} (long : 4098 ≤ words) :
    ¬(Event.run 1 3 4 42 metState).RunFits (onesStream words) := by
  intro fits
  have shown := ones_shown words (by omega)
  obtain ⟨extra, total⟩ : ∃ extra, 32 * words - 10 = 31 + extra := ⟨32 * words - 41, by omega⟩
  rw [total] at shown
  have field := (metState.risen (31 + extra)).melclen_le
  have limit : (readerAt (onesStream words) 42).limit = 4 * words * 8 + 64 := by
    change ((onesStream words).length - 20) * 8 + 32 = _
    rw [onesStream_length]
    omega
  have room : 42 + runBits metState (31 + extra) ≤ (readerAt (onesStream words) 42).limit := by
    unfold runBits
    rw [limit]
    omega
  have top : (metState.risen 31).melcstate = 31 := by decide +kernel
  have heavy : 2 ^ 32 ≤ metState.weight (31 + extra) := by
    rw [CommonState.weight_add, weight_top top]
    omega
  have small := fits (31 + extra) shown room
  unfold runValue at small
  generalize metState.weight (31 + extra) = sum at heavy small
  generalize ((readerAt (onesStream words) 42).skip (31 + extra + 1)).peek32 >>>
    (32 - (metState.risen (31 + extra)).melclen) = rest at small
  omega

def wrapStream : List UInt8 := onesStream 4098

theorem runs_sound_iff_wrap :
    ((∀ event ∈ (traceRgb32 wrapStream 4 2).log, event.RunSound wrapStream) ∧
        Forward (traceRgb32 wrapStream 4 2).log) ↔
      ∀ event ∈ (traceRgb32 wrapStream 4 2).log, event.RunFits wrapStream :=
  runs_sound_iff traceRgb32 List.mem_cons_self wrapStream 4 2

/-- The run that the decoder meets there is not the one that the stream codes. -/
theorem wrapped_run : ¬∀ event ∈ (traceRgb32 wrapStream 4 2).log, event.RunSound wrapStream := by
  intro sound
  have long : 4098 ≤ 4098 := Nat.le_refl 4098
  have met : Event.run 1 3 4 42 metState ∈ (traceRgb32 (onesStream 4098) 4 2).log :=
    ones_met (Nat.le_trans (by decide) long)
  exact ones_unfit long ((runSound_iff (onesStream 4098) 1 3 4 42 metState).mp (sound _ met))

end Capsaicin.Quic