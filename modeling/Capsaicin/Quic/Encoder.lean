/-
The RGB32 encoder, and what each of its operations needs and writes.
-/

import Capsaicin.Quic.Driver
import Capsaicin.Quic.Layout
import Capsaicin.Quic.Melcode

namespace Capsaicin.Quic

open Program (Keeps Triple index assign access step)

abbrev Encoding (α : Type) := Coding BitWriter (List UInt8) α

/-- One channel of pixel `i`; at `i = 0` this is the body of `encode_one_pixel_pos0`. -/
def encodeLane (i : Nat) (lane : Nat × Nat) : Encoding Unit :=
  step fun pass => do
    let family := Family.init 8
    let curVal ← access (bgra.read pass.cur lane.2 i)
    let predicted ← predict bgra pass.prev pass.cur lane.2 i
    let residual ← index family.xlatU2l
      (((curVal + 2 ^ 32 - predicted) % 2 ^ 32) &&& bppmask family.bpc)
    let chan ← index pass.chans lane.1
    let correlateRow ← assign chan.correlateRow i residual
    let chan := { chan with correlateRow := correlateRow }
    let context ← chan.context i
    let bucket ← chan.findBucket context
    let encoded ← family.golombEncode residual bucket.bestcode
    .ok ((),
      { pass with
        coder := pass.coder.write encoded.1 encoded.2
        chans := pass.chans.set lane.1 chan })

def encodeLanes (i : Nat) : List (Nat × Nat) → Encoding Unit
  | [] => pure ()
  | lane :: rest => do
      encodeLane i lane
      encodeLanes i rest

def encodeOnePixelPos0 : Encoding Unit := encodeLanes 0 rgbLanes

def encodeOnePixel (i : Nat) : Encoding Unit := encodeLanes i rgbLanes

def encodeRun (j stop : Nat) : Encoding Nat :=
  step fun pass => do
    let size ← runSize pass.cur j (stop - j)
    let written ← encodeStateRun pass.coder pass.state size
    .ok (j + size, { pass with coder := written.1, state := written.2 })

def rgb32Encoder : Coder BitWriter (List UInt8) where
  family := Family.init 8
  assertsOrder := true
  first := encodeOnePixelPos0
  pixel := encodeOnePixel
  escapes := encodeRleMatch
  run := encodeRun

def compressSegRgb32 : Nat → Nat → Encoding Unit := seg rgb32Encoder
def compressRowRgb32 : Nat → Encoding Unit := row rgb32Encoder

def rowsOf (stride height : Nat) (pixels : List UInt8) : List (List UInt8) :=
  (List.range height).map fun row => Bytes.slice pixels (row * stride) ((row + 1) * stride)

def encoderStart (width : Nat) : Pass BitWriter (List UInt8) :=
  { coder := BitWriter.new
    state := CommonState.default.resetRle
    chans := List.replicate 3 (ChannelDecoder.new 8 width)
    above := []
    cur := [] }

/-- `width * height * 4` is a `u32` product; the first row is cut off the buffer
before the loop over the others. -/
def compressRgb32 (pixels : List UInt8) (width height : Nat) : Except QuicFault (List UInt8) :=
  if 2 ^ 32 ≤ width * height * 4 then .error (.panic .overflow)
  else if pixels.length ≠ width * height * 4 then .error (.panic .assertion)
  else if height = 0 then .error (.panic .index)
  else
    match phase rgb32Encoder width (rowsOf (width * 4) height pixels) (encoderStart width) with
    | .error fault _ => .error fault
    | .ok _ pass =>
        .ok (QuicHeader.encode { imageType := .rgb32, width := width, height := height } ++
          pass.coder.finish)

/-! ### What the encoder needs and writes -/

structure EncoderIdle (width : Nat) (clock : Clock) (pass : Pass BitWriter (List UInt8)) : Prop where
  clock : pass.state.clock = clock
  three : pass.chans.length = 3
  sound : AllSound 8 width pass.chans
  writer : pass.coder.Sound
  above : ∀ row ∈ pass.above, FullRow width row

structure EncoderReady (width : Nat) (clock : Clock) (pass : Pass BitWriter (List UInt8)) : Prop
    extends EncoderIdle width clock pass where
  cur : FullRow width pass.cur

theorem EncoderReady.prev {width : Nat} {clock : Clock} {pass : Pass BitWriter (List UInt8)}
    (ready : EncoderReady width clock pass) : ∀ row ∈ pass.prev, FullRow width row :=
  fun row first => ready.above row (List.mem_of_mem_head? first)

structure LaneSymbol (pass : Pass BitWriter (List UInt8)) (i channel lane : Nat) where
  chan : ChannelDecoder
  bucket : Bucket
  context : UInt8
  curVal : UInt8
  residual : UInt8
  predicted : Nat
  codeword : Nat
  len : Nat
  chanAt : pass.chans[channel]? = some chan
  contextAt : chan.context i = .ok context
  bucketAt : chan.findBucket context = .ok bucket
  inRow : i < chan.correlateRow.length
  valueAt : pass.cur[i * 4 + lane]? = some curVal
  predictedAt : predict bgra pass.prev pass.cur lane i = .ok predicted
  predictedLt : predicted < 256
  unsigned : index (ε := QuicError) (Family.init 8).xlatL2u residual.toNat =
    .ok (((curVal.toNat + 2 ^ 32 - predicted) % 2 ^ 32) &&& bppmask 8)
  code : Codeword (Family.init 8) bucket.bestcode codeword len residual

def LaneSymbol.next {pass : Pass BitWriter (List UInt8)} {i channel lane : Nat}
    (symbol : LaneSymbol pass i channel lane) : Pass BitWriter (List UInt8) :=
  { pass with
    coder := pass.coder.write symbol.codeword symbol.len
    chans := pass.chans.set channel
      { symbol.chan with correlateRow := symbol.chan.correlateRow.set i symbol.residual } }

theorem encodeLane_eq {width i channel lane : Nat} {clock : Clock}
    {pass : Pass BitWriter (List UInt8)} (ready : EncoderReady width clock pass)
    (inside : i < width) (channelIn : channel < 3) (laneIn : lane < 3) :
    ∃ symbol : LaneSymbol pass i channel lane,
      encodeLane i (channel, lane) pass = .ok () symbol.next := by
  have inChans : channel < pass.chans.length := ready.three ▸ channelIn
  have sound := (ready.sound _ (List.getElem_mem inChans)).1
  have inRow : i < pass.chans[channel].correlateRow.length := sound.row ▸ inside
  obtain ⟨curVal, valueAt, valueRead⟩ := ready.cur.read inside (show lane < 4 by omega)
  obtain ⟨predicted, predictedAt, predictedLt⟩ :=
    predict_ok ready.cur ready.prev inside (show lane < 4 by omega)
  have masked : ((curVal.toNat + 2 ^ 32 - predicted) % 2 ^ 32) &&& bppmask 8 < 2 ^ 8 := by
    have mask : bppmask 8 < 2 ^ 8 := by decide
    exact Nat.lt_of_le_of_lt Nat.and_le_right mask
  obtain ⟨residual, residualAt, _residualLt, unsigned⟩ :=
    Family.xlat_inverse (Or.inl rfl) masked
  obtain ⟨context, contextAt, contextLt⟩ :=
    ChannelDecoder.context_ok sound (ChannelDecoder.inAlphabet_eight _) inside
  obtain ⟨idx, bucket, _pointer, bucketAt, _listed, bucketSound⟩ :=
    ChannelDecoder.findBucket_ok sound contextLt
  obtain ⟨codeword, len, encoded, code⟩ := Family.golombEncode_codeword (n := residual)
    ⟨Or.inl rfl, bucketSound.best⟩ residual.toNat_lt
  refine ⟨{
    chan := pass.chans[channel], bucket := bucket, context := context, curVal := curVal,
    residual := residual, predicted := predicted, codeword := codeword, len := len,
    chanAt := List.getElem?_eq_getElem inChans, contextAt := contextAt, bucketAt := bucketAt,
    inRow := inRow, valueAt := valueAt, predictedAt := predictedAt, predictedLt := predictedLt,
    unsigned := unsigned, code := code }, ?_⟩
  apply Program.run_step_ok
  have setContext := (ChannelDecoder.context_set pass.chans[channel] i residual).trans contextAt
  have setBucket : ({ pass.chans[channel] with
      correlateRow := pass.chans[channel].correlateRow.set i residual } :
      ChannelDecoder).findBucket context = .ok bucket := bucketAt
  dsimp only
  rw [valueRead, Program.bind_ok (Program.access_some _), Program.bind_ok predictedAt,
    Family.init_bpc, Program.bind_ok residualAt, Program.bind_ok (Program.index_of_lt inChans),
    Program.bind_ok (Program.assign_of_lt residual inRow), Program.bind_ok setContext,
    Program.bind_ok setBucket, Program.bind_ok encoded]
  rfl

theorem LaneSymbol.next_ready {width i channel lane : Nat} {clock : Clock}
    {pass : Pass BitWriter (List UInt8)} (ready : EncoderReady width clock pass)
    (symbol : LaneSymbol pass i channel lane) : EncoderReady width clock symbol.next where
  clock := ready.clock
  three := (List.length_set).trans ready.three
  sound := by
    intro chan member
    rcases List.mem_or_eq_of_mem_set member with old | new
    · exact ready.sound chan old
    · have listed := ready.sound _ (List.mem_of_getElem? symbol.chanAt)
      rw [new]
      exact ⟨listed.1.place symbol.residual, listed.2.place symbol.residual.toNat_lt⟩
  writer := (BitWriter.write_bits ready.writer symbol.code.short symbol.code.fits).1
  cur := ready.cur
  above := ready.above

theorem LaneSymbol.next_bits {width i channel lane : Nat} {clock : Clock}
    {pass : Pass BitWriter (List UInt8)} (ready : EncoderReady width clock pass)
    (symbol : LaneSymbol pass i channel lane) :
    symbol.next.coder.bits = pass.coder.bits ++ BitString.ofNat symbol.len symbol.codeword :=
  (BitWriter.write_bits ready.writer symbol.code.short symbol.code.fits).2

def ThreeLanes (lanes : List (Nat × Nat)) : Prop := ∀ lane ∈ lanes, lane.1 < 3 ∧ lane.2 < 3

theorem rgbLanes_three : ThreeLanes rgbLanes := by
  unfold ThreeLanes
  decide

theorem encodeLanes_triple {width i : Nat} {clock : Clock} (inside : i < width)
    {lanes : List (Nat × Nat)} (three : ThreeLanes lanes) :
    Triple (EncoderReady width clock) (encodeLanes i lanes) (fun _ => EncoderReady width clock)
      fun _ _ => False := by
  induction lanes with
  | nil => exact Triple.pure () fun _pass ready => ready
  | cons lane rest ih =>
      have here := three lane (List.mem_cons_self)
      have one : Triple (EncoderReady width clock) (encodeLane i lane)
          (fun _ => EncoderReady width clock) fun _ _ => False := by
        intro pass ready
        obtain ⟨symbol, ran⟩ := encodeLane_eq ready inside here.1 here.2
        rw [ran]
        exact symbol.next_ready ready
      exact one.bind fun _ => ih fun other member => three other (List.mem_cons_of_mem _ member)

theorem encodeRun_eq {width j stop : Nat} {clock : Clock} {pass : Pass BitWriter (List UInt8)}
    (ready : EncoderReady width clock pass) (positive : 0 < j) (inside : j < stop)
    (fits : stop ≤ width) :
    ∃ size writer state code, encodeRun j stop pass =
        .ok (j + size) { pass with coder := writer, state := state } ∧
      j + size ≤ stop ∧ writer.Sound ∧ writer.bits = pass.coder.bits ++ code ∧
      state.clock = clock ∧
      (∀ offset, offset < size → SamePixel pass.cur (j + offset) pass.cur (j - 1)) ∧
      ∀ reader : BitReader, size < 2 ^ 32 → BitString.Shows reader.bit reader.bitPos code →
        reader.bitPos + code.length ≤ reader.limit →
        decodeStateRun reader pass.state = .ok (size, reader.skip code.length, state) := by
  obtain ⟨size, counted, sizeLe, repeats⟩ :=
    runSize_ok ready.cur positive (show j + (stop - j) ≤ width by omega)
  obtain ⟨writer, ones, code, written, sound, bits, decodes⟩ :=
    encodeStateRun_eq pass.state ready.writer
  refine ⟨size, writer, (pass.state.risen ones).fall, code, ?_, by omega, sound, bits,
    (pass.state.risen_fall_clock ones).trans ready.clock, repeats, decodes⟩
  apply Program.run_step_ok
  rw [Program.bind_ok counted, Program.bind_ok written]

def Extends (writer writer' : BitWriter) : Prop :=
  writer.Sound → writer'.Sound ∧ ∃ code, writer'.bits = writer.bits ++ code

section Steady

variable {kept : Pass BitWriter (List UInt8) → Prop}

theorem encodeLane_keeps
    (stable : ∀ {pass : Pass BitWriter (List UInt8)} (writer : BitWriter)
      (chans : List ChannelDecoder), Extends pass.coder writer → kept pass →
        kept { pass with coder := writer, chans := chans })
    (i : Nat) (lane : Nat × Nat) : Keeps kept (encodeLane i lane) := by
  apply Keeps.step
  intro pass value last start ran
  obtain ⟨curVal, _, ran⟩ := Program.bind_eq_ok.mp ran
  obtain ⟨predicted, _, ran⟩ := Program.bind_eq_ok.mp ran
  obtain ⟨residual, _, ran⟩ := Program.bind_eq_ok.mp ran
  obtain ⟨chan, _, ran⟩ := Program.bind_eq_ok.mp ran
  obtain ⟨correlateRow, _, ran⟩ := Program.bind_eq_ok.mp ran
  obtain ⟨context, _, ran⟩ := Program.bind_eq_ok.mp ran
  obtain ⟨bucket, _, ran⟩ := Program.bind_eq_ok.mp ran
  obtain ⟨encoded, coded, ran⟩ := Program.bind_eq_ok.mp ran
  cases ran
  apply stable (pass.coder.write encoded.1 encoded.2) _ _ start
  intro sound
  obtain ⟨codeword, len, again, code⟩ := Family.golombEncode_codeword (n := residual)
    ⟨Or.inl rfl, Family.golombEncode_known coded⟩ residual.toNat_lt
  rw [coded] at again
  cases again
  have written := BitWriter.write_bits sound code.short code.fits
  exact ⟨written.1, _, written.2⟩

theorem encodeLanes_keeps
    (stable : ∀ {pass : Pass BitWriter (List UInt8)} (writer : BitWriter)
      (chans : List ChannelDecoder), Extends pass.coder writer → kept pass →
        kept { pass with coder := writer, chans := chans })
    (i : Nat) (lanes : List (Nat × Nat)) : Keeps kept (encodeLanes i lanes) := by
  induction lanes with
  | nil => exact Keeps.pure ()
  | cons lane rest ih => exact Keeps.bind (encodeLane_keeps stable i lane) fun _ => ih

theorem encodeStateRun_clock {writer writer' : BitWriter} {state state' : CommonState}
    {runlen : Nat} (encoded : encodeStateRun writer state runlen = .ok (writer', state')) :
    state'.clock = state.clock := by
  obtain ⟨ones, rest, counted, _total, _small⟩ := encodeHits_eq state 0 (Nat.lt_succ_self runlen)
  unfold encodeStateRun at encoded
  rw [Program.bind_ok counted] at encoded
  cases encoded
  exact state.risen_fall_clock ones

theorem encodeRun_keeps
    (stable : ∀ {pass : Pass BitWriter (List UInt8)} (writer : BitWriter) (state : CommonState),
      Extends pass.coder writer → state.clock = pass.state.clock → kept pass →
        kept { pass with coder := writer, state := state })
    (j stop : Nat) : Keeps kept (encodeRun j stop) := by
  apply Keeps.step
  intro pass value last start ran
  obtain ⟨size, _, ran⟩ := Program.bind_eq_ok.mp ran
  obtain ⟨written, coded, ran⟩ := Program.bind_eq_ok.mp ran
  cases ran
  apply stable written.1 written.2 _ (encodeStateRun_clock coded) start
  intro sound
  obtain ⟨writer, ones, code, again, sound', bits, _decodes⟩ :=
    encodeStateRun_eq pass.state sound
  rw [coded] at again
  cases again
  exact ⟨sound', code, bits⟩

variable
  (stable : ∀ {pass : Pass BitWriter (List UInt8)} (writer : BitWriter) (state : CommonState)
    (chans : List ChannelDecoder), Extends pass.coder writer → kept pass →
    kept { pass with coder := writer, state := state, chans := chans })

include stable

theorem encoder_steady : rgb32Encoder.Steady kept where
  retime := fun {pass} state start => stable pass.coder state pass.chans
    (fun sound => ⟨sound, [], (List.append_nil _).symm⟩) start
  remodel := fun {pass} chans start => stable pass.coder pass.state chans
    (fun sound => ⟨sound, [], (List.append_nil _).symm⟩) start
  first := encodeLanes_keeps (fun {pass} writer chans => stable writer pass.state chans) 0 rgbLanes
  pixel := fun j =>
    encodeLanes_keeps (fun {pass} writer chans => stable writer pass.state chans) j rgbLanes
  run := encodeRun_keeps fun {pass} writer state more _same => stable writer state pass.chans more

end Steady

theorem encoder_guarded (width : Nat) (some : 0 < width) :
    Guarded rgb32Encoder width (fun _ _ => False) (fun clock _ => EncoderReady width clock)
      (EncoderIdle width) (FullRow width) where
  clock := fun ready => ready.clock
  retime := fun state ready _melc =>
    { clock := rfl, three := ready.three, sound := ready.sound, writer := ready.writer
      above := ready.above, cur := ready.cur }
  escapes := by
    intro clock j pass runIndex positive inside ready
    obtain ⟨answer, answered, met⟩ := rleMatch_ok ready.cur ready.prev inside runIndex
    refine ⟨answer, answered, fun yes => ?_⟩
    obtain ⟨_above, _first, _late, fresh, _rest⟩ := met.mp yes
    exact fresh
  first := fun clock some => encodeLanes_triple some rgbLanes_three
  pixel := fun clock j _positive inside => encodeLanes_triple inside rgbLanes_three
  run := by
    intro clock j stop positive inside fits pass ready
    obtain ⟨size, writer, state, code, ran, bounded, sound, _bits, atClock, _rest⟩ :=
      encodeRun_eq ready positive inside fits
    have called : rgb32Encoder.run j stop pass = encodeRun j stop pass := rfl
    rw [called, ran]
    exact ⟨⟨Nat.le_add_right _ _, bounded⟩,
      { clock := atClock, three := ready.three, sound := ready.sound, writer := sound
        above := ready.above, cur := ready.cur }⟩
  models := by
    intro clock idx inside pass ready
    obtain ⟨chans, updated, lengths, sound⟩ :=
      updateAll_ok (Or.inl rfl) pass.state ready.sound inside
    have ran : updateModelsAt rgb32Encoder.family idx pass = .ok () { pass with chans := chans } := by
      apply Program.run_step_ok
      change (pass.chans.mapM (ChannelDecoder.updateAt (Family.init 8) pass.state idx) >>= _) = _
      rw [Program.bind_ok updated]
    rw [ran]
    exact { clock := ready.clock, three := lengths.trans ready.three, sound := sound
            writer := ready.writer, above := ready.above, cur := ready.cur }
  opened := fun idle full =>
    { clock := idle.clock, three := idle.three, sound := idle.sound, writer := idle.writer
      above := idle.above, cur := full }
  closed := by
    intro clock pass ready
    obtain ⟨chans, latched, lengths, sound⟩ := latchAll_ok some ready.sound
    have ran : closeRow pass = .ok () { pass with chans := chans, above := pass.cur :: pass.above } := by
      apply Program.run_step_ok
      rw [Program.bind_ok latched]
    rw [ran]
    refine { clock := ready.clock, three := lengths.trans ready.three, sound := sound
             writer := ready.writer, above := ?_ }
    intro row member
    rcases List.mem_cons.mp member with first | later
    · exact first ▸ ready.cur
    · exact ready.above row later

end Capsaicin.Quic
