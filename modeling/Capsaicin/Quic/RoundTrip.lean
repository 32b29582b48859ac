/-
The RGB32 round trip. The decoder follows the encoder as long as the bits the
encoder has written are the ones the decoder is reading; the finished stream
carries all of them.
-/

import Capsaicin.Quic.Decoder
import Capsaicin.Quic.Encoder
import Mathlib.Tactic.IntervalCases

namespace Capsaicin.Quic

open BitString (Shows)
open Program (Coupled Parting Triple)

def bodyReader (stream : List UInt8) : BitReader :=
  { bytes := stream, bodyStart := QUIC_HEADER_SIZE, bitPos := 0 }

/-- The body of the stream starts with these bits. -/
structure Carries (stream : List UInt8) (bits : List Bool) : Prop where
  shows_ : Shows (bodyReader stream).bit 0 bits
  room : bits.length ≤ (stream.length - QUIC_HEADER_SIZE) * 8

theorem Carries.initial {stream : List UInt8} {bits rest : List Bool}
    (carries : Carries stream (bits ++ rest)) : Carries stream bits where
  shows_ := (BitString.shows_append.mp carries.shows_).1
  room := by
    have room := carries.room
    rw [List.length_append] at room
    omega

/-- A decoder at the end of the written bits reads what is written next. -/
structure Follows (stream : List UInt8) (writer : BitWriter) (reader : BitReader) : Prop where
  bytes : reader.bytes = stream
  body : reader.bodyStart = QUIC_HEADER_SIZE
  position : reader.bitPos = writer.bits.length

theorem Follows.next {stream : List UInt8} {writer : BitWriter} {reader : BitReader}
    {code : List Bool} (follows : Follows stream writer reader)
    (carries : Carries stream (writer.bits ++ code)) :
    Shows reader.bit reader.bitPos code ∧ reader.bitPos + code.length ≤ reader.limit := by
  constructor
  · have shown := (BitString.shows_append.mp carries.shows_).2
    rw [Nat.zero_add] at shown
    intro offset inRange
    rw [follows.position, ← shown offset inRange]
    unfold BitReader.bit BitReader.readWordAt
    rw [follows.bytes, follows.body]
    rfl
  · have room := carries.room
    rw [List.length_append] at room
    unfold BitReader.limit
    rw [follows.position, follows.bytes, follows.body]
    omega

/-- The encoder may write what the decoder does not find; then nothing is claimed. -/
def mirrorParting (stream : List UInt8) : Parting QuicFault QuicFault BitWriter Tracer where
  stopped := fun _ _ _ _ => False
  lostLeft writer := writer.Sound ∧ ¬Carries stream writer.bits
  lostRight := fun _ => False

/-- The decoded row agrees with the row of the image on the pixels before `k`. -/
structure RowDone (k : Nat) (row row' : List UInt8) : Prop where
  pixels : ∀ i, i < k → SamePixel row' i row i
  pad : ∀ i, i < k → row'[i * 4 + 3]? = some 0

theorem RowDone.samePixel {k : Nat} {row row' : List UInt8} (done : RowDone k row row') {a b : Nat}
    (beforeA : a < k) (beforeB : b < k) : SamePixel row a row b ↔ SamePixel row' a row' b := by
  have atA := done.pixels a beforeA
  have atB := done.pixels b beforeB
  exact ⟨fun same => atA.trans (same.trans atB.symm), fun same => atA.symm.trans (same.trans atB)⟩

structure RowPair (width : Nat) (row row' : List UInt8) : Prop where
  source : FullRow width row
  target : FullRow width row'
  done : RowDone width row row'

/-- Between rows: the same coding state and channels, mirrored rows, and the decoder
at the end of what is written. -/
structure MirroredIdle (stream : List UInt8) (width : Nat) (clock : Clock)
    (source : Pass BitWriter (List UInt8)) (target : Pass Tracer (List UInt8)) : Prop where
  ready : EncoderIdle width clock source
  state : source.state = target.state
  chans : source.chans = target.chans
  follows : Follows stream source.coder target.coder.reader
  above : List.Forall₂ (RowPair width) source.above target.above

structure Mirrored (stream : List UInt8) (width : Nat) (clock : Clock) (k : Nat)
    (source : Pass BitWriter (List UInt8)) (target : Pass Tracer (List UInt8)) : Prop
    extends MirroredIdle stream width clock source target where
  fullSource : FullRow width source.cur
  fullTarget : FullRow width target.cur
  done : RowDone k source.cur target.cur

variable {stream : List UInt8} {width : Nat} {clock : Clock} {k : Nat}
  {source : Pass BitWriter (List UInt8)} {target : Pass Tracer (List UInt8)}

theorem Mirrored.encoder (mirrored : Mirrored stream width clock k source target) :
    EncoderReady width clock source :=
  { mirrored.ready with cur := mirrored.fullSource }

theorem Mirrored.prev_cases (mirrored : Mirrored stream width clock k source target) :
    (source.prev = none ∧ target.prev = none) ∨
      ∃ above above', source.prev = some above ∧ target.prev = some above' ∧
        RowPair width above above' := by
  have pairs := mirrored.above
  unfold Pass.prev
  generalize source.above = rows at pairs
  generalize target.above = rows' at pairs
  cases pairs with
  | nil => exact Or.inl ⟨rfl, rfl⟩
  | cons pair _rest => exact Or.inr ⟨_, _, rfl, rfl, pair⟩

theorem Mirrored.prev_full (mirrored : Mirrored stream width clock k source target) :
    ∀ row ∈ target.prev, FullRow width row := by
  intro row member
  rcases mirrored.prev_cases with ⟨_none, none⟩ | ⟨above, above', _some, some, pair⟩
  · rw [none] at member
    cases member
  · rw [some] at member
    cases member
    exact pair.target

theorem Mirrored.predict (mirrored : Mirrored stream width clock k source target) {i lane : Nat}
    (reached : i ≤ k) (inside : i < width) (laneIn : lane < 3) :
    predict bgra source.prev source.cur lane i = predict bgra target.prev target.cur lane i := by
  have left : ∀ left, i = left + 1 → bgra.read source.cur lane left = bgra.read target.cur lane left := by
    intro left next
    exact congrArg (Option.map UInt8.toNat)
      (mirrored.done.pixels left (by omega) lane laneIn).symm
  rcases mirrored.prev_cases with ⟨none, none'⟩ | ⟨above, above', some, some', pair⟩
  · rw [none, none']
    cases i with
    | zero => rfl
    | succ i => simp only [Quic.predict, left i rfl]
  · have higher : bgra.read above lane i = bgra.read above' lane i :=
      congrArg (Option.map UInt8.toNat) (pair.done.pixels i inside lane laneIn).symm
    rw [some, some']
    cases i with
    | zero => simp only [Quic.predict, higher]
    | succ i => simp only [Quic.predict, left i rfl, higher]

/-- Inside pixel `i`: the lanes already done agree and the padding byte is clear. -/
structure MirroredPixel (stream : List UInt8) (width : Nat) (clock : Clock) (i : Nat)
    (lanes : List (Nat × Nat)) (source : Pass BitWriter (List UInt8))
    (target : Pass Tracer (List UInt8)) : Prop extends Mirrored stream width clock i source target where
  lanes : ∀ lane ∈ lanes, target.cur[i * 4 + lane.2]? = source.cur[i * 4 + lane.2]?
  padded : target.cur[i * 4 + 3]? = some 0

theorem residual_back {curVal predicted : Nat} (curByte : curVal < 256) (predictedByte : predicted < 256) :
    ((((curVal + 2 ^ 32 - predicted) % 2 ^ 32) &&& bppmask 8) + predicted) &&& bppmask 8 = curVal := by
  have mask : bppmask 8 = 2 ^ 8 - 1 := by decide
  rw [mask, Nat.and_two_pow_sub_one_eq_mod, Nat.and_two_pow_sub_one_eq_mod]
  omega

theorem MirroredPixel.lane {i channel lane : Nat} {lanes : List (Nat × Nat)}
    (mirrored : MirroredPixel stream width clock i lanes source target) (inside : i < width)
    (laneIn : lane < 3) (symbol : LaneSymbol source i channel lane)
    (carries : Carries stream symbol.next.coder.bits) :
    ∃ target', decodeLane bgra (Family.init 8) i (channel, lane) target = .ok () target' ∧
      MirroredPixel stream width clock i ((channel, lane) :: lanes) symbol.next target' := by
  have ready := mirrored.encoder
  have bits := symbol.next_bits ready
  rw [bits] at carries
  obtain ⟨shown, room⟩ := mirrored.follows.next carries
  rw [BitString.length_ofNat] at room
  have window := target.coder.reader.peek32_window
  have decoded := symbol.code.decodes _ window.bounded
    (window.field (Nat.le_of_lt symbol.code.short) symbol.code.fits shown)
  have value : ((((symbol.curVal.toNat + 2 ^ 32 - symbol.predicted) % 2 ^ 32) &&& bppmask 8) +
      symbol.predicted) &&& bppmask (Family.init 8).bpc = symbol.curVal.toNat :=
    residual_back symbol.curVal.toNat_lt symbol.predictedLt
  have predictedAt : Quic.predict bgra target.prev target.cur lane i = .ok symbol.predicted := by
    rw [← mirrored.predict (Nat.le_refl i) inside laneIn]
    exact symbol.predictedAt
  have inRow := mirrored.fullTarget.byte inside (show lane < 4 by omega)
  have written : bgra.write target.cur lane i
      (((((symbol.curVal.toNat + 2 ^ 32 - symbol.predicted) % 2 ^ 32) &&& bppmask 8) +
        symbol.predicted) &&& bppmask (Family.init 8).bpc) =
      some (target.cur.set (i * 4 + lane) symbol.curVal) := by
    rw [value]
    refine (setByte_ok inRow _).trans ?_
    rw [UInt8.ofNat_toNat]
  have turn := decodeLane_ends (mirrored.chans ▸ symbol.chanAt) symbol.contextAt symbol.bucketAt
    decoded symbol.inRow predictedAt symbol.unsigned written
  refine ⟨_, turn.1 _ (BitReader.eat_ok room), ?_⟩
  have elsewhere : ∀ position, position ≠ i * 4 + lane →
      (target.cur.set (i * 4 + lane) symbol.curVal)[position]? = target.cur[position]? :=
    fun position differs => List.getElem?_set_ne (Ne.symm differs)
  refine {
    ready := (symbol.next_ready ready).toEncoderIdle
    state := mirrored.state
    chans := ?_
    follows := ?_
    above := mirrored.above
    fullSource := mirrored.fullSource
    fullTarget := mirrored.fullTarget.set _ _
    done := ?_
    lanes := ?_
    padded := ?_ }
  · change source.chans.set channel _ = target.chans.set channel _
    rw [mirrored.chans, UInt8.ofNat_toNat]
  · refine ⟨mirrored.follows.bytes, mirrored.follows.body, ?_⟩
    rw [bits, List.length_append, BitString.length_ofNat, ← mirrored.follows.position]
    rfl
  · constructor
    · intro other before other' inPixel
      exact (elsewhere _ (by omega)).trans (mirrored.done.pixels other before other' inPixel)
    · intro other before
      exact (elsewhere _ (by omega)).trans (mirrored.done.pad other before)
  · intro other member
    by_cases here : other.2 = lane
    · rw [here]
      exact (List.getElem?_set_self inRow).trans symbol.valueAt.symm
    · refine (elsewhere _ (by omega)).trans ?_
      rcases List.mem_cons.mp member with same | old
      · exact absurd (congrArg Prod.snd same) here
      · exact mirrored.lanes other old
  · exact (elsewhere _ (by omega)).trans mirrored.padded

/-- What is not in the stream stays not in the stream, however much is written. -/
theorem mirror_stable (stream : List UInt8) {pass : Pass BitWriter (List UInt8)} (writer : BitWriter)
    (_state : CommonState) (_chans : List ChannelDecoder) (more : Extends pass.coder writer)
    (lost : (mirrorParting stream).lostLeft pass.coder) :
    (mirrorParting stream).lostLeft writer := by
  obtain ⟨sound', code, bits⟩ := more lost.1
  refine ⟨sound', fun carries => lost.2 ?_⟩
  rw [bits] at carries
  exact carries.initial

/-- Either the decoder reads the codeword just written, or the stream lacks it. -/
theorem mirror_lanes {i : Nat} (inside : i < width) {lanes done : List (Nat × Nat)}
    (three : ThreeLanes lanes) :
    Coupled (onCoder (mirrorParting stream)) (MirroredPixel stream width clock i done)
      (encodeLanes i lanes) (decodeLanes bgra (Family.init 8) i lanes)
      fun _ => MirroredPixel stream width clock i (lanes.reverse ++ done) := by
  induction lanes generalizing done with
  | nil => exact Coupled.pure () fun _source _target start => start
  | cons lane rest ih =>
      have here := three lane List.mem_cons_self
      have one : Coupled (onCoder (mirrorParting stream)) (MirroredPixel stream width clock i done)
          (encodeLane i lane) (decodeLane bgra (Family.init 8) i lane)
          fun _ => MirroredPixel stream width clock i (lane :: done) := by
        intro source target mirrored
        obtain ⟨symbol, ran⟩ := encodeLane_eq mirrored.encoder inside here.1 here.2
        by_cases carries : Carries stream symbol.next.coder.bits
        · obtain ⟨target', decoded, next⟩ := mirrored.lane inside here.2 symbol carries
          rw [ran, decoded]
          exact Or.inl ⟨rfl, next⟩
        · rw [ran]
          exact Parting.ends_of_lost (Or.inl ⟨(symbol.next_ready mirrored.encoder).writer, carries⟩)
      rw [List.reverse_cons, List.append_assoc]
      apply one.bind
      · exact fun _ => encodeLanes_keeps
          (fun {pass} writer chans => mirror_stable stream writer pass.state chans) i rest
      · exact fun _ _pass never => never.elim
      · exact fun _ => ih fun other member => three other (List.mem_cons_of_mem lane member)

theorem mirror_clear {i : Nat} (inside : i < width)
    (mirrored : Mirrored stream width clock i source target) :
    ∃ target', clearPixel bgra i target = .ok () target' ∧
      MirroredPixel stream width clock i [] source target' := by
  have inRow := mirrored.fullTarget.byte inside (show 3 < 4 by decide)
  have elsewhere : ∀ position, position ≠ i * 4 + 3 →
      (target.cur.set (i * 4 + 3) (UInt8.ofNat 0))[position]? = target.cur[position]? :=
    fun position differs => List.getElem?_set_ne (Ne.symm differs)
  refine ⟨{ target with cur := target.cur.set (i * 4 + 3) (UInt8.ofNat 0) }, ?_, ?_⟩
  · apply Program.run_step_ok
    have cleared : bgra.clear target.cur i = some (target.cur.set (i * 4 + 3) (UInt8.ofNat 0)) :=
      setByte_ok inRow 0
    rw [cleared, Program.bind_ok (Program.access_some _)]
  · refine {
      ready := mirrored.ready
      state := mirrored.state
      chans := mirrored.chans
      follows := mirrored.follows
      above := mirrored.above
      fullSource := mirrored.fullSource
      fullTarget := mirrored.fullTarget.set _ _
      done := ⟨?_, ?_⟩
      lanes := fun _lane none => absurd none List.not_mem_nil
      padded := List.getElem?_set_self inRow }
    · intro other before lane inPixel
      rw [elsewhere _ (by omega)]
      exact mirrored.done.pixels other before lane inPixel
    · intro other before
      exact (elsewhere _ (by omega)).trans (mirrored.done.pad other before)

theorem MirroredPixel.finish {i : Nat}
    (mirrored : MirroredPixel stream width clock i (rgbLanes.reverse ++ []) source target) :
    Mirrored stream width clock (i + 1) source target :=
  { mirrored.toMirrored with
    done := by
      constructor
      · intro other before lane inPixel
        by_cases earlier : other < i
        · exact mirrored.done.pixels other earlier lane inPixel
        · have here : other = i := by omega
          subst here
          have listed : ∃ channel, (channel, lane) ∈ rgbLanes.reverse ++ [] := by
            interval_cases lane
            · exact ⟨2, by decide⟩
            · exact ⟨1, by decide⟩
            · exact ⟨0, by decide⟩
          obtain ⟨channel, member⟩ := listed
          exact mirrored.lanes (channel, lane) member
      · intro other before
        by_cases earlier : other < i
        · exact mirrored.done.pad other earlier
        · have here : other = i := by omega
          subst here
          exact mirrored.padded }

theorem mirror_pixel {i : Nat} (inside : i < width) :
    Coupled (onCoder (mirrorParting stream)) (Mirrored stream width clock i) (encodeLanes i rgbLanes)
      (decodePixel bgra (Family.init 8) rgbLanes i) fun _ => Mirrored stream width clock (i + 1) := by
  apply Coupled.ahead () fun _source _target mirrored => mirror_clear inside mirrored
  exact (mirror_lanes inside rgbLanes_three).strengthen fun _ _source _target done => done.finish

theorem Mirrored.note (mirrored : Mirrored stream width clock k source target) (event : Event) :
    Mirrored stream width clock k source (target.note event) :=
  { ready := mirrored.ready, state := mirrored.state, chans := mirrored.chans
    follows := ⟨mirrored.follows.bytes, mirrored.follows.body, mirrored.follows.position⟩
    above := mirrored.above, fullSource := mirrored.fullSource, fullTarget := mirrored.fullTarget
    done := mirrored.done }

theorem mirror_decodeOnePixel {i : Nat} (positive : 0 < i) (inside : i < width) :
    Coupled (onCoder (mirrorParting stream)) (Mirrored stream width clock i) (encodeOnePixel i)
      (decodeOnePixel i) fun _ => Mirrored stream width clock (i + 1) := by
  apply Coupled.ahead () fun source target mirrored =>
    ⟨target.note (.pixel target.above.length i), rfl, mirrored.note _⟩
  rw [if_neg (Nat.ne_of_gt positive)]
  exact mirror_pixel inside

theorem Mirrored.run {j stop size : Nat} {writer : BitWriter} {state : CommonState} {code : List Bool}
    (mirrored : Mirrored stream width clock j source target) (positive : 0 < j)
    (bounded : j + size ≤ stop) (fits : stop ≤ width) (capped : width < 2 ^ 32)
    (sound : writer.Sound) (bits : writer.bits = source.coder.bits ++ code)
    (atClock : state.clock = clock)
    (repeats : ∀ offset, offset < size → SamePixel source.cur (j + offset) source.cur (j - 1))
    (decodes : ∀ reader : BitReader, size < 2 ^ 32 → Shows reader.bit reader.bitPos code →
      reader.bitPos + code.length ≤ reader.limit →
      decodeStateRun reader source.state = .ok (size, reader.skip code.length, state))
    (carries : Carries stream writer.bits) :
    ∃ target', decodeRun j stop target = .ok (j + size) target' ∧
      Mirrored stream width clock (j + size) { source with coder := writer, state := state } target' := by
  rw [bits] at carries
  obtain ⟨shown, room⟩ := mirrored.follows.next carries
  have read := decodes _ (by omega) shown room
  rw [mirrored.state] at read
  obtain ⟨cur, copied, full, kept, copies⟩ :=
    doRunCopyRgb32_ok mirrored.fullTarget positive (show j + size ≤ width by omega)
  have reached : runEnd j size stop = .ok (j + size) := by
    unfold runEnd
    rw [if_neg (by omega), if_neg (by omega)]
  rw [← Nat.add_sub_cancel_left (n := j) (m := size)] at copied
  refine ⟨_, decodeRun_eq read reached copied, ?_⟩
  refine {
    ready :=
      { clock := atClock, three := mirrored.ready.three, sound := mirrored.ready.sound
        writer := sound, above := mirrored.ready.above }
    state := rfl
    chans := mirrored.chans
    follows := ⟨mirrored.follows.bytes, mirrored.follows.body, ?_⟩
    above := mirrored.above
    fullSource := mirrored.fullSource
    fullTarget := full
    done := ⟨?_, ?_⟩ }
  · rw [bits, List.length_append, ← mirrored.follows.position]
    rfl
  · intro i before lane inPixel
    by_cases earlier : i < j
    · exact (kept _ (by omega)).trans (mirrored.done.pixels i earlier lane inPixel)
    · -- inside the run both sides hold the pixel before it
      obtain ⟨offset, place⟩ : ∃ offset, i = j + offset := ⟨i - j, by omega⟩
      subst place
      have copy := (copies offset (by omega)).1 lane inPixel
      have before := mirrored.done.pixels (j - 1) (by omega) lane inPixel
      have repeated := repeats offset (by omega) lane inPixel
      exact copy.trans (before.trans repeated.symm)
  · intro i before
    by_cases earlier : i < j
    · exact (kept _ (by omega)).trans (mirrored.done.pad i earlier)
    · obtain ⟨offset, place⟩ : ∃ offset, i = j + offset := ⟨i - j, by omega⟩
      subst place
      exact (copies offset (by omega)).2

theorem mirror_run {j stop : Nat} (positive : 0 < j) (inside : j < stop) (fits : stop ≤ width)
    (capped : width < 2 ^ 32) :
    Coupled (onCoder (mirrorParting stream)) (Mirrored stream width clock j) (encodeRun j stop)
      (decodeRun j stop) fun runEnd source target =>
        (j ≤ runEnd ∧ runEnd ≤ stop) ∧ Mirrored stream width clock runEnd source target := by
  intro source target mirrored
  obtain ⟨size, writer, state, code, ran, bounded, sound, bits, atClock, repeats, decodes⟩ :=
    encodeRun_eq mirrored.encoder positive inside fits
  by_cases carries : Carries stream writer.bits
  · obtain ⟨target', decoded, next⟩ := mirrored.run positive bounded fits capped sound bits atClock
      repeats decodes carries
    rw [ran, decoded]
    exact Or.inl ⟨rfl, ⟨Nat.le_add_right _ _, bounded⟩, next⟩
  · rw [ran]
    exact Parting.ends_of_lost (Or.inl ⟨sound, carries⟩)

theorem mirror_models {idx : Nat} (inside : idx < width) :
    Coupled (onCoder (mirrorParting stream)) (Mirrored stream width clock (idx + 1))
      (updateModelsAt (Family.init 8) idx) (updateModelsAt (Family.init 8) idx)
      fun _ => Mirrored stream width clock (idx + 1) := by
  intro source target mirrored
  obtain ⟨chans, updated, lengths, sound⟩ :=
    updateAll_ok (Or.inl rfl) source.state mirrored.ready.sound inside
  have updated' := updated
  rw [mirrored.chans, mirrored.state] at updated'
  refine Parting.ends_ok (Program.bind_ok updated) (Program.bind_ok updated') ?_
  exact { mirrored with
    ready := { mirrored.ready with three := lengths.trans mirrored.ready.three, sound := sound }
    chans := rfl }

theorem mirror_closed (some : 0 < width) :
    Coupled (onCoder (mirrorParting stream)) (Mirrored stream width clock width) closeRow closeRow
      fun _ => MirroredIdle stream width clock := by
  intro source target mirrored
  obtain ⟨chans, latched, lengths, sound⟩ := latchAll_ok some mirrored.ready.sound
  have latched' := latched
  rw [mirrored.chans] at latched'
  refine Parting.ends_ok (Program.bind_ok latched) (Program.bind_ok latched') ?_
  refine {
    ready := { mirrored.ready with
      three := lengths.trans mirrored.ready.three, sound := sound, above := ?_ }
    state := mirrored.state
    chans := rfl
    follows := mirrored.follows
    above := List.Forall₂.cons ⟨mirrored.fullSource, mirrored.fullTarget, mirrored.done⟩
      mirrored.above }
  intro row member
  rcases List.mem_cons.mp member with first | later
  · exact first ▸ mirrored.fullSource
  · exact mirrored.ready.above row later

theorem Mirrored.escapes {j : Nat} (mirrored : Mirrored stream width clock j source target)
    (runIndex : Int) (inside : j < width) :
    ∃ answer, encodeRleMatch source.prev source.cur j runIndex = .ok answer ∧
      rleMatch target.prev target.cur j runIndex = .ok answer ∧ (answer = true → runIndex ≠ j) := by
  obtain ⟨answer, answered, met⟩ :=
    rleMatch_ok mirrored.fullSource mirrored.encoder.prev inside runIndex
  obtain ⟨answer', answered', met'⟩ :=
    rleMatch_ok mirrored.fullTarget mirrored.prev_full inside runIndex
  have agree : answer = answer' := by
    apply Bool.eq_iff_iff.mpr
    rw [met, met']
    rcases mirrored.prev_cases with ⟨none, none'⟩ | ⟨above, above', some, some', pair⟩
    · rw [none, none']
      simp only [reduceCtorEq, false_and, exists_false]
    · rw [some, some']
      simp only [Option.some.injEq, exists_eq_left']
      apply and_congr_right
      intro late
      rw [pair.done.samePixel (show j - 1 < width by omega) inside,
        mirrored.done.samePixel (show j - 1 < j by omega) (show j - 2 < j by omega)]
  subst agree
  refine ⟨answer, answered, answered', fun yes => ?_⟩
  obtain ⟨_above, _first, _late, fresh, _rest⟩ := met.mp yes
  exact fresh

/-- The encoder and the decoder walk a picture together. -/
theorem mirror_paired (stream : List UInt8) (some : 0 < width) (capped : width < 2 ^ 32) :
    Paired (mirrorParting stream) rgb32Encoder rgb32Decoder width (Mirrored stream width)
      (MirroredIdle stream width) fun row row' => FullRow width row ∧ FullRow width row' where
  steadyLeft := encoder_steady (mirror_stable stream)
  steadyRight := steady_never rgb32Decoder
  common := fun mirrored => ⟨mirrored.state, mirrored.ready.clock⟩
  retime := fun _state mirrored _melc =>
    { mirrored with ready := { mirrored.ready with clock := rfl }, state := rfl
                    follows := mirrored.follows }
  escapes := fun runIndex _positive inside mirrored => mirrored.escapes runIndex inside
  first := fun _clock some => mirror_pixel some
  pixel := fun _clock _j positive inside => mirror_decodeOnePixel positive inside
  run := fun _clock _j _stop positive inside fits => mirror_run positive inside fits capped
  models := fun _clock _idx inside => mirror_models inside
  opened := fun idle full =>
    { idle with
      ready := { idle.ready with }
      fullSource := full.1
      fullTarget := full.2
      done := ⟨fun i none => absurd none (Nat.not_lt_zero i),
        fun i none => absurd none (Nat.not_lt_zero i)⟩ }
  closed := fun _clock => mirror_closed some

/-! ### The whole picture -/

theorem wordBits_length : ∀ body : List UInt8, (wordBits body).length = 32 * (body.length / 4)
  | [] => rfl
  | [_] => by simp [wordBits]
  | [_, _] => by simp [wordBits]
  | [_, _, _] => by simp [wordBits]
  | b0 :: b1 :: b2 :: b3 :: rest => by
      simp only [wordBits, List.length_append, BitString.length_ofNat, wordBits_length rest,
        List.length_cons]
      omega

theorem carries_finish (suffix : List UInt8) {writer : BitWriter} (sound : writer.Sound)
    {header : List UInt8} (headerSize : header.length = QUIC_HEADER_SIZE) :
    Carries (header ++ writer.finish ++ suffix) writer.bits := by
  obtain ⟨aligned, initial⟩ := BitWriter.bits_prefix_finish sound
  constructor
  · have shown := @BitReader.shows_wordBits
      (bodyReader (header ++ writer.finish ++ suffix)) header writer.finish suffix 0 rfl headerSize
    exact shown.initial initial
  · have length := initial.length_le
    rw [wordBits_length] at length
    simp only [List.length_append]
    omega

/-- The decoded buffer: the colours of the picture, and zero in every fourth byte. -/
structure SamePicture (pixels out : List UInt8) : Prop where
  length : out.length = pixels.length
  colour : ∀ pixel lane, lane < 3 → out[pixel * 4 + lane]? = pixels[pixel * 4 + lane]?
  pad : ∀ pixel, pixel * 4 + 3 < out.length → out[pixel * 4 + 3]? = some 0

theorem SamePicture.cons {row row' rest rest' : List UInt8} (pair : RowPair width row row')
    (same : SamePicture rest rest') : SamePicture (row ++ rest) (row' ++ rest') := by
  have fullRow := pair.source
  have fullRow' := pair.target
  unfold FullRow at fullRow fullRow'
  constructor
  · rw [List.length_append, List.length_append, same.length, fullRow, fullRow']
  · intro pixel lane inPixel
    by_cases first : pixel < width
    · rw [List.getElem?_append_left (by omega), List.getElem?_append_left (by omega)]
      exact pair.done.pixels pixel first lane inPixel
    · obtain ⟨later, place⟩ : ∃ later, pixel = width + later := ⟨pixel - width, by omega⟩
      rw [List.getElem?_append_right (by omega), List.getElem?_append_right (by omega), fullRow,
        fullRow', show pixel * 4 + lane - width * 4 = later * 4 + lane by omega]
      exact same.colour later lane inPixel
  · intro pixel inside
    by_cases first : pixel < width
    · rw [List.getElem?_append_left (by omega)]
      exact pair.done.pad pixel first
    · obtain ⟨later, place⟩ : ∃ later, pixel = width + later := ⟨pixel - width, by omega⟩
      rw [List.length_append] at inside
      rw [List.getElem?_append_right (by omega), fullRow',
        show pixel * 4 + 3 - width * 4 = later * 4 + 3 by omega]
      exact same.pad later (by omega)

theorem samePicture_flatten {rows rows' : List (List UInt8)}
    (pairs : List.Forall₂ (RowPair width) rows rows') : SamePicture rows.flatten rows'.flatten := by
  induction pairs with
  | nil =>
      exact ⟨rfl, fun _pixel _lane _inPixel => rfl, fun pixel inside => absurd inside (Nat.not_lt_zero _)⟩
  | cons pair _pairs ih =>
      rw [List.flatten_cons, List.flatten_cons]
      exact ih.cons pair

theorem rowsOf_full {height : Nat} {pixels : List UInt8}
    (length : pixels.length = height * (width * 4)) :
    ∀ row ∈ rowsOf (width * 4) height pixels, FullRow width row := by
  intro row member
  obtain ⟨index, listed, rfl⟩ := List.mem_map.mp member
  have inside := List.mem_range.mp listed
  have last : (index + 1) * (width * 4) ≤ height * (width * 4) := Nat.mul_le_mul_right _ inside
  unfold FullRow Bytes.slice
  rw [List.length_take, List.length_drop]
  rw [Nat.add_mul, Nat.one_mul] at last ⊢
  omega

theorem rowsOf_flatten {stride height : Nat} {pixels : List UInt8}
    (length : pixels.length = height * stride) : (rowsOf stride height pixels).flatten = pixels := by
  induction height generalizing pixels with
  | zero =>
      rw [Nat.zero_mul] at length
      rw [List.eq_nil_of_length_eq_zero length]
      rfl
  | succ height ih =>
      have first : (pixels.drop stride).length = height * stride := by
        rw [List.length_drop, length, Nat.add_mul, Nat.one_mul, Nat.add_sub_cancel]
      have rest := ih first
      have shifted : rowsOf stride (height + 1) pixels =
          pixels.take stride :: rowsOf stride height (pixels.drop stride) := by
        unfold rowsOf
        rw [List.range_succ_eq_map, List.map_cons, List.map_map]
        congr 1
        · simp only [Bytes.slice, Nat.zero_mul, Nat.zero_add, Nat.one_mul, Nat.sub_zero,
            List.drop_zero]
        · apply List.map_congr_left
          intro row _listed
          simp only [Function.comp, Bytes.slice, List.drop_drop, Nat.succ_eq_add_one]
          congr 1
          · simp only [Nat.add_mul, Nat.one_mul]
            omega
          · congr 1
            rw [Nat.add_mul, Nat.one_mul, Nat.add_comm]
      rw [shifted, List.flatten_cons, rest, List.take_append_drop]

theorem encoderStart_idle (width : Nat) :
    EncoderIdle width CommonState.default.clock (encoderStart width) where
  clock := rfl
  three := rfl
  sound := newChannels_sound 8 3 width (Or.inl rfl)
  writer := BitWriter.new_sound
  above := fun _row none => absurd none List.not_mem_nil

theorem mirrored_start (stream : List UInt8) (width : Nat) :
    MirroredIdle stream width CommonState.default.clock (encoderStart width)
      (startPass UInt8 (bodyReader stream) 8 3 width) where
  ready := encoderStart_idle width
  state := rfl
  chans := rfl
  follows := ⟨rfl, rfl, rfl⟩
  above := List.Forall₂.nil

theorem encoder_returns (some : 0 < width) {rows : List (List UInt8)}
    (full : ∀ row ∈ rows, FullRow width row) :
    ∃ pass, phase rgb32Encoder width rows (encoderStart width) = .ok () pass ∧
      pass.coder.Sound ∧ pass.above = rows.reverse := by
  have guarded := (encoder_guarded width some).phase full CommonState.default.clock
    (encoderStart width) (encoderStart_idle width)
  have frame := phase_above (fun cur above =>
    encoder_steady fun _writer _state _chans _more kept => kept) width rows []
    (encoderStart width) rfl
  cases ran : phase rgb32Encoder width rows (encoderStart width) with
  | ok value pass =>
      rw [ran] at guarded frame
      obtain ⟨_clock, idle⟩ := guarded
      exact ⟨pass, rfl, idle.writer, frame.trans (List.append_nil _)⟩
  | error fault pass =>
      rw [ran] at guarded
      exact guarded.elim

/-- The decoder reads back what the encoder wrote, whatever follows it. -/
theorem decoder_returns (some : 0 < width) (capped : width < 2 ^ 32) {rows : List (List UInt8)}
    (full : ∀ row ∈ rows, FullRow width row) {pass : Pass BitWriter (List UInt8)}
    (encoded : phase rgb32Encoder width rows (encoderStart width) = .ok () pass)
    (carries : Carries stream pass.coder.bits) :
    ∃ pass', decompressRgbPhase width (blankRows 0 (4 * width) rows.length)
        (startPass UInt8 (bodyReader stream) 8 3 width) = .ok () pass' ∧
      List.Forall₂ (RowPair width) pass.above pass'.above := by
  have blanks : List.Forall₂ (fun row row' => FullRow width row ∧ FullRow width row') rows
      (blankRows 0 (4 * width) rows.length) := by
    clear encoded
    unfold blankRows
    induction rows with
    | nil => exact List.Forall₂.nil
    | cons row rest ih =>
        refine List.Forall₂.cons ⟨full row List.mem_cons_self, ?_⟩
          (ih fun other member => full other (List.mem_cons_of_mem row member))
        unfold FullRow
        rw [List.length_replicate, Nat.mul_comm]
  have walked := (mirror_paired stream some capped).phase blanks CommonState.default.clock
    (encoderStart width) (startPass UInt8 (bodyReader stream) 8 3 width) (mirrored_start stream width)
  rw [encoded] at walked
  unfold decompressRgbPhase
  cases ran : phase rgb32Decoder width (blankRows 0 (4 * width) rows.length)
      (startPass UInt8 (bodyReader stream) 8 3 width) with
  | ok value pass' =>
      rw [ran] at walked
      rcases walked with ⟨_same, _clock, idle⟩ | lost | never
      · exact ⟨pass', rfl, idle.above⟩
      · exact absurd carries lost.2
      · exact never.elim
  | error fault pass' =>
      rw [ran] at walked
      rcases walked with lost | never
      · exact absurd carries lost.2
      · exact never.elim

/-- RGB32 is lossless on the colours. -/
theorem rgb32_round_trip (width height : Nat) (widthPositive : 1 ≤ width)
    (heightPositive : 1 ≤ height) (widthCap : width ≤ 16384) (heightCap : height ≤ 16384)
    (bytesCap : 4 * width * height ≤ 64 * 1024 * 1024) (pixels suffix : List UInt8)
    (length : pixels.length = 4 * width * height) :
    ∃ stream out, compressRgb32 pixels width height = .ok stream ∧
      decompressRgb32 (stream ++ suffix) width height = .ok out ∧
      out.length = 4 * width * height ∧
      (∀ pixel lane, lane < 3 → out[pixel * 4 + lane]? = pixels[pixel * 4 + lane]?) ∧
      ∀ pixel, pixel < width * height → out[pixel * 4 + 3]? = some 0 := by
  have area : 4 * width * height = height * (width * 4) := by ring
  have bytes : width * height * 4 = 4 * width * height := by ring
  have full := rowsOf_full (length.trans area)
  obtain ⟨pass, encoded, sound, above⟩ := encoder_returns widthPositive full
  have rowCount : (rowsOf (width * 4) height pixels).length = height := by
    simp only [rowsOf, List.length_map, List.length_range]
  have header := QuicHeader.length_encode { imageType := .rgb32, width := width, height := height }
  have carries := carries_finish suffix sound header
  obtain ⟨pass', decoded, pairs⟩ := decoder_returns widthPositive (by omega) full encoded carries
  rw [rowCount] at decoded
  have same := samePicture_flatten (List.rel_reverse pairs)
  rw [above, List.reverse_reverse, rowsOf_flatten (length.trans area)] at same
  refine ⟨QuicHeader.encode { imageType := .rgb32, width := width, height := height } ++
    pass.coder.finish, pass'.above.reverse.flatten, ?_, ?_, same.length.trans length, same.colour, ?_⟩
  · unfold compressRgb32
    rw [if_neg (by omega), if_neg (by omega), if_neg (by omega), encoded]
  · have accepted := validateDims_of_caps widthPositive heightPositive widthCap heightCap
      (show width * height * 4 ≤ MAX_IMAGE_BYTES by unfold MAX_IMAGE_BYTES; omega)
    have opened : BitReader.newAfterHeader
        (QuicHeader.encode { imageType := .rgb32, width := width, height := height } ++
          pass.coder.finish ++ suffix) = .ok (bodyReader
        (QuicHeader.encode { imageType := .rgb32, width := width, height := height } ++
          pass.coder.finish ++ suffix)) := by
      unfold BitReader.newAfterHeader
      rw [if_neg (by simp only [List.length_append]; omega)]
      rfl
    unfold decompressRgb32 traceRgb32 decodeWith
    rw [accepted, opened]
    dsimp only
    rw [decoded]
  · intro pixel inside
    apply same.pad
    rw [same.length, length]
    have rows : 4 * width * height = 4 * (width * height) := by ring
    omega

theorem rgb32_round_trip_two_pixels :
    ∃ stream out, compressRgb32 [1, 2, 3, 4, 5, 6, 7, 8] 2 1 = .ok stream ∧
      decompressRgb32 (stream ++ [0xFF]) 2 1 = .ok out ∧ out.length = 4 * 2 * 1 ∧
      (∀ pixel lane, lane < 3 →
        out[pixel * 4 + lane]? = ([1, 2, 3, 4, 5, 6, 7, 8] : List UInt8)[pixel * 4 + lane]?) ∧
      ∀ pixel, pixel < 2 * 1 → out[pixel * 4 + 3]? = some 0 :=
  rgb32_round_trip 2 1 (by decide) (by decide) (by decide) (by decide) (by decide)
    [1, 2, 3, 4, 5, 6, 7, 8] [0xFF] rfl

end Capsaicin.Quic
