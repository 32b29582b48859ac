/-
What a log says about the stream: the symbols and the run codes that a decoder
met, each judged at the state it was met in.
-/

import Capsaicin.Quic.Decoder

namespace Capsaicin.Quic

open Program (Keeps Triple index lastState step view)

def readerAt (stream : List UInt8) (bitPos : Nat) : BitReader :=
  { bytes := stream, bodyStart := QUIC_HEADER_SIZE, bitPos := bitPos }

/-- What `golomb_decode` returns for the symbol is in the alphabet of the family. -/
def Event.InAlphabet : Event → Prop
  | .symbol bpc l window =>
      ∀ value cwlen, (Family.init bpc).golombDecode l window = .ok (value, cwlen) → value < 2 ^ bpc
  | .pixel _ _ => True
  | .run _ _ _ _ _ => True

/-- The stream has an escape there whose suffix passes the alphabet. -/
def Event.Escapes : Event → Prop
  | .symbol bpc l window => Overruns bpc l window
  | .pixel _ _ => False
  | .run _ _ _ _ _ => False

def Event.Known : Event → Prop
  | .symbol bpc l window => KnownCode bpc l ∧ window < 2 ^ 32
  | .pixel _ _ => True
  | .run _ _ _ _ _ => True

/-- The run, if the stream has one there, ends below `2 ^ 32`. -/
def Event.Addressable (stream : List UInt8) : Event → Prop
  | .run _row start _stop bitPos state =>
      ∀ decoded, decodeStateRun (readerAt stream bitPos) state = .ok decoded →
        start + decoded.1 < 2 ^ 32
  | .symbol _ _ _ => True
  | .pixel _ _ => True

theorem Event.inAlphabet_iff {event : Event} (known : event.Known) :
    event.InAlphabet ↔ ¬event.Escapes := by
  cases event with
  | symbol bpc l window =>
      obtain ⟨value, cwlen, decoded, _positive, _short, inAlphabet⟩ :=
        Family.golombDecode_total known.1 known.2
      change _ ↔ ¬Overruns bpc l window
      rw [← inAlphabet]
      constructor
      · exact fun holds => holds value cwlen decoded
      · intro small value' cwlen' again
        rw [decoded] at again
        cases again
        exact small
  | pixel row i =>
      constructor
      · exact fun _ never => never
      · exact fun _ => True.intro
  | run row start stop bitPos state =>
      constructor
      · exact fun _ never => never
      · exact fun _ => True.intro

/-- Ok or Err. -/
def Decoded.Answers (decoded : Decoded) : Prop :=
  (∃ pixels, decoded.outcome = .ok pixels) ∨ ∃ reason, decoded.outcome = .error (.error reason)

theorem decodeWith_spec {ρ : Type} (holds : Decoded → Prop) {bpc channels : Nat}
    {body : Decoding (List ρ) Unit} {expand : List (List ρ) → List UInt8} {stream : List UInt8}
    {width height : Nat}
    (rejected : ∀ reason, holds { outcome := .error (.error reason), log := [] })
    (ran : 0 < width → width < 2 ^ 32 →
      match body (startPass ρ (readerAt stream 0) bpc channels width) with
      | .ok _ pass => holds { outcome := .ok (expand pass.above.reverse), log := pass.coder.log }
      | .error fault pass => holds { outcome := .error fault, log := pass.coder.log }) :
    holds (decodeWith bpc channels body expand stream width height) := by
  unfold decodeWith
  cases dims : validateDims width height 4 with
  | error reason => exact rejected reason
  | ok size =>
      have caps := checkDims_ok dims
      dsimp only
      unfold BitReader.newAfterHeader
      by_cases short : stream.length < QUIC_HEADER_SIZE
      · rw [if_pos short]
        exact rejected _
      · rw [if_neg short]
        have narrow : width < 2 ^ 32 := Nat.lt_of_le_of_lt caps.2.2.2.1 (by decide)
        have ends := ran caps.2.1 narrow
        change holds (match body (startPass ρ (readerAt stream 0) bpc channels width) with
          | .ok _ pass => { outcome := .ok (expand pass.above.reverse), log := pass.coder.log }
          | .error fault pass => { outcome := .error fault, log := pass.coder.log })
        cases stopped : body (startPass ρ (readerAt stream 0) bpc channels width) with
        | ok value pass =>
            rw [stopped] at ends
            exact ends
        | error fault pass =>
            rw [stopped] at ends
            exact ends

theorem decodeWith_log {ρ : Type} {bpc channels : Nat} {body : Decoding (List ρ) Unit}
    {expand : List (List ρ) → List UInt8} {stream : List UInt8} {width height size : Nat}
    (accepted : validateDims width height 4 = .ok size) (full : QUIC_HEADER_SIZE ≤ stream.length) :
    (decodeWith bpc channels body expand stream width height).log =
      (lastState (body (startPass ρ (readerAt stream 0) bpc channels width))).coder.log := by
  have opened : BitReader.newAfterHeader stream = .ok (readerAt stream 0) :=
    if_neg (Nat.not_lt.mpr full)
  unfold decodeWith
  rw [accepted]
  dsimp only
  rw [opened]
  dsimp only
  cases body (startPass ρ (readerAt stream 0) bpc channels width) with
  | ok value pass => rfl
  | error fault pass => rfl

def overlay (width : Nat) : Decoding (List UInt8) Unit := do
  let rows ← view fun pass => .ok pass.above.reverse
  step fun pass => .ok ((), pass.restart 8 1 width)
  decompressAlphaPhase width rows

theorem traceRgba_eq (stream : List UInt8) (width height : Nat) :
    traceRgba stream width height =
      decodeWith 8 3 (decompressRgbPhase width (blankRows 0 (4 * width) height) >>= fun _ =>
        overlay width) List.flatten stream width height := rfl

theorem decodeStateRun_total (reader : BitReader) (state : CommonState) :
    (∃ runLen reader' state', decodeStateRun reader state = .ok (runLen, reader', state') ∧
      reader'.bytes = reader.bytes ∧ reader'.bodyStart = reader.bodyStart ∧
      state'.clock = state.clock) ∨
    ∃ reason, decodeStateRun reader state = .error (.error reason) := by
  obtain ⟨ones, shown, within⟩ := reader.exists_showsOnes
  rcases decodeStateRun_eq state shown within with ⟨_room, read⟩ | ⟨_past, reason, stopped⟩
  · exact Or.inl ⟨_, _, _, read, rfl, rfl, state.risen_fall_clock ones⟩
  · exact Or.inr ⟨reason, stopped⟩

/-- How the turn of a run at `j` can end. -/
inductive RunTurn (stream : List UInt8) (j stop : Nat) (pass : Pass Tracer (List UInt8)) :
    EStateM.Result QuicFault (Pass Tracer (List UInt8)) Nat → Prop
  | copied {reached bitPos : Nat} {state : CommonState} {cur : List UInt8}
      (addressable : (runEvent pass j stop).Addressable stream) (forward : j ≤ reached)
      (inside : reached ≤ stop) (sameClock : state.clock = pass.state.clock)
      (full : cur.length = pass.cur.length) :
      RunTurn stream j stop pass
        (.ok reached
          { pass with
            coder :=
              { reader := readerAt stream bitPos, log := runEvent pass j stop :: pass.coder.log }
            state := state
            cur := cur })
  | refused {reason : QuicError} (addressable : (runEvent pass j stop).Addressable stream) :
      RunTurn stream j stop pass (.error (.error reason) (pass.note (runEvent pass j stop)))
  | overflowed (tooFar : ¬(runEvent pass j stop).Addressable stream) :
      RunTurn stream j stop pass (.error (.panic .overflow) (pass.note (runEvent pass j stop)))

theorem decodeRun_turn {stream : List UInt8} {width j stop : Nat} {pass : Pass Tracer (List UInt8)}
    (at_ : pass.coder.reader = readerAt stream pass.coder.reader.bitPos)
    (full : FullRow width pass.cur) (positive : 0 < j) (fits : stop ≤ width) :
    RunTurn stream j stop pass (decodeRun j stop pass) := by
  rcases decodeStateRun_total pass.coder.reader pass.state with
    ⟨runLen, reader, state, read, sameBytes, sameStart, sameClock⟩ | ⟨reason, stopped⟩
  · have decoded : ∀ result,
        decodeStateRun (readerAt stream pass.coder.reader.bitPos) pass.state = .ok result →
          result.1 = runLen := by
      intro result again
      rw [← at_, read] at again
      cases again
      rfl
    by_cases wraps : 2 ^ 32 ≤ j + runLen
    · rw [decodeRun_unended read (if_pos wraps)]
      apply RunTurn.overflowed
      intro addressable
      exact absurd (addressable (runLen, reader, state) (at_ ▸ read)) (Nat.not_lt.mpr wraps)
    · have addressable : (runEvent pass j stop).Addressable stream := by
        intro result again
        rw [decoded result again]
        exact Nat.not_le.mp wraps
      by_cases past : j + runLen > stop
      · have ended : runEnd j runLen stop = .error (.error (.short (j + runLen - stop) 0)) := by
          unfold runEnd
          rw [if_neg wraps, if_pos past]
        rw [decodeRun_unended read ended]
        exact RunTurn.refused addressable
      · have ended : runEnd j runLen stop = .ok (j + runLen) := by
          unfold runEnd
          rw [if_neg wraps, if_neg past]
        obtain ⟨cur, copied, fullAfter, _kept, _copies⟩ :=
          doRunCopyRgb32_ok full positive (show j + (j + runLen - j) ≤ width by omega)
        have readerEq : reader = readerAt stream reader.bitPos := by
          rw [at_] at sameBytes sameStart
          cases reader
          cases sameBytes
          cases sameStart
          rfl
        rw [decodeRun_eq read ended copied, readerEq]
        exact RunTurn.copied addressable (Nat.le_add_right j runLen) (Nat.not_lt.mp past)
          sameClock (fullAfter.trans full.symm)
  · rw [decodeRun_unread stopped]
    apply RunTurn.refused
    intro result again
    rw [← at_, stopped] at again
    cases again

/-! ### What the symbols of a pixel leave alone -/

/-- A property of the pass that no symbol undoes: it survives a symbol being looked
at, taken off the stream, modelled and written into the row. -/
structure Framed {ρ : Type} (layout : Layout ρ) (kept : Pass Tracer ρ → Prop) : Prop where
  noted : ∀ {pass} (bpc l window : Nat), kept pass → kept (pass.note (.symbol bpc l window))
  moved : ∀ {pass} (len : Nat) (chans : List ChannelDecoder), kept pass →
    kept { pass with
      coder := { pass.coder with reader := pass.coder.reader.skip len }, chans := chans }
  written : ∀ {pass lane i value cur}, kept pass → layout.write pass.cur lane i value = some cur →
    kept { pass with cur := cur }
  cleared : ∀ {pass i cur}, kept pass → layout.clear pass.cur i = some cur →
    kept { pass with cur := cur }

section Framed

variable {ρ : Type} {layout : Layout ρ} {kept : Pass Tracer ρ → Prop}

theorem lookCode_keeps {family : Family} {channel i : Nat}
    (noted : ∀ {pass : Pass Tracer ρ} (bpc l window : Nat), kept pass →
      kept (pass.note (.symbol bpc l window))) : Keeps kept (lookCode family channel i) := by
  apply Keeps.bind (Keeps.view _)
  intro looked
  have noted : Keeps kept (note fun _pass : Pass Tracer ρ => .symbol family.bpc looked.1 looked.2) := by
    apply Keeps.step
    intro pass value last start ran
    cases ran
    exact noted _ _ _ start
  exact Keeps.bind noted fun _ => Keeps.pure looked

theorem Framed.lookCode (framed : Framed layout kept) (family : Family) (channel i : Nat) :
    Keeps kept (lookCode family channel i) := lookCode_keeps framed.noted

theorem placeSymbol_keeps {family : Family} {channel lane i : Nat} {looked : Nat × Nat}
    (moved : ∀ {pass : Pass Tracer ρ} (len : Nat) (chans : List ChannelDecoder), kept pass →
      kept { pass with
        coder := { pass.coder with reader := pass.coder.reader.skip len }, chans := chans })
    (written : ∀ {pass value cur}, kept pass → layout.write pass.cur lane i value = some cur →
      kept { pass with cur := cur }) :
    Keeps kept (placeSymbol layout family channel lane i looked) := by
  apply Keeps.step
  intro pass value last start ran
  obtain ⟨symbol, _decoded, ran⟩ := Program.bind_eq_ok.mp ran
  obtain ⟨chan, _chanAt, ran⟩ := Program.bind_eq_ok.mp ran
  obtain ⟨correlateRow, _placed, ran⟩ := Program.bind_eq_ok.mp ran
  obtain ⟨predicted, _predictedAt, ran⟩ := Program.bind_eq_ok.mp ran
  obtain ⟨residual, _residualAt, ran⟩ := Program.bind_eq_ok.mp ran
  obtain ⟨cur, wrote, ran⟩ := Program.bind_eq_ok.mp ran
  obtain ⟨reader, eaten, ran⟩ := Program.bind_eq_ok.mp ran
  cases ran
  rw [BitReader.eat_eq_ok eaten]
  exact moved _ _ (written start (Program.access_eq_ok wrote))

theorem Framed.placeSymbol (framed : Framed layout kept) (family : Family) (channel lane i : Nat)
    (looked : Nat × Nat) : Keeps kept (placeSymbol layout family channel lane i looked) :=
  placeSymbol_keeps framed.moved fun start written => framed.written start written

theorem Framed.decodeLane (framed : Framed layout kept) (family : Family) (i : Nat)
    (lane : Nat × Nat) : Keeps kept (decodeLane layout family i lane) :=
  Keeps.bind (framed.lookCode family lane.1 i) fun looked =>
    framed.placeSymbol family lane.1 lane.2 i looked

theorem Framed.decodeLanes (framed : Framed layout kept) (family : Family) (i : Nat)
    (lanes : List (Nat × Nat)) : Keeps kept (decodeLanes layout family i lanes) := by
  induction lanes with
  | nil => exact Keeps.pure ()
  | cons lane rest ih => exact Keeps.bind (framed.decodeLane family i lane) fun _ => ih

theorem Framed.clearPixel (framed : Framed layout kept) (i : Nat) :
    Keeps kept (clearPixel layout i) := by
  apply Keeps.step
  intro pass value last start ran
  obtain ⟨cur, cleared, ran⟩ := Program.bind_eq_ok.mp ran
  cases ran
  exact framed.cleared start (Program.access_eq_ok cleared)

theorem Framed.decodePixel (framed : Framed layout kept) (family : Family)
    (lanes : List (Nat × Nat)) (i : Nat) : Keeps kept (decodePixel layout family lanes i) :=
  Keeps.bind (framed.clearPixel i) fun _ => framed.decodeLanes family i lanes

end Framed

theorem planePhase_count {ρ : Type} {layout : Layout (List ρ)} {lanes : List (Nat × Nat)} (bpc : Nat)
    (assertsOrder : Bool) (width : Nat) (rows : List (List ρ)) :
    Triple (fun pass => pass.above = [])
      (phase (planeDecoder layout bpc assertsOrder lanes) width rows)
      (fun _ pass => pass.above.length = rows.length) fun _ _ => True := by
  have framed : ∀ above : List (List ρ), Framed layout fun pass => True ∧ pass.above = above :=
    fun above =>
      { noted := fun _bpc _l _window start => start
        moved := fun _len _chans start => start
        written := fun start _written => start
        cleared := fun start _cleared => start }
  have steady : ∀ (fresh : List ρ) (above : List (List ρ)),
      (planeDecoder layout bpc assertsOrder lanes).Steady fun pass => True ∧ pass.above = above :=
    fun _fresh above =>
      { retime := fun _state start => start
        remodel := fun _chans start => start
        first := (framed above).decodePixel _ lanes 0
        pixel := (framed above).decodePixel _ lanes
        run := fun j _stop => Keeps.pure j }
  refine (@phase_rows _ _ _ (fun _fresh _cur => True) steady width rows
    (fun _fresh _member => True.intro) []).conseq (fun _pass start => start) ?_
  rintro _ pass ⟨done, same, reached⟩
  rw [reached, List.append_nil, List.length_reverse]
  exact same.length_eq.symm

end Capsaicin.Quic
