/-
The RGB32 decoder looks at a bounded window of its stream. Two streams that agree
on their first bits are decoded alike as long as the window stays inside them; in
particular they lead to the same first run.
-/

import Capsaicin.Quic.Trace

namespace Capsaicin.Quic

open Program (Coupled Keeps Parting index assign access step view lastState)

def Event.asRun : Event → Option Event
  | .run row start stop bitPos state => some (.run row start stop bitPos state)
  | .symbol _ _ _ => none
  | .pixel _ _ => none

/-- The oldest run of a log. -/
def firstRun : List Event → Option Event
  | [] => none
  | event :: rest => (firstRun rest).or event.asRun

theorem firstRun_other {event : Event} (other : event.asRun = none) (log : List Event) :
    firstRun (event :: log) = firstRun log := by
  rw [firstRun, other, Option.or_none]

theorem firstRun_new {event : Event} {log : List Event} (fresh : firstRun log = none) :
    firstRun (event :: log) = event.asRun := by
  rw [firstRun, fresh, Option.none_or]

theorem firstRun_some {log : List Event} {first : Event} (found : firstRun log = some first)
    (event : Event) : firstRun (event :: log) = some first := by
  rw [firstRun, found, Option.some_or]

theorem firstRun_mem {log : List Event} {first : Event} (found : firstRun log = some first) :
    first ∈ log := by
  induction log with
  | nil => cases found
  | cons event rest ih =>
      cases before : firstRun rest with
      | some earlier =>
          rw [firstRun_some before] at found
          cases found
          exact List.mem_cons_of_mem event (ih before)
      | none =>
          rw [firstRun_new before] at found
          cases event with
          | symbol bpc l window => cases found
          | pixel row i => cases found
          | run row start stop bitPos state =>
              cases found
              exact List.mem_cons_self

/-- No codeword is longer than the window this module allows for it. -/
theorem golombDecode_short {l bits value cwlen : Nat}
    (decoded : (Family.init 8).golombDecode l bits = .ok (value, cwlen)) : cwlen ≤ 64 := by
  obtain ⟨prefixmask, masked, decoded⟩ := Program.bind_eq_ok.mp decoded
  have known : l < 8 := by
    obtain ⟨inRange, _at⟩ := List.getElem?_eq_some_iff.mp (Program.index_eq_ok.mp masked)
    exact inRange
  split at decoded
  · cases decoded
    have zeros := BitString.leadingZeros_le 32 bits
    omega
  · obtain ⟨len, lenAt, decoded⟩ := Program.bind_eq_ok.mp decoded
    obtain ⟨offset, _offsetAt, decoded⟩ := Program.bind_eq_ok.mp decoded
    obtain ⟨suffixlen, _suffixAt, decoded⟩ := Program.bind_eq_ok.mp decoded
    cases decoded
    have every : ∀ entry ∈ (Family.init 8).notGrCwlen, entry ≤ 64 := by decide
    exact every _ (List.mem_of_getElem? (Program.index_eq_ok.mp lenAt))

/-- Two streams with the same first `shared` bits of body. -/
structure Agree (stream stream' : List UInt8) (shared : Nat) : Prop where
  bits : ∀ position, position < shared →
    (readerAt stream 0).bit position = (readerAt stream' 0).bit position
  inside : shared ≤ (readerAt stream 0).limit
  inside' : shared ≤ (readerAt stream' 0).limit

theorem Agree.peek {stream stream' : List UInt8} {shared bitPos : Nat}
    (agree : Agree stream stream' shared) (inside : bitPos + 64 ≤ shared) :
    (readerAt stream bitPos).peek32 = (readerAt stream' bitPos).peek32 := by
  have window := (readerAt stream bitPos).peek32_window
  have window' := (readerAt stream' bitPos).peek32_window
  apply Nat.eq_of_testBit_eq
  intro bit
  by_cases within : bit < 32
  · have here := window.bit (31 - bit) (by omega)
    have here' := window'.bit (31 - bit) (by omega)
    rw [show 31 - (31 - bit) = bit by omega] at here here'
    rw [here, here']
    exact agree.bits (bitPos + (31 - bit)) (by omega)
  · have high : 2 ^ 32 ≤ 2 ^ bit := Nat.pow_le_pow_right (by decide) (Nat.not_lt.mp within)
    rw [Nat.testBit_lt_two_pow (Nat.lt_of_lt_of_le window.bounded high),
      Nat.testBit_lt_two_pow (Nat.lt_of_lt_of_le window'.bounded high)]

/-- The same pass on another stream. -/
def Pass.onto {ρ : Type} (pass : Pass Tracer ρ) (stream : List UInt8) : Pass Tracer ρ :=
  { pass with
    coder := { pass.coder with reader := readerAt stream pass.coder.reader.bitPos } }

section Twin

variable (stream stream' : List UInt8) (shared : Nat) (event : Event)

/-- The left run is past the shared bits before its first run, or that is not
`event`; the right one has met `event` first. -/
def twinParting : Parting QuicFault QuicFault Tracer Tracer where
  stopped _fault _fault' source target := firstRun source.log = firstRun target.log
  lostLeft tracer := (∃ first, firstRun tracer.log = some first ∧ first ≠ event) ∨
    (firstRun tracer.log = none ∧ shared < tracer.reader.bitPos + 64)
  lostRight tracer := firstRun tracer.log = some event

/-- `event` is a run that starts inside the shared bits. -/
def InShared : Prop := ∃ row start stop bitPos state,
  event = .run row start stop bitPos state ∧ bitPos + 64 ≤ shared

variable {stream stream' shared event}

theorem twin_lostLeft_framed :
    Framed bgra fun pass => (twinParting shared event).lostLeft pass.coder where
  noted := by
    intro pass bpc l window lost
    change (∃ first, firstRun (.symbol bpc l window :: pass.coder.log) = some first ∧ _) ∨
      (firstRun (.symbol bpc l window :: pass.coder.log) = none ∧ _)
    rw [firstRun_other rfl]
    exact lost
  moved := by
    intro pass len chans lost
    rcases lost with other | ⟨fresh, past⟩
    · exact Or.inl other
    · refine Or.inr ⟨fresh, ?_⟩
      change shared < pass.coder.reader.bitPos + len + 64
      omega
  written := fun lost _written => lost
  cleared := fun lost _cleared => lost

theorem twin_lostRight_framed (shared : Nat) (event : Event) :
    Framed bgra fun pass => (twinParting shared event).lostRight pass.coder where
  noted := fun bpc l window lost => firstRun_some lost (.symbol bpc l window)
  moved := fun _len _chans lost => lost
  written := fun lost _written => lost
  cleared := fun lost _cleared => lost

theorem decodeRun_logs (j stop : Nat) (pass : Pass Tracer (List UInt8)) :
    (lastState (decodeRun j stop pass)).coder.log = runEvent pass j stop :: pass.coder.log := by
  have logs : Program.Triple (fun last => last = pass.note (runEvent pass j stop))
      (step fun pass => do
        let decoded ← decodeStateRun pass.coder.reader pass.state
        let reached ← runEnd j decoded.1 stop
        let cur ← doRunCopyRgb32 pass.cur j (reached - j)
        .ok (reached,
          { pass with
            coder := { pass.coder with reader := decoded.2.1 }
            state := decoded.2.2
            cur := cur }))
      (fun _ last => last.coder.log = runEvent pass j stop :: pass.coder.log)
      fun _ last => last.coder.log = runEvent pass j stop :: pass.coder.log := by
    apply Program.Triple.step
    · intro before value last start ran
      obtain ⟨decoded, _read, ran⟩ := Program.bind_eq_ok.mp ran
      obtain ⟨reached, _ended, ran⟩ := Program.bind_eq_ok.mp ran
      obtain ⟨cur, _copied, ran⟩ := Program.bind_eq_ok.mp ran
      cases ran
      cases start
      rfl
    · intro before fault start _stopped
      cases start
      rfl
  have ends := logs _ rfl
  have noted : note (runEvent · j stop) pass = .ok () (pass.note (runEvent pass j stop)) := rfl
  have split : decodeRun j stop pass = _ := Program.run_bind_ok noted
  rw [split]
  unfold lastState
  split
  · rename_i ran
    rw [ran] at ends
    exact ends
  · rename_i ran
    rw [ran] at ends
    exact ends

theorem decodeRun_keeps {kept : Pass Tracer (List UInt8) → Prop} (j stop : Nat)
    (met : ∀ pass last : Pass Tracer (List UInt8), kept pass →
      last.coder.log = runEvent pass j stop :: pass.coder.log → kept last) :
    Keeps kept (decodeRun j stop) := by
  intro pass start
  have logs := decodeRun_logs j stop pass
  cases ran : decodeRun j stop pass with
  | ok value last =>
      rw [ran] at logs
      exact met pass last start logs
  | error fault last =>
      rw [ran] at logs
      exact met pass last start logs

theorem decodeOnePixel_keeps {kept : Pass Tracer (List UInt8) → Prop} (framed : Framed bgra kept)
    (entered : ∀ pass row i, kept pass → kept (pass.note (.pixel row i))) (i : Nat) :
    Keeps kept (decodeOnePixel i) := by
  have noted : Keeps kept (note fun pass => .pixel pass.above.length i) := by
    apply Keeps.step
    intro pass value last start ran
    cases ran
    exact entered pass _ i start
  apply Keeps.bind noted
  intro _
  split
  · exact fail_keeps _
  · exact framed.decodePixel _ _ _

theorem twin_steadyLeft (inShared : InShared shared event) :
    rgb32Decoder.Steady fun pass => (twinParting shared event).lostLeft pass.coder where
  retime := fun _state lost => lost
  remodel := fun _chans lost => lost
  first := twin_lostLeft_framed.decodePixel _ _ _
  pixel := by
    intro i
    apply decodeOnePixel_keeps twin_lostLeft_framed
    intro pass row i lost
    change (∃ first, firstRun (.pixel row i :: pass.coder.log) = some first ∧ _) ∨
      (firstRun (.pixel row i :: pass.coder.log) = none ∧ _)
    rw [firstRun_other rfl]
    exact lost
  run := by
    intro j stop
    apply decodeRun_keeps
    intro pass last lost logs
    left
    rw [logs]
    rcases lost with ⟨first, found, other⟩ | ⟨fresh, past⟩
    · exact ⟨first, firstRun_some found _, other⟩
    · refine ⟨runEvent pass j stop, firstRun_new fresh, ?_⟩
      obtain ⟨row, start, stop', bitPos, state, same, inside⟩ := inShared
      rw [same]
      intro met
      cases met
      omega

theorem twin_steadyRight (shared : Nat) (event : Event) :
    rgb32Decoder.Steady fun pass => (twinParting shared event).lostRight pass.coder where
  retime := fun _state lost => lost
  remodel := fun _chans lost => lost
  first := (twin_lostRight_framed shared event).decodePixel _ _ _
  pixel := fun i => decodeOnePixel_keeps (twin_lostRight_framed shared event)
    (fun _pass row i lost => firstRun_some lost (.pixel row i)) i
  run := by
    intro j stop
    apply decodeRun_keeps
    intro pass last lost logs
    change firstRun last.coder.log = some event
    rw [logs]
    exact firstRun_some lost _

/-! ### One symbol on both streams -/

/-- Two ends that differ in the stream alone. -/
inductive Alike (stream stream' : List UInt8) {α : Type} :
    EStateM.Result QuicFault (Pass Tracer (List UInt8)) α →
    EStateM.Result QuicFault (Pass Tracer (List UInt8)) α → Prop
  | returned (value : α) (last : Pass Tracer (List UInt8))
      (reader : last.coder.reader = readerAt stream last.coder.reader.bitPos) :
      Alike stream stream' (.ok value last) (.ok value (last.onto stream'))
  | stopped (fault : QuicFault) (last : Pass Tracer (List UInt8)) :
      Alike stream stream' (.error fault last) (.error fault (last.onto stream'))

private def placed (family : Family) (channel lane i : Nat) (looked : Nat × Nat)
    (pass : Pass Tracer (List UInt8)) :
    Except QuicFault (Nat × List ChannelDecoder × List UInt8) := do
  let symbol ← family.golombDecode looked.1 looked.2
  let chan ← index pass.chans channel
  let correlateRow ← assign chan.correlateRow i (UInt8.ofNat symbol.1)
  let predicted ← predict bgra pass.prev pass.cur lane i
  let residual ← index family.xlatL2u symbol.1
  let cur ← access (bgra.write pass.cur lane i ((residual + predicted) &&& bppmask family.bpc))
  .ok (symbol.2, pass.chans.set channel { chan with correlateRow := correlateRow }, cur)

private def takeSymbol (family : Family) (channel lane i : Nat) (looked : Nat × Nat)
    (pass : Pass Tracer (List UInt8)) : Except QuicFault (Unit × Pass Tracer (List UInt8)) := do
  let placed ← placed family channel lane i looked pass
  let reader ← pass.coder.reader.eat placed.1
  .ok ((),
    { pass with
      coder := { pass.coder with reader := reader }
      chans := placed.2.1
      cur := placed.2.2 })

private theorem placeSymbol_take (family : Family) (channel lane i : Nat) (looked : Nat × Nat) :
    placeSymbol bgra family channel lane i looked =
      step (takeSymbol family channel lane i looked) := by
  unfold placeSymbol takeSymbol placed
  simp only [bind_assoc]
  rfl

variable {pass : Pass Tracer (List UInt8)}

theorem placeSymbol_onto (agree : Agree stream stream' shared)
    (reader : pass.coder.reader = readerAt stream pass.coder.reader.bitPos)
    (inside : pass.coder.reader.bitPos + 64 ≤ shared) (channel lane i : Nat) (looked : Nat × Nat) :
    Alike stream stream' (placeSymbol bgra (Family.init 8) channel lane i looked pass)
      (placeSymbol bgra (Family.init 8) channel lane i looked (pass.onto stream')) := by
  rw [placeSymbol_take]
  have same : placed (Family.init 8) channel lane i looked (pass.onto stream') =
      placed (Family.init 8) channel lane i looked pass := rfl
  cases found : placed (Family.init 8) channel lane i looked pass with
  | error fault =>
      have left : takeSymbol (Family.init 8) channel lane i looked pass = .error fault := by
        unfold takeSymbol
        rw [found]
        rfl
      have right : takeSymbol (Family.init 8) channel lane i looked (pass.onto stream') =
          .error fault := by
        unfold takeSymbol
        rw [same, found]
        rfl
      rw [Program.run_step_error left, Program.run_step_error right]
      exact Alike.stopped fault pass
  | ok result =>
      have short : result.1 ≤ 64 := by
        obtain ⟨symbol, decoded, rest⟩ := Program.bind_eq_ok.mp found
        obtain ⟨chan, _chanAt, rest⟩ := Program.bind_eq_ok.mp rest
        obtain ⟨correlateRow, _row, rest⟩ := Program.bind_eq_ok.mp rest
        obtain ⟨predicted, _predictedAt, rest⟩ := Program.bind_eq_ok.mp rest
        obtain ⟨residual, _residualAt, rest⟩ := Program.bind_eq_ok.mp rest
        obtain ⟨cur, _written, rest⟩ := Program.bind_eq_ok.mp rest
        cases rest
        exact golombDecode_short decoded
      have roomIn : pass.coder.reader.bitPos + result.1 ≤ pass.coder.reader.limit := by
        have limit := agree.inside
        rw [reader]
        exact Nat.le_trans (Nat.le_trans (Nat.add_le_add_left short _) inside) limit
      have roomOn : (pass.onto stream').coder.reader.bitPos + result.1 ≤
          (pass.onto stream').coder.reader.limit :=
        Nat.le_trans (Nat.le_trans (Nat.add_le_add_left short _) inside) agree.inside'
      have left : takeSymbol (Family.init 8) channel lane i looked pass = .ok ((),
          { pass with
            coder := { pass.coder with reader := pass.coder.reader.skip result.1 }
            chans := result.2.1
            cur := result.2.2 }) := by
        unfold takeSymbol
        rw [Program.bind_ok found, Program.bind_ok (BitReader.eat_ok roomIn)]
      have right : takeSymbol (Family.init 8) channel lane i looked (pass.onto stream') = .ok ((),
          Pass.onto
            { pass with
              coder := { pass.coder with reader := pass.coder.reader.skip result.1 }
              chans := result.2.1
              cur := result.2.2 } stream') := by
        unfold takeSymbol
        rw [same, Program.bind_ok found, Program.bind_ok (BitReader.eat_ok roomOn)]
        rfl
      rw [Program.run_step_ok left, Program.run_step_ok right]
      apply Alike.returned
      change pass.coder.reader.skip result.1 =
        readerAt stream (pass.coder.reader.bitPos + result.1)
      rw [reader]
      rfl

private def look (channel i : Nat) (pass : Pass Tracer (List UInt8)) :
    Except QuicFault (Nat × Nat) := do
  let chan ← index pass.chans channel
  let context ← chan.context i
  let bucket ← chan.findBucket context
  .ok (bucket.bestcode, pass.coder.reader.peek32)

private theorem look_onto (agree : Agree stream stream' shared)
    (reader : pass.coder.reader = readerAt stream pass.coder.reader.bitPos)
    (inside : pass.coder.reader.bitPos + 64 ≤ shared) (channel i : Nat) :
    look channel i (pass.onto stream') = look channel i pass := by
  have window : (pass.onto stream').coder.reader.peek32 = pass.coder.reader.peek32 := by
    rw [reader]
    exact (agree.peek inside).symm
  unfold look
  rw [window]
  rfl

theorem decodeLane_onto (agree : Agree stream stream' shared)
    (reader : pass.coder.reader = readerAt stream pass.coder.reader.bitPos)
    (inside : pass.coder.reader.bitPos + 64 ≤ shared) (i : Nat) (lane : Nat × Nat) :
    Alike stream stream' (decodeLane bgra (Family.init 8) i lane pass)
      (decodeLane bgra (Family.init 8) i lane (pass.onto stream')) := by
  have same := look_onto agree reader inside lane.1 i
  have code : ∀ before : Pass Tracer (List UInt8), lookCode (Family.init 8) lane.1 i before =
      (do
        let looked ← view (look lane.1 i)
        note fun _pass => .symbol (Family.init 8).bpc looked.1 looked.2
        pure looked : Decoding (List UInt8) (Nat × Nat)) before := fun _before => rfl
  unfold decodeLane
  cases looked : look lane.1 i pass with
  | error fault =>
      have left : lookCode (Family.init 8) lane.1 i pass = .error fault pass := by
        rw [code, Program.run_bind_error (Program.run_view_error looked)]
      have right : lookCode (Family.init 8) lane.1 i (pass.onto stream') =
          .error fault (pass.onto stream') := by
        rw [code, Program.run_bind_error (Program.run_view_error (same.trans looked))]
      rw [Program.run_bind_error left, Program.run_bind_error right]
      exact Alike.stopped fault pass
  | ok result =>
      have left : lookCode (Family.init 8) lane.1 i pass =
          .ok result (pass.note (.symbol 8 result.1 result.2)) := by
        rw [code, Program.run_bind_ok (Program.run_view_ok looked)]
        rfl
      have right : lookCode (Family.init 8) lane.1 i (pass.onto stream') =
          .ok result ((pass.note (.symbol 8 result.1 result.2)).onto stream') := by
        rw [code, Program.run_bind_ok (Program.run_view_ok (same.trans looked))]
        rfl
      rw [Program.run_bind_ok left, Program.run_bind_ok right]
      have noted : (pass.note (.symbol 8 result.1 result.2)).coder.reader =
          readerAt stream (pass.note (.symbol 8 result.1 result.2)).coder.reader.bitPos := reader
      exact placeSymbol_onto agree noted inside lane.1 lane.2 i result

private theorem alike_step {α γ : Type}
    {act : Pass Tracer (List UInt8) → Except QuicFault (α × Pass Tracer (List UInt8))}
    (read : Pass Tracer (List UInt8) → Except QuicFault γ)
    (finish : Pass Tracer (List UInt8) → γ → α × Pass Tracer (List UInt8))
    (acts : ∀ before, act before = read before >>= fun found => .ok (finish before found))
    (same : read (pass.onto stream') = read pass)
    (moves : ∀ found, (finish pass found).2.coder.reader = pass.coder.reader ∧
      finish (pass.onto stream') found =
        ((finish pass found).1, (finish pass found).2.onto stream'))
    (reader : pass.coder.reader = readerAt stream pass.coder.reader.bitPos) :
    Alike stream stream' (step act pass) (step act (pass.onto stream')) := by
  cases ran : read pass with
  | error fault =>
      have left : act pass = .error fault := by
        rw [acts, ran]
        rfl
      have right : act (pass.onto stream') = .error fault := by
        rw [acts, same, ran]
        rfl
      rw [Program.run_step_error left, Program.run_step_error right]
      exact Alike.stopped fault pass
  | ok found =>
      have left : act pass = .ok (finish pass found) := by rw [acts, Program.bind_ok ran]
      have right : act (pass.onto stream') =
          .ok ((finish pass found).1, (finish pass found).2.onto stream') := by
        rw [acts, Program.bind_ok (same.trans ran), (moves found).2]
      rw [Program.run_step_ok left, Program.run_step_ok right]
      apply Alike.returned
      rw [(moves found).1]
      exact reader

/-! ### The two decoders side by side -/

/-- A pass before its first run, and the same pass on the other stream. -/
structure Twinned (stream stream' : List UInt8) (holds : Pass Tracer (List UInt8) → Prop)
    (source target : Pass Tracer (List UInt8)) : Prop where
  reader : source.coder.reader = readerAt stream source.coder.reader.bitPos
  same : target = source.onto stream'
  fresh : firstRun source.coder.log = none
  holds : holds source

theorem Twinned.coupled {α : Type} {program : Decoding (List UInt8) α}
    {before after : Pass Tracer (List UInt8) → Prop}
    (alike : ∀ {pass : Pass Tracer (List UInt8)},
      pass.coder.reader = readerAt stream pass.coder.reader.bitPos →
      pass.coder.reader.bitPos + 64 ≤ shared →
      Alike stream stream' (program pass) (program (pass.onto stream')))
    (keeps : Program.Triple (fun pass => firstRun pass.coder.log = none ∧ before pass) program
      (fun _ pass => firstRun pass.coder.log = none ∧ after pass) fun _ _ => True)
    (lost : Keeps (fun pass => (twinParting shared event).lostLeft pass.coder) program) :
    Coupled (onCoder (twinParting shared event)) (Twinned stream stream' before) program program
      fun _ => Twinned stream stream' after := by
  rintro source target ⟨reader, rfl, fresh, holds⟩
  by_cases inside : source.coder.reader.bitPos + 64 ≤ shared
  · have ends := keeps source ⟨fresh, holds⟩
    have both := alike reader inside
    generalize program source = left at ends both
    generalize program (source.onto stream') = right at both
    cases both with
    | returned value last reader' => exact Or.inl ⟨rfl, reader', rfl, ends.1, ends.2⟩
    | stopped fault last => exact Or.inl rfl
  · exact Parting.ends_of_lost (Or.inl (lost.lastState (Or.inr ⟨fresh, Nat.not_le.mp inside⟩)))

structure Solo (width : Nat) (clock : Clock) (pass : Pass Tracer (List UInt8)) : Prop where
  clock : pass.state.clock = clock
  above : ∀ row ∈ pass.above, FullRow width row
  cur : FullRow width pass.cur

structure SoloIdle (width : Nat) (clock : Clock) (pass : Pass Tracer (List UInt8)) : Prop where
  clock : pass.state.clock = clock
  above : ∀ row ∈ pass.above, FullRow width row

variable {width : Nat} {clock : Clock}

theorem solo_framed : Framed bgra fun pass : Pass Tracer (List UInt8) =>
    firstRun pass.coder.log = none ∧ Solo width clock pass where
  noted := fun _bpc _l _window start =>
    ⟨(firstRun_other rfl _).trans start.1,
      { clock := start.2.clock, above := start.2.above, cur := start.2.cur }⟩
  moved := fun _len _chans start =>
    ⟨start.1, { clock := start.2.clock, above := start.2.above, cur := start.2.cur }⟩
  written := fun start written =>
    ⟨start.1, { clock := start.2.clock, above := start.2.above
                cur := (setByte_length written).trans start.2.cur }⟩
  cleared := fun start cleared =>
    ⟨start.1, { clock := start.2.clock, above := start.2.above
                cur := (setByte_length cleared).trans start.2.cur }⟩

private theorem returns {kept : Pass Tracer (List UInt8) → Prop} {α : Type}
    {program : Decoding (List UInt8) α} (keeps : Keeps kept program) :
    Program.Triple kept program (fun _ => kept) fun _ _ => True :=
  keeps.relax fun _fault _pass _kept => True.intro

theorem twin_lanes (agree : Agree stream stream' shared) (i : Nat) (lanes : List (Nat × Nat)) :
    Coupled (onCoder (twinParting shared event)) (Twinned stream stream' (Solo width clock))
      (decodeLanes bgra (Family.init 8) i lanes) (decodeLanes bgra (Family.init 8) i lanes)
      fun _ => Twinned stream stream' (Solo width clock) := by
  induction lanes with
  | nil => exact Coupled.pure () fun _source _target twin => twin
  | cons lane rest ih =>
      have first : Coupled (onCoder (twinParting shared event))
          (Twinned stream stream' (Solo width clock)) (decodeLane bgra (Family.init 8) i lane)
          (decodeLane bgra (Family.init 8) i lane)
          fun _ => Twinned stream stream' (Solo width clock) :=
        Twinned.coupled (fun reader inside => decodeLane_onto agree reader inside i lane)
          (returns (solo_framed.decodeLane _ _ _)) (twin_lostLeft_framed.decodeLane _ _ _)
      exact first.bind (fun _ => twin_lostLeft_framed.decodeLanes _ _ _)
        (fun _ => (twin_lostRight_framed shared event).decodeLanes _ _ _) fun _ => ih

theorem twin_pixel (agree : Agree stream stream' shared) (i : Nat) :
    Coupled (onCoder (twinParting shared event)) (Twinned stream stream' (Solo width clock))
      (decodePixel bgra (Family.init 8) rgbLanes i) (decodePixel bgra (Family.init 8) rgbLanes i)
      fun _ => Twinned stream stream' (Solo width clock) := by
  have cleared : Coupled (onCoder (twinParting shared event))
      (Twinned stream stream' (Solo width clock)) (clearPixel bgra i) (clearPixel bgra i)
      fun _ => Twinned stream stream' (Solo width clock) := by
    apply Twinned.coupled _ (returns (solo_framed.clearPixel i)) (twin_lostLeft_framed.clearPixel i)
    intro pass reader _inside
    exact alike_step (fun before => access (bgra.clear before.cur i))
      (fun before cur => ((), { before with cur := cur })) (fun _before => rfl) rfl
      (fun _cur => ⟨rfl, rfl⟩) reader
  exact cleared.bind (fun _ => twin_lostLeft_framed.decodeLanes _ _ _)
    (fun _ => (twin_lostRight_framed shared event).decodeLanes _ _ _) fun _ => twin_lanes agree i rgbLanes

theorem twin_onePixel (agree : Agree stream stream' shared) {i : Nat} (positive : 0 < i) :
    Coupled (onCoder (twinParting shared event)) (Twinned stream stream' (Solo width clock))
      (decodeOnePixel i) (decodeOnePixel i)
      fun _ => Twinned stream stream' (Solo width clock) := by
  have noted : Coupled (onCoder (twinParting shared event))
      (Twinned stream stream' (Solo width clock)) (note fun pass => .pixel pass.above.length i)
      (note fun pass => .pixel pass.above.length i)
      fun _ => Twinned stream stream' (Solo width clock) := by
    rintro source target ⟨reader, rfl, fresh, solo⟩
    exact Or.inl ⟨rfl, reader, rfl, (firstRun_other rfl _).trans fresh,
      { clock := solo.clock, above := solo.above, cur := solo.cur }⟩
  unfold decodeOnePixel
  simp only [if_neg (Nat.pos_iff_ne_zero.mp positive)]
  exact noted.bind (fun _ => twin_lostLeft_framed.decodePixel _ _ _)
    (fun _ => (twin_lostRight_framed shared event).decodePixel _ _ _) fun _ => twin_pixel agree i

theorem twin_run {after : Nat → Pass Tracer (List UInt8) → Pass Tracer (List UInt8) → Prop}
    (j stop : Nat) :
    Coupled (onCoder (twinParting shared event)) (Twinned stream stream' (Solo width clock))
      (decodeRun j stop) (decodeRun j stop) after := by
  rintro source target ⟨_reader, rfl, fresh, _solo⟩
  apply Parting.ends_of_lost
  by_cases met : runEvent source j stop = event
  · right
    change firstRun (lastState (decodeRun j stop (source.onto stream'))).coder.log = some event
    rw [decodeRun_logs]
    exact (firstRun_new fresh).trans (congrArg some met)
  · left
    left
    rw [decodeRun_logs]
    exact ⟨runEvent source j stop, firstRun_new fresh, met⟩

theorem twin_paired (agree : Agree stream stream' shared) (inShared : InShared shared event)
    (width : Nat) :
    Paired (twinParting shared event) rgb32Decoder rgb32Decoder width
      (fun clock _ => Twinned stream stream' (Solo width clock))
      (fun clock => Twinned stream stream' (SoloIdle width clock))
      fun row row' => row = row' ∧ FullRow width row where
  steadyLeft := twin_steadyLeft inShared
  steadyRight := twin_steadyRight shared event
  common := by
    rintro clock k source target ⟨_reader, rfl, _fresh, solo⟩
    exact ⟨rfl, solo.clock⟩
  retime := by
    rintro clock k source target state ⟨reader, rfl, fresh, solo⟩ _melc
    exact ⟨reader, rfl, fresh, { clock := rfl, above := solo.above, cur := solo.cur }⟩
  escapes := by
    rintro clock j source target runIndex positive inside ⟨_reader, rfl, _fresh, solo⟩
    have prev : ∀ row ∈ source.prev, FullRow width row := fun row first =>
      solo.above row (List.mem_of_mem_head? first)
    obtain ⟨answer, answered, met⟩ := rleMatch_ok solo.cur prev inside runIndex
    refine ⟨answer, answered, answered, fun yes => ?_⟩
    obtain ⟨_above, _first, _late, fresh, _rest⟩ := met.mp yes
    exact fresh
  first := fun _clock _some => twin_pixel agree 0
  pixel := fun _clock _j positive _inside => twin_onePixel agree positive
  run := fun _clock j stop _positive _inside _fits => twin_run j stop
  models := by
    intro clock idx _inside
    apply Twinned.coupled
    · intro pass reader _inside
      exact alike_step
        (fun before => before.chans.mapM (ChannelDecoder.updateAt (Family.init 8) before.state idx))
        (fun before chans => ((), { before with chans := chans })) (fun _before => rfl) rfl
        (fun _chans => ⟨rfl, rfl⟩) reader
    · apply returns
      apply Keeps.step
      intro pass value last start ran
      obtain ⟨chans, _updated, ran⟩ := Program.bind_eq_ok.mp ran
      cases ran
      exact ⟨start.1, { clock := start.2.clock, above := start.2.above, cur := start.2.cur }⟩
    · exact (twin_steadyLeft inShared).models _ _
  opened := by
    rintro clock source target fresh fresh' ⟨reader, rfl, none_, solo⟩ ⟨rfl, full⟩
    exact ⟨reader, rfl, none_, { clock := solo.clock, above := solo.above, cur := full }⟩
  closed := by
    intro clock
    apply Twinned.coupled
    · intro pass reader _inside
      exact alike_step (fun before => before.chans.mapM ChannelDecoder.latch)
        (fun before chans =>
          ((), { before with chans := chans, above := before.cur :: before.above }))
        (fun _before => rfl) rfl (fun _chans => ⟨rfl, rfl⟩) reader
    · apply Program.Triple.step
      · intro pass value last start ran
        obtain ⟨chans, _latched, ran⟩ := Program.bind_eq_ok.mp ran
        cases ran
        refine ⟨start.1, { clock := start.2.clock, above := ?_ }⟩
        intro row member
        rcases List.mem_cons.mp member with first | later
        · exact first ▸ start.2.cur
        · exact start.2.above row later
      · exact fun _pass _fault _start _stopped => True.intro
    · exact closeRow_keeps

end Twin

/-- The first run of a decoder is the first run on every stream that goes on in
another way after it. -/
theorem firstRun_transfer {stream stream' : List UInt8} {shared width height : Nat} {event : Event}
    (agree : Agree stream stream' shared) (inShared : InShared shared event)
    (full : QUIC_HEADER_SIZE ≤ stream.length) (full' : QUIC_HEADER_SIZE ≤ stream'.length)
    {size : Nat} (accepted : validateDims width height 4 = .ok size)
    (met : firstRun (traceRgb32 stream width height).log = some event) :
    firstRun (traceRgb32 stream' width height).log = some event := by
  unfold traceRgb32 at met ⊢
  rw [decodeWith_log accepted full] at met
  rw [decodeWith_log accepted full']
  have blanks : List.Forall₂ (fun row row' => row = row' ∧ FullRow width row)
      (blankRows (0 : UInt8) (4 * width) height) (blankRows (0 : UInt8) (4 * width) height) := by
    apply List.forall₂_same.mpr
    exact fun row member => ⟨rfl, blankRows_bgra width height row member⟩
  have start : Twinned stream stream' (SoloIdle width CommonState.default.clock)
      (startPass UInt8 (readerAt stream 0) 8 3 width)
      (startPass UInt8 (readerAt stream' 0) 8 3 width) :=
    { reader := rfl, same := rfl, fresh := rfl
      holds := { clock := rfl, above := fun _row member => absurd member List.not_mem_nil } }
  have ends := (twin_paired agree inShared width).phase blanks CommonState.default.clock _ _ start
  have notLost : ∀ tracer : Tracer, firstRun tracer.log = some event →
      ¬(twinParting shared event).lostLeft tracer := by
    intro tracer found lost
    rcases lost with ⟨first, other, differs⟩ | ⟨fresh, _past⟩
    · rw [found] at other
      cases other
      exact differs rfl
    · rw [found] at fresh
      cases fresh
  unfold decompressRgbPhase at met ⊢
  generalize phase rgb32Decoder width (blankRows 0 (4 * width) height)
    (startPass UInt8 (readerAt stream 0) 8 3 width) = left at ends met
  generalize phase rgb32Decoder width (blankRows 0 (4 * width) height)
    (startPass UInt8 (readerAt stream' 0) 8 3 width) = right at ends ⊢
  cases left with
  | ok value source =>
      cases right with
      | ok value' target =>
          rcases ends with ⟨_same, _clock, twin⟩ | lost | lost
          · have fresh := twin.fresh
            rw [show firstRun source.coder.log = some event from met] at fresh
            cases fresh
          · exact absurd lost (notLost source.coder met)
          · exact lost
      | error fault target =>
          rcases ends with lost | lost
          · exact absurd lost (notLost source.coder met)
          · exact lost
  | error fault source =>
      cases right with
      | ok value' target =>
          rcases ends with lost | lost
          · exact absurd lost (notLost source.coder met)
          · exact lost
      | error fault' target =>
          rcases ends with same | lost | lost
          · exact same.symm.trans met
          · exact absurd lost (notLost source.coder met)
          · exact lost

end Capsaicin.Quic
