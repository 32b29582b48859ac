/-
The bits a decoder has to spend. Every codeword takes a bit at least and the reader stops
at the end of its stream, so a decoder stops too, whatever its runs and its segments do;
and an image whose pixels have codewords of their own is no larger than its stream.
-/

import Capsaicin.Quic.Trace

namespace Capsaicin.Quic

open Program (Keeps Triple index assign access step view lastState)

def Event.isCodeword : Event → Bool
  | .symbol _ _ _ => true
  | .run _ _ _ _ _ => true
  | .pixel _ _ => false

def codewords (log : List Event) : Nat := log.countP Event.isCodeword

/-- The last position that the reader of a stream can reach. -/
def budget (stream : List UInt8) : Nat := (readerAt stream 0).limit

/-- The position in the body of the stream at which a decoder stops. -/
def spentWith {ρ : Type} (bpc channels : Nat) (body : Decoding (List ρ) Unit)
    (stream : List UInt8) (width height : Nat) : Nat :=
  match validateDims width height 4 with
  | .error _ => 0
  | .ok _ =>
      match BitReader.newAfterHeader stream with
      | .error _ => 0
      | .ok reader =>
          (lastState (body (startPass ρ reader bpc channels width))).coder.reader.bitPos

theorem codewords_symbol (bpc l window : Nat) (log : List Event) :
    codewords (.symbol bpc l window :: log) = codewords log + 1 :=
  List.countP_cons_of_pos rfl

theorem codewords_run (row start stop bitPos : Nat) (state : CommonState) (log : List Event) :
    codewords (.run row start stop bitPos state :: log) = codewords log + 1 :=
  List.countP_cons_of_pos rfl

theorem codewords_met (event : Event) (log : List Event) :
    codewords (event :: log) ≤ codewords log + 1 := by
  unfold codewords
  rw [List.countP_cons]
  split
  · exact Nat.le_refl _
  · exact Nat.le_succ _

theorem codewords_pixel (row i : Nat) (log : List Event) :
    codewords (.pixel row i :: log) = codewords log :=
  List.countP_cons_of_neg Bool.false_ne_true

theorem eat_within (reader : BitReader) (len : Nat) :
    Program.Within (reader.eat len)
      (fun after => after = reader.skip len ∧ reader.bitPos + len ≤ reader.limit) True := by
  by_cases room : reader.bitPos + len ≤ reader.limit
  · rw [BitReader.eat_ok room]
    exact ⟨rfl, room⟩
  · obtain ⟨reason, stopped⟩ := BitReader.eat_short (Nat.not_le.mp room)
    rw [stopped]
    exact trivial

theorem decodeStateRun_within (reader : BitReader) (state : CommonState) :
    Program.Within (decodeStateRun reader state)
      (fun decoded => decoded.2.2.clock = state.clock ∧ ∃ len, 0 < len ∧
        decoded.2.1 = reader.skip len ∧ reader.bitPos + len ≤ reader.limit) True := by
  obtain ⟨ones, shown, within⟩ := reader.exists_showsOnes
  rcases decodeStateRun_eq state shown within with ⟨room, read⟩ | ⟨_past, reason, stopped⟩
  · rw [read]
    refine ⟨state.risen_fall_clock ones, runBits state ones, ?_, rfl, room⟩
    unfold runBits
    omega
  · rw [stopped]
    exact trivial

theorem runEnd_within (j runLen stop : Nat) :
    Program.Within (runEnd j runLen stop) (fun reached => j ≤ reached ∧ reached ≤ stop) True := by
  unfold runEnd
  split
  · exact trivial
  · split
    · exact trivial
    · exact ⟨Nat.le_add_right j runLen, by omega⟩

theorem predict_within {ρ : Type} (layout : Layout ρ) (prev : Option ρ) (cur : ρ) (lane i : Nat) :
    Program.Within (predict layout prev cur lane i) (fun _ => True) True := by
  have read : ∀ result : Option Nat,
      Program.Within (access result : Except QuicFault Nat) (fun _ => True) True := fun result =>
    (Program.access_within result).weaken (fun _value _found => trivial) id
  cases i with
  | zero =>
      cases prev with
      | none => exact trivial
      | some above => exact read _
  | succ left =>
      cases prev with
      | none => exact read _
      | some above => exact (read _).bind fun _a _found => (read _).bind fun _b _found => trivial

theorem context_within (chan : ChannelDecoder) (i : Nat) :
    Program.Within (chan.context i) (fun _ => True) True := by
  cases i with
  | zero => exact trivial
  | succ left => exact (Program.index_within _ left).weaken (fun _value _found => trivial) id

theorem findBucket_within {bpc width : Nat} {chan : ChannelDecoder} (sound : chan.Sound bpc width)
    (val : UInt8) :
    Program.Within (chan.findBucket val) (fun bucket => bucket.bestcode < bpc) True := by
  refine (Program.index_within chan.bucketPtrs val.toNat).bind fun idx _pointer => ?_
  refine (Program.index_within chan.buckets idx).weaken (fun bucket found => ?_) id
  exact (sound.buckets bucket (List.mem_of_getElem? found)).best

theorem updateAt_within {bpc width : Nat} (family : bpc = 8 ∨ bpc = 5) (state : CommonState)
    (idx : Nat) {chan : ChannelDecoder} (sound : chan.Sound bpc width) :
    Program.Within (chan.updateAt (Family.init bpc) state idx) (fun chan => chan.Sound bpc width)
      True := by
  refine (context_within chan idx).bind fun val _context => ?_
  refine (Program.index_within chan.correlateRow idx).bind fun curval _residual => ?_
  refine (Program.index_within chan.bucketPtrs val.toNat).bind fun bidx _pointer => ?_
  refine (Program.index_within chan.buckets bidx).bind fun bucket found => ?_
  obtain ⟨updated, ran, soundBucket⟩ :=
    updateModel_ok family state curval (sound.buckets bucket (List.mem_of_getElem? found))
  rw [Program.bind_ok ran]
  constructor
  · intro other member
    rcases List.mem_or_eq_of_mem_set member with old | new
    · exact sound.buckets other old
    · rw [new]
      exact soundBucket
  · intro other inAlphabet
    obtain ⟨place, pointer, inside⟩ := sound.pointers other inAlphabet
    refine ⟨place, pointer, ?_⟩
    rw [List.length_set]
    exact inside
  · exact sound.row

theorem latch_within {bpc width : Nat} {chan : ChannelDecoder} (sound : chan.Sound bpc width) :
    Program.Within chan.latch (fun chan => chan.Sound bpc width) True :=
  (Program.index_within chan.correlateRow 0).bind fun _first _found =>
    { buckets := sound.buckets, pointers := sound.pointers, row := sound.row }

/-! ### Passes inside the budget -/

section Paying

variable {ρ : Type}

/-- How a decoder stops early: not at a bound of the model, and inside its budget, with
one codeword at most that was not paid for. -/
def Stranded (stream : List UInt8) (fault : QuicFault) (tracer : Tracer) : Prop :=
  fault ≠ .fuel ∧ codewords tracer.log ≤ budget stream + 1 ∧ tracer.reader.bitPos ≤ budget stream

/-- Each codeword has been paid for with a bit, and each pixel that is done with `per`. -/
structure SolventIdle (stream : List UInt8) (full : ρ → Prop) (bpc width per : Nat)
    (floor : Nat) (clock : Clock) (pass : Pass Tracer ρ) : Prop where
  clock : pass.state.clock = clock
  reader : pass.coder.reader = readerAt stream pass.coder.reader.bitPos
  inside : pass.coder.reader.bitPos ≤ budget stream
  codewords : codewords pass.coder.log ≤ pass.coder.reader.bitPos
  pixels : per * (pass.above.length * width) + floor ≤ pass.coder.reader.bitPos
  above : ∀ row ∈ pass.above, full row
  sound : ∀ chan ∈ pass.chans, chan.Sound bpc width

structure Solvent (stream : List UInt8) (full : ρ → Prop) (bpc width per : Nat)
    (floor : Nat) (clock : Clock) (pass : Pass Tracer ρ) : Prop
    extends SolventIdle stream full bpc width per floor clock pass where
  cur : full pass.cur

variable {stream : List UInt8} {full : ρ → Prop} {bpc width per floor : Nat}
  {clock : Clock} {pass : Pass Tracer ρ}

theorem Solvent.stranded (solvent : Solvent stream full bpc width per floor clock pass)
    {fault : QuicFault} (ends : fault ≠ .fuel) : Stranded stream fault pass.coder :=
  ⟨ends, Nat.le_trans solvent.codewords (Nat.le_succ_of_le solvent.inside), solvent.inside⟩

theorem Solvent.mono (solvent : Solvent stream full bpc width per floor clock pass)
    {floor' : Nat} (less : floor' ≤ floor) :
    Solvent stream full bpc width per floor' clock pass where
  clock := solvent.clock
  reader := solvent.reader
  inside := solvent.inside
  codewords := solvent.codewords
  pixels := Nat.le_trans (Nat.add_le_add_left less _) solvent.pixels
  above := solvent.above
  sound := solvent.sound
  cur := solvent.cur

theorem Solvent.retime (solvent : Solvent stream full bpc width per floor clock pass)
    (state : CommonState) :
    Solvent stream full bpc width per floor state.clock (pass.withState state) where
  clock := rfl
  reader := solvent.reader
  inside := solvent.inside
  codewords := solvent.codewords
  pixels := solvent.pixels
  above := solvent.above
  sound := solvent.sound
  cur := solvent.cur

theorem Solvent.onRow (solvent : Solvent stream full bpc width per floor clock pass)
    {cur : ρ} (fullCur : full cur) :
    Solvent stream full bpc width per floor clock { pass with cur := cur } where
  clock := solvent.clock
  reader := solvent.reader
  inside := solvent.inside
  codewords := solvent.codewords
  pixels := solvent.pixels
  above := solvent.above
  sound := solvent.sound
  cur := fullCur

variable {layout : Layout ρ} {lanes : List (Nat × Nat)} {i : Nat}

/-- A codeword that has been met, before it is paid for. -/
def Owing (stream : List UInt8) (full : ρ → Prop) (bpc width per floor : Nat) (clock : Clock)
    (event : Pass Tracer ρ → Event) (pass : Pass Tracer ρ) : Prop :=
  ∃ before, Solvent stream full bpc width per floor clock before ∧
    pass = before.note (event before)

theorem Owing.stranded {event : Pass Tracer ρ → Event}
    (owing : Owing stream full bpc width per floor clock event pass) {fault : QuicFault}
    (ends : fault ≠ .fuel) : Stranded stream fault pass.coder := by
  obtain ⟨before, solvent, rfl⟩ := owing
  have met := codewords_met (event before) before.coder.log
  have paid := solvent.codewords
  have inside := solvent.inside
  exact ⟨ends, by change codewords (event before :: before.coder.log) ≤ _; omega, inside⟩

theorem lookCode_owes (family : bpc = 8 ∨ bpc = 5) (channel i : Nat) :
    Triple (Solvent stream full bpc width per floor clock)
      (lookCode (Family.init bpc) channel i)
      (fun looked pass => (KnownCode bpc looked.1 ∧ looked.2 < 2 ^ 32) ∧
        Owing stream full bpc width per floor clock
          (fun _pass => .symbol bpc looked.1 looked.2) pass)
      fun fault (pass : Pass Tracer ρ) => Stranded stream fault pass.coder := by
  have looked : Triple (Solvent stream full bpc width per floor clock)
      (view fun pass : Pass Tracer ρ => do
        let chan ← index pass.chans channel
        let context ← chan.context i
        let bucket ← chan.findBucket context
        .ok (bucket.bestcode, pass.coder.reader.peek32))
      (fun looked pass => (looked.1 < bpc ∧ looked.2 < 2 ^ 32) ∧
        Solvent stream full bpc width per floor clock pass)
      fun fault pass => Stranded stream fault pass.coder := by
    apply Triple.view
    intro pass solvent
    have found : Program.Within (do
        let chan ← index pass.chans channel
        let context ← chan.context i
        let bucket ← chan.findBucket context
        .ok (bucket.bestcode, pass.coder.reader.peek32) : Except QuicFault (Nat × Nat))
        (fun looked => looked.1 < bpc ∧ looked.2 < 2 ^ 32) True := by
      refine (Program.index_within pass.chans channel).bind fun chan chanAt => ?_
      refine (context_within chan i).bind fun context _context => ?_
      refine (findBucket_within (solvent.sound chan (List.mem_of_getElem? chanAt)) context).bind ?_
      exact fun bucket best => ⟨best, pass.coder.reader.peek32_window.bounded⟩
    exact ⟨fun looked ran => ⟨found.returned ran, solvent⟩,
      fun fault ran => solvent.stranded (found.stopped ran)⟩
  apply looked.bind
  rintro looked pass ⟨⟨best, bounded⟩, solvent⟩
  exact ⟨⟨⟨family, best⟩, bounded⟩, pass, solvent, rfl⟩

theorem placeSymbol_pays (lawful : layout.Lawful width full lanes)
    (channel lane : Nat) (looked : Nat × Nat) :
    Triple (fun pass => (KnownCode bpc looked.1 ∧ looked.2 < 2 ^ 32) ∧
        Owing stream full bpc width per floor clock
          (fun _pass => .symbol bpc looked.1 looked.2) pass)
      (placeSymbol layout (Family.init bpc) channel lane i looked)
      (fun _ => Solvent stream full bpc width per (floor + 1) clock)
      fun fault pass => Stranded stream fault pass.coder := by
  apply Triple.within
  · rintro pass ⟨⟨known, window⟩, before, solvent, rfl⟩
    obtain ⟨value, cwlen, decoded, positive, _short, _alphabet⟩ :=
      Family.golombDecode_total known window
    rw [Program.bind_ok decoded]
    refine (Program.index_within before.chans channel).bind fun chan chanAt => ?_
    refine (Program.assign_within _ i _).bind fun correlateRow placed => ?_
    refine (predict_within layout _ _ lane i).bind fun predicted _predicted => ?_
    refine (Program.index_within _ value).bind fun residual _residual => ?_
    refine (Program.access_within _).bind fun cur written => ?_
    refine (eat_within before.coder.reader cwlen).bind ?_
    rintro reader ⟨rfl, room⟩
    have sound := solvent.sound chan (List.mem_of_getElem? chanAt)
    have paid := solvent.codewords
    have pixels := solvent.pixels
    rw [solvent.reader] at room
    constructor
    · constructor
      · exact solvent.clock
      · change before.coder.reader.skip cwlen =
          readerAt stream (before.coder.reader.bitPos + cwlen)
        rw [solvent.reader]
        rfl
      · exact room
      · change codewords (.symbol bpc looked.1 looked.2 :: before.coder.log) ≤
          before.coder.reader.bitPos + cwlen
        rw [codewords_symbol]
        omega
      · change per * (before.above.length * width) + (floor + 1) ≤
          before.coder.reader.bitPos + cwlen
        omega
      · exact solvent.above
      · intro other member
        rcases List.mem_or_eq_of_mem_set member with old | new
        · exact solvent.sound other old
        · rw [new, placed]
          exact sound.place _
    · exact lawful.written solvent.cur written
  · intro fault pass owing ends
    exact owing.2.stranded ends

theorem decodeLanes_pays (family : bpc = 8 ∨ bpc = 5) (lawful : layout.Lawful width full lanes)
    (i : Nat) (some : List (Nat × Nat)) :
    Triple (Solvent stream full bpc width per floor clock)
      (decodeLanes layout (Family.init bpc) i some)
      (fun _ => Solvent stream full bpc width per (floor + some.length) clock)
      fun fault pass => Stranded stream fault pass.coder := by
  induction some generalizing floor with
  | nil => exact Triple.pure () fun _pass solvent => solvent
  | cons lane rest ih =>
      have first : Triple (Solvent stream full bpc width per floor clock)
          (decodeLane layout (Family.init bpc) i lane)
          (fun _ => Solvent stream full bpc width per (floor + 1) clock)
          fun fault pass => Stranded stream fault pass.coder :=
        (lookCode_owes family lane.1 i).bind fun looked =>
          placeSymbol_pays lawful lane.1 lane.2 looked
      have later := @ih (floor + 1)
      have total : floor + 1 + rest.length = floor + (lane :: rest).length := by
        rw [List.length_cons]
        omega
      rw [total] at later
      exact first.bind fun _ => later

theorem decodePixel_pays (family : bpc = 8 ∨ bpc = 5) (lawful : layout.Lawful width full lanes)
    (i : Nat) :
    Triple (Solvent stream full bpc width per floor clock)
      (decodePixel layout (Family.init bpc) lanes i)
      (fun _ => Solvent stream full bpc width per (floor + lanes.length) clock)
      fun fault pass => Stranded stream fault pass.coder := by
  have cleared : Triple (Solvent stream full bpc width per floor clock)
      (clearPixel layout i) (fun _ => Solvent stream full bpc width per floor clock)
      fun fault (pass : Pass Tracer ρ) => Stranded stream fault pass.coder := by
    apply Triple.within
    · intro pass solvent
      refine (Program.access_within _).bind fun cur cleared => ?_
      exact solvent.onRow (lawful.cleared solvent.cur cleared)
    · intro fault pass solvent ends
      exact solvent.stranded ends
  exact cleared.bind fun _ => decodeLanes_pays family lawful i lanes

theorem updateModels_pays (family : bpc = 8 ∨ bpc = 5) (idx : Nat) :
    Triple (Solvent stream full bpc width per floor clock)
      (updateModelsAt (Family.init bpc) idx)
      (fun _ => Solvent stream full bpc width per floor clock)
      fun fault (pass : Pass Tracer ρ) => Stranded stream fault pass.coder := by
  apply Triple.within
  · intro pass solvent
    refine (Program.mapM_within fun chan member =>
      updateAt_within family pass.state idx (solvent.sound chan member)).bind ?_
    rintro chans ⟨_lengths, sound⟩
    exact
      { clock := solvent.clock, reader := solvent.reader, inside := solvent.inside
        codewords := solvent.codewords, pixels := solvent.pixels, above := solvent.above
        sound := sound, cur := solvent.cur }
  · intro fault pass solvent ends
    exact solvent.stranded ends

theorem closeRow_pays :
    Triple (Solvent stream full bpc width per (per * width) clock) closeRow
      (fun _ => SolventIdle stream full bpc width per 0 clock)
      fun fault (pass : Pass Tracer ρ) => Stranded stream fault pass.coder := by
  apply Triple.within
  · intro pass solvent
    refine (Program.mapM_within fun chan member => latch_within (solvent.sound chan member)).bind ?_
    rintro chans ⟨_lengths, sound⟩
    have pixels := solvent.pixels
    constructor
    · exact solvent.clock
    · exact solvent.reader
    · exact solvent.inside
    · exact solvent.codewords
    · change per * ((pass.cur :: pass.above).length * width) + 0 ≤ pass.coder.reader.bitPos
      rw [List.length_cons, Nat.succ_mul, Nat.mul_add]
      exact pixels
    · intro row member
      rcases List.mem_cons.mp member with first | later
      · exact first ▸ solvent.cur
      · exact solvent.above row later
    · exact sound
  · intro fault pass solvent ends
    exact solvent.stranded ends

theorem SolventIdle.opened (idle : SolventIdle stream full bpc width per 0 clock pass)
    {fresh : ρ} (fullFresh : full fresh) :
    Solvent stream full bpc width per 0 clock { pass with cur := fresh } where
  clock := idle.clock
  reader := idle.reader
  inside := idle.inside
  codewords := idle.codewords
  pixels := idle.pixels
  above := idle.above
  sound := idle.sound
  cur := fullFresh

theorem planeDecoder_solvent (family : bpc = 8 ∨ bpc = 5) (lawful : layout.Lawful width full lanes)
    (assertsOrder : Bool) :
    Guarded (planeDecoder layout bpc assertsOrder lanes) width (Stranded stream)
      (fun clock k =>
        Solvent stream full bpc width lanes.length (lanes.length * k) clock)
      (SolventIdle stream full bpc width lanes.length 0) full where
  clock := fun solvent => solvent.clock
  retime := fun state solvent _melc => solvent.retime state
  escapes := fun _runIndex _positive _inside _solvent =>
    ⟨false, rfl, fun impossible => absurd impossible Bool.false_ne_true⟩
  first := fun _clock _inside => decodePixel_pays family lawful 0
  pixel := fun _clock j _positive _inside => decodePixel_pays family lawful j
  run := fun _clock j _stop _positive inside _fits =>
    Triple.pure j fun _pass solvent => ⟨⟨Nat.le_refl j, Nat.le_of_lt inside⟩, solvent⟩
  models := fun _clock idx _inside => updateModels_pays family idx
  opened := fun idle fullFresh => idle.opened fullFresh
  closed := fun _clock => closeRow_pays

end Paying

/-! ### RGB32 -/

section Rgb32

variable {stream : List UInt8} {width : Nat} {clock : Clock}

theorem decodeOnePixel_pays {j : Nat} (positive : 0 < j) :
    Triple (Solvent stream (FullRow width) 8 width 0 0 clock) (decodeOnePixel j)
      (fun _ => Solvent stream (FullRow width) 8 width 0 0 clock)
      fun fault pass => Stranded stream fault pass.coder := by
  have noted : Triple (Solvent stream (FullRow width) 8 width 0 0 clock)
      (note fun pass => .pixel pass.above.length j)
      (fun _ => Solvent stream (FullRow width) 8 width 0 0 clock)
      fun fault pass => Stranded stream fault pass.coder := by
    intro pass solvent
    have paid := solvent.codewords
    rw [← codewords_pixel pass.above.length j] at paid
    exact
      { clock := solvent.clock, reader := solvent.reader, inside := solvent.inside
        codewords := paid, pixels := solvent.pixels, above := solvent.above
        sound := solvent.sound, cur := solvent.cur }
  apply noted.bind
  intro _
  rw [if_neg (Nat.pos_iff_ne_zero.mp positive)]
  exact (decodePixel_pays (Or.inl rfl) (bgra_lawful width (by decide)) j).conseq
    (fun _pass solvent => solvent) fun _value _pass solvent => solvent.mono (Nat.zero_le _)

theorem decodeRun_pays {j stop : Nat} (positive : 0 < j) (fits : stop ≤ width) :
    Triple (Solvent stream (FullRow width) 8 width 0 0 clock) (decodeRun j stop)
      (fun reached pass => (j ≤ reached ∧ reached ≤ stop) ∧
        Solvent stream (FullRow width) 8 width 0 0 clock pass)
      fun fault pass => Stranded stream fault pass.coder := by
  have noted : Triple (Solvent stream (FullRow width) 8 width 0 0 clock) (note (runEvent · j stop))
      (fun _ => Owing stream (FullRow width) 8 width 0 0 clock (runEvent · j stop))
      fun fault pass => Stranded stream fault pass.coder :=
    fun pass solvent => ⟨pass, solvent, rfl⟩
  apply noted.bind
  intro _
  apply Triple.within
  · rintro pass ⟨before, solvent, rfl⟩
    refine (decodeStateRun_within before.coder.reader before.state).bind ?_
    rintro ⟨runLen, reader, state⟩ ⟨sameClock, len, some, moved, room⟩
    refine (runEnd_within j runLen stop).bind ?_
    rintro reached ⟨forward, inside⟩
    obtain ⟨cur, copied, full, _kept, _copies⟩ :=
      doRunCopyRgb32_ok solvent.cur positive (show j + (reached - j) ≤ width by omega)
    change Program.Within (doRunCopyRgb32 before.cur j (reached - j) >>= _) _ True
    rw [Program.bind_ok copied]
    have paid := solvent.codewords
    have pixels := solvent.pixels
    dsimp only at moved sameClock
    rw [solvent.reader] at room
    refine ⟨⟨forward, inside⟩, ⟨⟨sameClock.trans solvent.clock, ?_, ?_, ?_, ?_, solvent.above,
      solvent.sound⟩, full⟩⟩
    · dsimp only
      rw [moved, solvent.reader]
      rfl
    · dsimp only
      rw [moved]
      exact room
    · change codewords (runEvent before j stop :: before.coder.log) ≤ reader.bitPos
      rw [moved, runEvent, codewords_run]
      change codewords before.coder.log + 1 ≤ before.coder.reader.bitPos + len
      omega
    · change 0 * (before.above.length * width) + 0 ≤ reader.bitPos
      rw [Nat.zero_mul]
      exact Nat.zero_le _
  · intro fault pass owing ends
    exact owing.stranded ends

theorem rgb32Decoder_solvent (stream : List UInt8) (width : Nat) :
    Guarded rgb32Decoder width (Stranded stream)
      (fun clock _ => Solvent stream (FullRow width) 8 width 0 0 clock)
      (SolventIdle stream (FullRow width) 8 width 0 0) (FullRow width) where
  clock := fun solvent => solvent.clock
  retime := fun state solvent _melc => solvent.retime state
  escapes := by
    intro clock j pass runIndex positive inside solvent
    have prev : ∀ row ∈ pass.prev, FullRow width row := fun row first =>
      solvent.above row (List.mem_of_mem_head? first)
    obtain ⟨answer, answered, met⟩ := rleMatch_ok solvent.cur prev inside runIndex
    refine ⟨answer, answered, fun yes => ?_⟩
    obtain ⟨_above, _first, _late, fresh, _rest⟩ := met.mp yes
    exact fresh
  first := fun _clock _inside =>
    (decodePixel_pays (Or.inl rfl) (bgra_lawful width (by decide)) 0).conseq
      (fun _pass solvent => solvent) fun _value _pass solvent => solvent.mono (Nat.zero_le _)
  pixel := fun _clock _j positive _inside => decodeOnePixel_pays positive
  run := fun _clock _j _stop positive _inside fits => decodeRun_pays positive fits
  models := fun _clock idx _inside => updateModels_pays (Or.inl rfl) idx
  opened := fun idle full => idle.opened full
  closed := fun _clock => closeRow_pays.conseq
    (fun _pass solvent => solvent.mono (Nat.le_of_eq (Nat.zero_mul width)))
    fun _value _pass idle => idle

end Rgb32

/-! ### The entry points -/

/-- A decoder that stops, with its codewords and its place in the stream inside the budget. -/
structure Thrifty (stream : List UInt8) (decoded : Decoded) (spent : Nat) : Prop where
  ends : decoded.outcome ≠ .error .fuel
  codewords : codewords decoded.log ≤ budget stream + 1
  spent : spent ≤ budget stream

section Entry

variable {ρ : Type} {stream : List UInt8} {full : List ρ → Prop} {bpc channels width per : Nat}

theorem startPass_solvent (stream : List UInt8) (full : List ρ → Prop) (family : bpc = 8 ∨ bpc = 5)
    (channels width per : Nat) :
    SolventIdle stream full bpc width per 0 CommonState.default.clock
      (startPass ρ (readerAt stream 0) bpc channels width) where
  clock := rfl
  reader := rfl
  inside := Nat.zero_le _
  codewords := Nat.le_refl 0
  pixels := by
    change per * (0 * width) + 0 ≤ 0
    rw [Nat.zero_mul, Nat.mul_zero]
  above := fun _row member => absurd member List.not_mem_nil
  sound := fun chan member => (newChannels_sound bpc channels width family chan member).1

theorem SolventIdle.restart {per' channels' : Nat} {clock : Clock} {pass : Pass Tracer (List ρ)}
    (idle : SolventIdle stream full bpc width per 0 clock pass) (family : bpc = 8 ∨ bpc = 5) :
    SolventIdle stream full bpc width per' 0 CommonState.default.clock
      (pass.restart bpc channels' width) where
  clock := rfl
  reader := idle.reader
  inside := idle.inside
  codewords := idle.codewords
  pixels := by
    change per' * (0 * width) + 0 ≤ _
    rw [Nat.zero_mul, Nat.mul_zero]
    exact Nat.zero_le _
  above := fun _row member => absurd member List.not_mem_nil
  sound := fun chan member => (newChannels_sound bpc channels' width family chan member).1

theorem decodeWith_thrifty (family : bpc = 8 ∨ bpc = 5) {body : Decoding (List ρ) Unit}
    (expand : List (List ρ) → List UInt8) (height : Nat)
    (walks : Triple (SolventIdle stream full bpc width per 0 CommonState.default.clock) body
      (fun _ pass => ∃ per clock, SolventIdle stream full bpc width per 0 clock pass)
      fun fault pass => Stranded stream fault pass.coder) :
    Thrifty stream (decodeWith bpc channels body expand stream width height)
      (spentWith bpc channels body stream width height) := by
  have rejected : ∀ reason, Thrifty stream { outcome := .error (.error reason), log := [] } 0 := by
    intro reason
    constructor
    · intro impossible
      cases impossible
    · exact Nat.zero_le _
    · exact Nat.zero_le _
  unfold decodeWith spentWith
  cases validateDims width height 4 with
  | error reason => exact rejected reason
  | ok size =>
      dsimp only
      unfold BitReader.newAfterHeader
      by_cases short : stream.length < QUIC_HEADER_SIZE
      · rw [if_pos short]
        exact rejected _
      · rw [if_neg short]
        have ends := walks _ (startPass_solvent stream full family channels width per)
        have first : BitReader.mk stream QUIC_HEADER_SIZE 0 = readerAt stream 0 := rfl
        dsimp only
        rw [first]
        cases ran : body (startPass ρ (readerAt stream 0) bpc channels width) with
        | ok value pass =>
            rw [ran] at ends
            obtain ⟨per, clock, idle⟩ := ends
            constructor
            · intro impossible
              cases impossible
            · exact Nat.le_succ_of_le (Nat.le_trans idle.codewords idle.inside)
            · exact idle.inside
        | error fault pass =>
            rw [ran] at ends
            constructor
            · intro same
              cases same
              exact ends.1 rfl
            · exact ends.2.1
            · exact ends.2.2

theorem phase_thrifty {coder : Coder Tracer (List ρ)} {inv : Clock → Nat → Pass Tracer (List ρ) → Prop}
    (guarded : Guarded coder width (Stranded stream) inv (SolventIdle stream full bpc width per 0)
      full) {rows : List (List ρ)} (blanks : ∀ fresh ∈ rows, full fresh) :
    Triple (SolventIdle stream full bpc width per 0 CommonState.default.clock)
      (phase coder width rows)
      (fun _ pass => ∃ per clock, SolventIdle stream full bpc width per 0 clock pass)
      fun fault pass => Stranded stream fault pass.coder :=
  (guarded.phase blanks _).conseq (fun _pass idle => idle)
    fun _value _pass ⟨clock, idle⟩ => ⟨per, clock, idle⟩

/-- An image that a decoder without runs returns has a codeword for each of its samples. -/
theorem planeDecoder_ok {layout : Layout (List ρ)} {lanes : List (Nat × Nat)}
    (family : bpc = 8 ∨ bpc = 5) (lawful : layout.Lawful width full lanes) (assertsOrder : Bool)
    {rows : List (List ρ)} {height : Nat} (count : rows.length = height)
    (blanks : ∀ fresh ∈ rows, full fresh) {expand : List (List ρ) → List UInt8}
    {pixels : List UInt8}
    (returned : (decodeWith bpc channels (phase (planeDecoder layout bpc assertsOrder lanes) width
      rows) expand stream width height).outcome = .ok pixels) :
    lanes.length * (height * width) ≤ budget stream := by
  have all := @decodeWith_spec ρ
    (fun decoded => ∀ pixels, decoded.outcome = .ok pixels →
      lanes.length * (height * width) ≤ budget stream)
    bpc channels (phase (planeDecoder layout bpc assertsOrder lanes) width rows) expand stream width
    height
  refine all ?_ ?_ pixels returned
  · intro reason pixels impossible
    cases impossible
  · intro _some _narrow
    have solvent := (planeDecoder_solvent family lawful assertsOrder).phase blanks
      CommonState.default.clock _ (startPass_solvent stream full family channels width lanes.length)
    have counted := @planePhase_count ρ layout lanes bpc assertsOrder width rows
      (startPass ρ (readerAt stream 0) bpc channels width) rfl
    cases ran : phase (planeDecoder layout bpc assertsOrder lanes) width rows
      (startPass ρ (readerAt stream 0) bpc channels width) with
    | ok value pass =>
        rw [ran] at solvent counted
        obtain ⟨clock, idle⟩ := solvent
        intro _pixels _same
        have paid := idle.pixels
        rw [counted, count] at paid
        exact Nat.le_trans paid idle.inside
    | error fault pass =>
        intro _pixels impossible
        cases impossible

end Entry

def spentRgb32 (stream : List UInt8) (width height : Nat) : Nat :=
  spentWith 8 3 (decompressRgbPhase width (blankRows 0 (4 * width) height)) stream width height

def spentRgba (stream : List UInt8) (width height : Nat) : Nat :=
  spentWith 8 3
    (decompressRgbPhase width (blankRows 0 (4 * width) height) >>= fun _ => overlay width)
    stream width height

def spentGray (stream : List UInt8) (width height : Nat) : Nat :=
  spentWith 8 1 (decompressGrayPhase width (blankRows 0 width height)) stream width height

def spentRgb16 (stream : List UInt8) (width height : Nat) : Nat :=
  spentWith 5 3 (decompressRgb16Phase width (blankRows 0 width height)) stream width height

def meteredDecoders :
    List ((List UInt8 → Nat → Nat → Decoded) × (List UInt8 → Nat → Nat → Nat)) :=
  [(traceRgb32, spentRgb32), (traceRgba, spentRgba), (traceRgb16, spentRgb16),
    (traceGray, spentGray)]

theorem rgbPhase_thrifty (stream : List UInt8) (width height : Nat) :
    Triple (SolventIdle stream (FullRow width) 8 width 0 0 CommonState.default.clock)
      (decompressRgbPhase width (blankRows 0 (4 * width) height))
      (fun _ pass => ∃ clock, SolventIdle stream (FullRow width) 8 width 0 0 clock pass)
      fun fault pass => Stranded stream fault pass.coder :=
  (rgb32Decoder_solvent stream width).phase
    (blankRows_bgra width height) _

theorem overlay_thrifty (stream : List UInt8) (width : Nat) :
    Triple (fun pass => ∃ clock, SolventIdle stream (FullRow width) 8 width 0 0 clock pass)
      (overlay width)
      (fun _ pass => ∃ per clock, SolventIdle stream (FullRow width) 8 width per 0 clock pass)
      fun fault pass => Stranded stream fault pass.coder := by
  rintro pass ⟨clock, idle⟩
  have full : ∀ row ∈ pass.above.reverse, FullRow width row := fun row member =>
    idle.above row (List.mem_reverse.mp member)
  exact phase_thrifty (planeDecoder_solvent (Or.inl rfl) (alphaPlane_lawful width) true) full
    (pass.restart 8 1 width) (idle.restart (Or.inl rfl))

theorem traceRgb32_thrifty (stream : List UInt8) (width height : Nat) :
    Thrifty stream (traceRgb32 stream width height) (spentRgb32 stream width height) :=
  decodeWith_thrifty (Or.inl rfl) _ height ((rgbPhase_thrifty stream width height).conseq
    (fun _pass idle => idle) fun _value _pass ⟨clock, idle⟩ => ⟨0, clock, idle⟩)

theorem traceRgba_thrifty (stream : List UInt8) (width height : Nat) :
    Thrifty stream (traceRgba stream width height) (spentRgba stream width height) := by
  rw [traceRgba_eq]
  exact decodeWith_thrifty (Or.inl rfl) _ height
    ((rgbPhase_thrifty stream width height).bind fun _ => overlay_thrifty stream width)

theorem traceGray_thrifty (stream : List UInt8) (width height : Nat) :
    Thrifty stream (traceGray stream width height) (spentGray stream width height) :=
  decodeWith_thrifty (Or.inl rfl) _ height (phase_thrifty
    (planeDecoder_solvent (Or.inl rfl) (grayPlane_lawful width [(0, 0)]) false)
    (blankRows_full List.length_replicate))

theorem traceRgb16_thrifty (stream : List UInt8) (width height : Nat) :
    Thrifty stream (traceRgb16 stream width height) (spentRgb16 stream width height) :=
  decodeWith_thrifty (Or.inr rfl) _ height (phase_thrifty
    (planeDecoder_solvent (Or.inr rfl) (rgb16Plane_lawful width rgbLanes) false)
    (blankRows_full List.length_replicate))

theorem budget_eq (stream : List UInt8) : budget stream = 8 * (stream.length - 20) + 32 := by
  change (stream.length - 20) * 8 + 32 = _
  rw [Nat.mul_comm]

/-- Decoding stops within its input: no decoder runs out of a loop bound, each meets at most
one codeword more than it has bits, and none consumes a bit past the end. So an image whose
every sample has a codeword has no more samples than its stream has bits. -/
theorem decoding_within_input (stream : List UInt8) (width height : Nat) :
    (∀ metered ∈ meteredDecoders,
        (metered.1 stream width height).outcome ≠ .error .fuel ∧
        codewords (metered.1 stream width height).log ≤ 8 * (stream.length - 20) + 33 ∧
        metered.2 stream width height ≤ 8 * (stream.length - 20) + 32) ∧
      (∀ bitPos len reader, (readerAt stream bitPos).eat len = .ok reader →
        reader.bitPos ≤ 8 * (stream.length - 20) + 32) ∧
      (∀ pixels, decompressGray stream width height = .ok pixels →
        width * height ≤ 8 * (stream.length - 20) + 32) ∧
      ∀ pixels, decompressRgb16 stream width height = .ok pixels →
        3 * width * height ≤ 8 * (stream.length - 20) + 32 := by
  rw [← budget_eq]
  refine ⟨?_, ?_, ?_, ?_⟩
  · intro metered listed
    have thrifty : Thrifty stream (metered.1 stream width height)
        (metered.2 stream width height) := by
      simp only [meteredDecoders, List.mem_cons, List.not_mem_nil, or_false] at listed
      rcases listed with rfl | rfl | rfl | rfl
      · exact traceRgb32_thrifty stream width height
      · exact traceRgba_thrifty stream width height
      · exact traceRgb16_thrifty stream width height
      · exact traceGray_thrifty stream width height
    have most := thrifty.codewords
    rw [budget_eq] at most
    exact ⟨thrifty.ends, most, thrifty.spent⟩
  · intro bitPos len reader eaten
    obtain ⟨same, room⟩ := (eat_within (readerAt stream bitPos) len).returned eaten
    rw [same]
    exact room
  · intro pixels returned
    have samples := planeDecoder_ok (Or.inl rfl) (grayPlane_lawful width [(0, 0)]) false
      List.length_replicate (blankRows_full List.length_replicate) returned
    rw [List.length_singleton, Nat.one_mul, Nat.mul_comm] at samples
    exact samples
  · intro pixels returned
    have samples := planeDecoder_ok (Or.inr rfl) (rgb16Plane_lawful width rgbLanes) false
      List.length_replicate (blankRows_full List.length_replicate) returned
    rw [Nat.mul_assoc, Nat.mul_comm width height]
    exact samples

end Capsaicin.Quic
