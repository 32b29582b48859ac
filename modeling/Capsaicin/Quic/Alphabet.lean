/-
Symbols on hostile input. A decoder whose stream has no escape past the alphabet
never looks outside its tables, and ends in Ok or Err unless a run leaves `u32`;
an escape past the alphabet gives a symbol that no table has.
-/

import Capsaicin.Quic.Trace

namespace Capsaicin.Quic

open Program (Keeps Triple index assign access step view)

/-- An escape past the alphabet has been met. -/
def Escaped (log : List Event) : Prop := ∃ event ∈ log, event.Known ∧ event.Escapes

def Orderly (log : List Event) : Prop := ∀ event ∈ log, event.Known ∧ ¬event.Escapes

theorem Escaped.note {log : List Event} (escaped : Escaped log) (event : Event) :
    Escaped (event :: log) := by
  obtain ⟨other, member, known, escapes⟩ := escaped
  exact ⟨other, List.mem_cons_of_mem event member, known, escapes⟩

theorem Orderly.note {log : List Event} (orderly : Orderly log) {event : Event}
    (known : event.Known) (stays : ¬event.Escapes) : Orderly (event :: log) := by
  intro other member
  rcases List.mem_cons.mp member with new | old
  · exact new ▸ ⟨known, stays⟩
  · exact orderly other old

theorem Escaped.not_orderly {log : List Event} (escaped : Escaped log) : ¬Orderly log := by
  intro orderly
  obtain ⟨event, member, _known, escapes⟩ := escaped
  exact (orderly event member).2 escapes

/-- Every run met so far ends below `2 ^ 32`. -/
def AllAddressable (stream : List UInt8) (log : List Event) : Prop :=
  ∀ event ∈ log, event.Addressable stream

theorem AllAddressable.note {stream : List UInt8} {log : List Event}
    (runs : AllAddressable stream log) {event : Event} (addressable : event.Addressable stream) :
    AllAddressable stream (event :: log) := by
  intro other member
  rcases List.mem_cons.mp member with new | old
  · exact new ▸ addressable
  · exact runs other old

/-- How a decoder may stop: once an escape has been met, anyhow; before, in Err, or
at a run that leaves `u32`. -/
def Halted (stream : List UInt8) (fault : QuicFault) (tracer : Tracer) : Prop :=
  Escaped tracer.log ∨ (Orderly tracer.log ∧
    ((AllAddressable stream tracer.log ∧ ∃ reason, fault = .error reason) ∨
      (¬AllAddressable stream tracer.log ∧ fault = .panic .overflow)))

section Walking

variable {ρ : Type}

/-- The channels can be trusted as long as no escape has been met. -/
structure Trusted (bpc channels width : Nat) (pass : Pass Tracer ρ) : Prop where
  orderly : Orderly pass.coder.log
  count : pass.chans.length = channels
  sound : AllSound bpc width pass.chans

structure WalkIdle (stream : List UInt8) (full : ρ → Prop) (bpc channels width : Nat)
    (clock : Clock) (pass : Pass Tracer ρ) : Prop where
  clock : pass.state.clock = clock
  reader : pass.coder.reader = readerAt stream pass.coder.reader.bitPos
  runs : AllAddressable stream pass.coder.log
  above : ∀ row ∈ pass.above, full row
  models : Escaped pass.coder.log ∨ Trusted bpc channels width pass

structure Walking (stream : List UInt8) (full : ρ → Prop) (bpc channels width : Nat)
    (clock : Clock) (pass : Pass Tracer ρ) : Prop
    extends WalkIdle stream full bpc channels width clock pass where
  cur : full pass.cur

variable {stream : List UInt8} {full : ρ → Prop} {bpc channels width : Nat} {clock : Clock}
  {pass : Pass Tracer ρ}

theorem Walking.prev (walking : Walking stream full bpc channels width clock pass) :
    ∀ row ∈ pass.prev, full row :=
  fun row first => walking.above row (List.mem_of_mem_head? first)

theorem Walking.retime (walking : Walking stream full bpc channels width clock pass)
    (state : CommonState) :
    Walking stream full bpc channels width state.clock (pass.withState state) where
  clock := rfl
  reader := walking.reader
  runs := walking.runs
  above := walking.above
  models := walking.models.imp id fun trusted =>
    { orderly := trusted.orderly, count := trusted.count, sound := trusted.sound }
  cur := walking.cur

theorem Walking.onRow (walking : Walking stream full bpc channels width clock pass) {cur : ρ}
    (fullCur : full cur) :
    Walking stream full bpc channels width clock { pass with cur := cur } where
  clock := walking.clock
  reader := walking.reader
  runs := walking.runs
  above := walking.above
  models := walking.models.imp id fun trusted =>
    { orderly := trusted.orderly, count := trusted.count, sound := trusted.sound }
  cur := fullCur

theorem Walking.note (walking : Walking stream full bpc channels width clock pass) (event : Event)
    (known : Trusted bpc channels width pass → event.Known)
    (addressable : event.Addressable stream) :
    Walking stream full bpc channels width clock (pass.note event) where
  clock := walking.clock
  reader := walking.reader
  runs := walking.runs.note addressable
  above := walking.above
  models := by
    rcases walking.models with escaped | trusted
    · exact Or.inl (escaped.note event)
    · by_cases escapes : event.Escapes
      · exact Or.inl ⟨event, List.mem_cons_self, known trusted, escapes⟩
      · exact Or.inr { orderly := trusted.orderly.note (known trusted) escapes
                       count := trusted.count, sound := trusted.sound }
  cur := walking.cur

variable {layout : Layout ρ} {lanes : List (Nat × Nat)} {i : Nat}

/-- After an escape a channel's turn may still return, but only into the same rows. -/
private theorem escaped_framed (lawful : layout.Lawful width full lanes) :
    Framed layout fun pass =>
      Walking stream full bpc channels width clock pass ∧ Escaped pass.coder.log where
  noted := fun _bpc _l _window start =>
    ⟨start.1.note _ (fun trusted => absurd trusted.orderly start.2.not_orderly) True.intro,
      start.2.note _⟩
  moved := fun {pass} len _chans start =>
    ⟨{ clock := start.1.clock
       reader := by
         change pass.coder.reader.skip len = readerAt stream (pass.coder.reader.bitPos + len)
         rw [start.1.reader]
         rfl
       runs := start.1.runs, above := start.1.above, models := Or.inl start.2, cur := start.1.cur },
      start.2⟩
  written := fun start written => ⟨start.1.onRow (lawful.written start.1.cur written), start.2⟩
  cleared := fun start cleared => ⟨start.1.onRow (lawful.cleared start.1.cur cleared), start.2⟩

private theorem escaped_walks {program : Decoding ρ Unit}
    (keeps : Keeps (fun pass => Walking stream full bpc channels width clock pass ∧
      Escaped pass.coder.log) program) :
    Triple (fun pass => Walking stream full bpc channels width clock pass ∧ Escaped pass.coder.log)
      program (fun _ => Walking stream full bpc channels width clock)
      fun fault pass => Halted stream fault pass.coder :=
  (keeps.conseq (fun _pass start => start) fun _value _pass kept => kept.1).relax
    fun _fault _pass kept => Or.inl kept.2

theorem decodeLane_walks (family : bpc = 8 ∨ bpc = 5) (lawful : layout.Lawful width full lanes)
    (inside : i < width) {lane : Nat × Nat} (listed : lane ∈ lanes) (channel : lane.1 < channels) :
    Triple (Walking stream full bpc channels width clock)
      (decodeLane layout (Family.init bpc) i lane)
      (fun _ => Walking stream full bpc channels width clock)
      fun fault pass => Halted stream fault pass.coder := by
  intro pass walking
  rcases walking.models with escaped | trusted
  · exact escaped_walks ((escaped_framed lawful).decodeLane _ _ _) pass ⟨walking, escaped⟩
  · have inChans : lane.1 < pass.chans.length := trusted.count ▸ channel
    have chanAt : pass.chans[lane.1]? = some pass.chans[lane.1] := List.getElem?_eq_getElem inChans
    obtain ⟨sound, symbols⟩ := trusted.sound _ (List.getElem_mem inChans)
    obtain ⟨context, contextAt, contextIn⟩ := ChannelDecoder.context_ok sound symbols inside
    obtain ⟨idx, bucket, _pointer, bucketAt, _listed, best⟩ :=
      ChannelDecoder.findBucket_ok sound contextIn
    have bounded := pass.coder.reader.peek32_window.bounded
    have known : KnownCode bpc bucket.bestcode := ⟨family, best.best⟩
    obtain ⟨value, cwlen, decoded, _positive, _short, inAlphabet⟩ :=
      Family.golombDecode_total known bounded
    have noted : Walking stream full bpc channels width clock
        (pass.note (.symbol bpc bucket.bestcode pass.coder.reader.peek32)) :=
      walking.note _ (fun _trusted => ⟨known, bounded⟩) True.intro
    by_cases overruns : Overruns bpc bucket.bestcode pass.coder.reader.peek32
    · have escaped : Escaped
          (pass.note (.symbol bpc bucket.bestcode pass.coder.reader.peek32)).coder.log :=
        ⟨_, List.mem_cons_self, ⟨known, bounded⟩, overruns⟩
      unfold decodeLane
      rw [Program.run_bind_ok (lookCode_eq chanAt contextAt bucketAt)]
      exact escaped_walks ((escaped_framed lawful).placeSymbol _ _ _ _ _) _ ⟨noted, escaped⟩
    · have orderly : Orderly
          (pass.note (.symbol bpc bucket.bestcode pass.coder.reader.peek32)).coder.log :=
        trusted.orderly.note ⟨known, bounded⟩ overruns
      have inRow : i < pass.chans[lane.1].correlateRow.length := sound.row ▸ inside
      obtain ⟨predicted, predictedAt⟩ := lawful.predict_ok walking.cur walking.prev inside listed
      obtain ⟨residual, residualAt, _small⟩ := Family.xlat_total family (inAlphabet.mpr overruns)
      obtain ⟨cur, written⟩ := lawful.write ((residual + predicted) &&& bppmask (Family.init bpc).bpc)
        walking.cur inside listed
      have turn := decodeLane_ends chanAt contextAt bucketAt decoded inRow predictedAt residualAt
        written
      by_cases room : pass.coder.reader.bitPos + cwlen ≤ pass.coder.reader.limit
      · rw [turn.1 _ (BitReader.eat_ok room)]
        have inAlphabetAfter : (UInt8.ofNat value).toNat < 2 ^ bpc := by
          rw [UInt8.toNat_ofNat']
          exact Nat.lt_of_le_of_lt (Nat.mod_le _ _) (inAlphabet.mpr overruns)
        have trustedAfter : AllSound bpc width (pass.chans.set lane.1
            { pass.chans[lane.1] with
              correlateRow := pass.chans[lane.1].correlateRow.set i (UInt8.ofNat value) }) := by
          intro chan member
          rcases List.mem_or_eq_of_mem_set member with old | new
          · exact trusted.sound chan old
          · exact new ▸ ⟨sound.place _, symbols.place inAlphabetAfter⟩
        have moved : pass.coder.reader.skip cwlen =
            readerAt stream (pass.coder.reader.bitPos + cwlen) := by
          rw [walking.reader]
          rfl
        exact
          { clock := walking.clock, reader := moved, runs := noted.runs, above := walking.above
            models := Or.inr { orderly := orderly, count := (List.length_set).trans trusted.count
                               sound := trustedAfter }
            cur := lawful.written walking.cur written }
      · obtain ⟨reason, stopped⟩ := BitReader.eat_short (Nat.not_le.mp room)
        rw [turn.2 _ stopped]
        exact Or.inr ⟨orderly, Or.inl ⟨noted.runs, reason, rfl⟩⟩

/-- The channels a pixel function may be given. -/
def Within (channels : Nat) (lanes : List (Nat × Nat)) : Prop := ∀ lane ∈ lanes, lane.1 < channels

theorem decodeLanes_walks (family : bpc = 8 ∨ bpc = 5) (lawful : layout.Lawful width full lanes)
    (inside : i < width) {some : List (Nat × Nat)} (listed : some ⊆ lanes)
    (channel : Within channels some) :
    Triple (Walking stream full bpc channels width clock)
      (decodeLanes layout (Family.init bpc) i some)
      (fun _ => Walking stream full bpc channels width clock)
      fun fault pass => Halted stream fault pass.coder := by
  induction some with
  | nil => exact Triple.pure () fun _pass walking => walking
  | cons lane rest ih =>
      apply (decodeLane_walks family lawful inside (listed List.mem_cons_self)
        (channel lane List.mem_cons_self)).bind
      exact fun _ => ih (List.subset_of_cons_subset listed)
        fun other member => channel other (List.mem_cons_of_mem lane member)

theorem decodePixel_walks (family : bpc = 8 ∨ bpc = 5) (lawful : layout.Lawful width full lanes)
    (channel : Within channels lanes) (inside : i < width) :
    Triple (Walking stream full bpc channels width clock)
      (decodePixel layout (Family.init bpc) lanes i)
      (fun _ => Walking stream full bpc channels width clock)
      fun fault pass => Halted stream fault pass.coder := by
  have cleared : Triple (Walking stream full bpc channels width clock) (clearPixel layout i)
      (fun _ => Walking stream full bpc channels width clock)
      fun fault (pass : Pass Tracer ρ) => Halted stream fault pass.coder := by
    intro pass walking
    obtain ⟨cur, cleared⟩ := lawful.clear walking.cur inside
    have ran : clearPixel layout i pass = .ok () { pass with cur := cur } := by
      apply Program.run_step_ok
      rw [cleared, Program.bind_ok (Program.access_some cur)]
    rw [ran]
    exact walking.onRow (lawful.cleared walking.cur cleared)
  exact cleared.bind fun _ => decodeLanes_walks family lawful inside (List.Subset.refl lanes) channel

theorem updateModels_walks (family : bpc = 8 ∨ bpc = 5) {idx : Nat} (inside : idx < width) :
    Triple (Walking stream full bpc channels width clock) (updateModelsAt (Family.init bpc) idx)
      (fun _ => Walking stream full bpc channels width clock)
      fun fault (pass : Pass Tracer ρ) => Halted stream fault pass.coder := by
  apply Triple.step
  · intro pass value last walking ran
    obtain ⟨chans, updated, ran⟩ := Program.bind_eq_ok.mp ran
    cases ran
    have models : Escaped pass.coder.log ∨ Trusted bpc channels width { pass with chans := chans } := by
      rcases walking.models with escaped | trusted
      · exact Or.inl escaped
      · obtain ⟨chans', again, lengths, sound⟩ :=
          updateAll_ok family pass.state trusted.sound inside
        rw [updated] at again
        cases again
        exact Or.inr { orderly := trusted.orderly, count := lengths.trans trusted.count, sound := sound }
    exact { clock := walking.clock, reader := walking.reader, runs := walking.runs
            above := walking.above, models := models, cur := walking.cur }
  · intro pass fault walking stopped
    rcases walking.models with escaped | trusted
    · exact Or.inl escaped
    · obtain ⟨chans, updated, _lengths, _sound⟩ :=
        updateAll_ok family pass.state trusted.sound inside
      rw [Program.bind_ok updated] at stopped
      cases stopped

theorem closeRow_walks (some : 0 < width) :
    Triple (Walking stream full bpc channels width clock) closeRow
      (fun _ => WalkIdle stream full bpc channels width clock)
      fun fault (pass : Pass Tracer ρ) => Halted stream fault pass.coder := by
  apply Triple.step
  · intro pass value last walking ran
    obtain ⟨chans, latched, ran⟩ := Program.bind_eq_ok.mp ran
    cases ran
    have above : ∀ row ∈ pass.cur :: pass.above, full row := by
      intro row member
      rcases List.mem_cons.mp member with first | later
      · exact first ▸ walking.cur
      · exact walking.above row later
    have models : Escaped pass.coder.log ∨
        Trusted bpc channels width { pass with chans := chans, above := pass.cur :: pass.above } := by
      rcases walking.models with escaped | trusted
      · exact Or.inl escaped
      · obtain ⟨chans', again, lengths, sound⟩ := latchAll_ok some trusted.sound
        rw [latched] at again
        cases again
        exact Or.inr { orderly := trusted.orderly, count := lengths.trans trusted.count, sound := sound }
    exact { clock := walking.clock, reader := walking.reader, runs := walking.runs, above := above
            models := models }
  · intro pass fault walking stopped
    rcases walking.models with escaped | trusted
    · exact Or.inl escaped
    · obtain ⟨chans, latched, _lengths, _sound⟩ := latchAll_ok some trusted.sound
      rw [Program.bind_ok latched] at stopped
      cases stopped

theorem WalkIdle.opened (idle : WalkIdle stream full bpc channels width clock pass) {fresh : ρ}
    (fullFresh : full fresh) :
    Walking stream full bpc channels width clock { pass with cur := fresh } where
  clock := idle.clock
  reader := idle.reader
  runs := idle.runs
  above := idle.above
  models := idle.models.imp id fun trusted =>
    { orderly := trusted.orderly, count := trusted.count, sound := trusted.sound }
  cur := fullFresh

theorem planeDecoder_guarded (family : bpc = 8 ∨ bpc = 5) (lawful : layout.Lawful width full lanes)
    (channel : Within channels lanes) (assertsOrder : Bool) (some : 0 < width) :
    Guarded (planeDecoder layout bpc assertsOrder lanes) width (Halted stream)
      (fun clock _ => Walking stream full bpc channels width clock)
      (WalkIdle stream full bpc channels width) full where
  clock := fun walking => walking.clock
  retime := fun state walking _melc => walking.retime state
  escapes := fun _runIndex _positive _inside _walking =>
    ⟨false, rfl, fun impossible => absurd impossible Bool.false_ne_true⟩
  first := fun _clock inside => decodePixel_walks family lawful channel inside
  pixel := fun _clock _j _positive inside => decodePixel_walks family lawful channel inside
  run := fun _clock j _stop _positive inside _fits =>
    Triple.pure j fun _pass walking => ⟨⟨Nat.le_refl j, Nat.le_of_lt inside⟩, walking⟩
  models := fun _clock _idx inside => updateModels_walks family inside
  opened := fun idle fullFresh => idle.opened fullFresh
  closed := fun _clock => closeRow_walks some

end Walking

section Rgb32

variable {stream : List UInt8} {width : Nat} {clock : Clock}

theorem decodeOnePixel_walks {j : Nat} (positive : 0 < j) (inside : j < width) :
    Triple (Walking stream (FullRow width) 8 3 width clock) (decodeOnePixel j)
      (fun _ => Walking stream (FullRow width) 8 3 width clock)
      fun fault pass => Halted stream fault pass.coder := by
  have noted : Triple (Walking stream (FullRow width) 8 3 width clock)
      (note fun pass => .pixel pass.above.length j)
      (fun _ => Walking stream (FullRow width) 8 3 width clock)
      fun fault pass => Halted stream fault pass.coder := by
    intro pass walking
    exact walking.note _ (fun _trusted => True.intro) True.intro
  apply noted.bind
  intro _
  rw [if_neg (Nat.pos_iff_ne_zero.mp positive)]
  exact decodePixel_walks (Or.inl rfl) (bgra_lawful width (by decide)) (by unfold Within; decide) inside

theorem decodeRun_walks {j stop : Nat} (positive : 0 < j) (fits : stop ≤ width) :
    Triple (Walking stream (FullRow width) 8 3 width clock) (decodeRun j stop)
      (fun reached pass => (j ≤ reached ∧ reached ≤ stop) ∧
        Walking stream (FullRow width) 8 3 width clock pass)
      fun fault pass => Halted stream fault pass.coder := by
  intro pass walking
  have models : Escaped (runEvent pass j stop :: pass.coder.log) ∨
      Orderly (runEvent pass j stop :: pass.coder.log) ∧ Trusted 8 3 width pass :=
    walking.models.imp (fun escaped => escaped.note _)
      fun trusted => ⟨trusted.orderly.note True.intro fun never => never, trusted⟩
  have turn := decodeRun_turn walking.reader walking.cur positive fits
  generalize decodeRun j stop pass = result at turn ⊢
  cases turn with
  | copied addressable forward inside sameClock sameLength =>
      exact ⟨⟨forward, inside⟩,
        { clock := sameClock.trans walking.clock, reader := rfl
          runs := walking.runs.note addressable, above := walking.above
          models := models.imp id fun ⟨orderly, trusted⟩ =>
            { orderly := orderly, count := trusted.count, sound := trusted.sound }
          cur := sameLength.trans walking.cur }⟩
  | refused addressable =>
      exact models.imp id fun ⟨orderly, _trusted⟩ =>
        ⟨orderly, Or.inl ⟨walking.runs.note addressable, _, rfl⟩⟩
  | overflowed tooFar =>
      exact models.imp id fun ⟨orderly, _trusted⟩ =>
        ⟨orderly, Or.inr ⟨fun all => tooFar (all _ List.mem_cons_self), rfl⟩⟩

theorem rgb32Decoder_guarded (some : 0 < width) :
    Guarded rgb32Decoder width (Halted stream)
      (fun clock _ => Walking stream (FullRow width) 8 3 width clock)
      (WalkIdle stream (FullRow width) 8 3 width) (FullRow width) where
  clock := fun walking => walking.clock
  retime := fun state walking _melc => walking.retime state
  escapes := by
    intro clock j pass runIndex positive inside walking
    obtain ⟨answer, answered, met⟩ := rleMatch_ok walking.cur walking.prev inside runIndex
    refine ⟨answer, answered, fun yes => ?_⟩
    obtain ⟨_above, _first, _late, fresh, _rest⟩ := met.mp yes
    exact fresh
  first := fun _clock inside => decodePixel_walks (Or.inl rfl) (bgra_lawful width (by decide))
    (by unfold Within; decide) inside
  pixel := fun _clock _j positive inside => decodeOnePixel_walks positive inside
  run := fun _clock _j _stop positive _inside fits => decodeRun_walks positive fits
  models := fun _clock _idx inside => updateModels_walks (Or.inl rfl) inside
  opened := fun idle full => idle.opened full
  closed := fun _clock => closeRow_walks some

end Rgb32

/-! ### The entry points -/

/-- What a decoder's log and outcome have to do with each other. -/
def Verdict (stream : List UInt8) (decoded : Decoded) : Prop :=
  Escaped decoded.log ∨ (Orderly decoded.log ∧
    ((AllAddressable stream decoded.log ∧ decoded.Answers) ∨
      (¬AllAddressable stream decoded.log ∧ decoded.outcome = .error (.panic .overflow))))

theorem Verdict.iff {stream : List UInt8} {decoded : Decoded} (verdict : Verdict stream decoded) :
    ((∀ event ∈ decoded.log, event.InAlphabet) ∧ decoded.Answers) ↔
      ∀ event ∈ decoded.log, ¬event.Escapes ∧ event.Addressable stream := by
  rcases verdict with ⟨event, member, known, escapes⟩ | ⟨orderly, ends⟩
  · constructor
    · intro holds
      exact absurd escapes ((Event.inAlphabet_iff known).mp (holds.1 event member))
    · intro holds
      exact absurd escapes (holds event member).1
  · have symbols : ∀ event ∈ decoded.log, event.InAlphabet := fun event member =>
      (Event.inAlphabet_iff (orderly event member).1).mpr (orderly event member).2
    rcases ends with ⟨runs, answers⟩ | ⟨runs, overflowed⟩
    · constructor
      · exact fun _ event member => ⟨(orderly event member).2, runs event member⟩
      · exact fun _ => ⟨symbols, answers⟩
    · constructor
      · rintro ⟨_symbols, ⟨pixels, returned⟩ | ⟨reason, returned⟩⟩
        · rw [overflowed] at returned
          cases returned
        · rw [overflowed] at returned
          cases returned
      · exact fun holds => absurd (fun event member => (holds event member).2) runs

/-- How a body that returns leaves the log. -/
def Settled (stream : List UInt8) (log : List Event) : Prop :=
  AllAddressable stream log ∧ (Escaped log ∨ Orderly log)

section Entry

variable {ρ : Type} {stream : List UInt8} {full : List ρ → Prop} {bpc channels width : Nat}

theorem WalkIdle.settled {clock : Clock} {pass : Pass Tracer (List ρ)}
    (idle : WalkIdle stream full bpc channels width clock pass) : Settled stream pass.coder.log :=
  ⟨idle.runs, idle.models.imp id fun trusted => trusted.orderly⟩

theorem startPass_walks (family : bpc = 8 ∨ bpc = 5) :
    WalkIdle stream full bpc channels width CommonState.default.clock
      (startPass ρ (readerAt stream 0) bpc channels width) where
  clock := rfl
  reader := rfl
  runs := fun _event member => absurd member List.not_mem_nil
  above := fun _row member => absurd member List.not_mem_nil
  models := Or.inr
    { orderly := fun _event member => absurd member List.not_mem_nil
      count := List.length_replicate
      sound := newChannels_sound bpc channels width family }

theorem WalkIdle.restart {bpc' channels' : Nat} {clock : Clock} {pass : Pass Tracer (List ρ)}
    (idle : WalkIdle stream full bpc channels width clock pass) (family : bpc' = 8 ∨ bpc' = 5) :
    WalkIdle stream full bpc' channels' width CommonState.default.clock
      (pass.restart bpc' channels' width) where
  clock := rfl
  reader := idle.reader
  runs := idle.runs
  above := fun _row member => absurd member List.not_mem_nil
  models := idle.models.imp id fun trusted =>
    { orderly := trusted.orderly, count := List.length_replicate
      sound := newChannels_sound bpc' channels' width family }

theorem decodeWith_verdict (family : bpc = 8 ∨ bpc = 5) {body : Decoding (List ρ) Unit}
    (expand : List (List ρ) → List UInt8) (height : Nat)
    (walks : 0 < width →
      Triple (WalkIdle stream full bpc channels width CommonState.default.clock) body
        (fun _ pass => Settled stream pass.coder.log)
        fun fault pass => Halted stream fault pass.coder) :
    Verdict stream (decodeWith bpc channels body expand stream width height) := by
  apply decodeWith_spec (Verdict stream)
  · intro reason
    exact Or.inr ⟨fun _event member => absurd member List.not_mem_nil,
      Or.inl ⟨fun _event member => absurd member List.not_mem_nil, Or.inr ⟨reason, rfl⟩⟩⟩
  · intro some _narrow
    have ends := walks some _ (startPass_walks family)
    cases ran : body (startPass ρ (readerAt stream 0) bpc channels width) with
    | ok value pass =>
        rw [ran] at ends
        exact ends.2.imp id fun orderly => ⟨orderly, Or.inl ⟨ends.1, Or.inl ⟨_, rfl⟩⟩⟩
    | error fault pass =>
        rw [ran] at ends
        rcases ends with escaped | ⟨orderly, ⟨runs, reason, stopped⟩ | ⟨runs, stopped⟩⟩
        · exact Or.inl escaped
        · exact Or.inr ⟨orderly, Or.inl ⟨runs, Or.inr ⟨reason, congrArg Except.error stopped⟩⟩⟩
        · exact Or.inr ⟨orderly, Or.inr ⟨runs, congrArg Except.error stopped⟩⟩

theorem phase_settles {coder : Coder Tracer (List ρ)}
    (guarded : Guarded coder width (Halted stream)
      (fun clock _ => Walking stream full bpc channels width clock)
      (WalkIdle stream full bpc channels width) full)
    {rows : List (List ρ)} (blanks : ∀ fresh ∈ rows, full fresh) (clock : Clock) :
    Triple (WalkIdle stream full bpc channels width clock) (phase coder width rows)
      (fun _ pass => Settled stream pass.coder.log)
      fun fault pass => Halted stream fault pass.coder :=
  (guarded.phase blanks clock).conseq (fun _pass idle => idle)
    fun _value _pass ⟨_clock, idle⟩ => idle.settled

end Entry

theorem traceRgb32_verdict (stream : List UInt8) (width height : Nat) :
    Verdict stream (traceRgb32 stream width height) :=
  decodeWith_verdict (Or.inl rfl) _ _ fun some => phase_settles (rgb32Decoder_guarded some)
    (blankRows_bgra width height) _

theorem traceRgba_verdict (stream : List UInt8) (width height : Nat) :
    Verdict stream (traceRgba stream width height) := by
  apply decodeWith_verdict (Or.inl rfl)
  intro some
  have blanks := blankRows_bgra width height
  apply ((rgb32Decoder_guarded some).phase blanks CommonState.default.clock).bind
  intro _
  have viewed : Triple
      (fun pass => ∃ clock, WalkIdle stream (FullRow width) 8 3 width clock pass)
      (view fun pass => .ok pass.above.reverse)
      (fun rows pass => (∀ row ∈ rows, FullRow width row) ∧
        ∃ clock, WalkIdle stream (FullRow width) 8 3 width clock pass)
      fun fault pass => Halted stream fault pass.coder := by
    rintro pass ⟨clock, idle⟩
    exact ⟨fun row member => idle.above row (List.mem_reverse.mp member), clock, idle⟩
  apply viewed.bind
  intro rows
  have restarted : Triple
      (fun pass => (∀ row ∈ rows, FullRow width row) ∧
        ∃ clock, WalkIdle stream (FullRow width) 8 3 width clock pass)
      (step fun pass => .ok ((), pass.restart 8 1 width))
      (fun _ pass => (∀ row ∈ rows, FullRow width row) ∧
        WalkIdle stream (FullRow width) 8 1 width CommonState.default.clock pass)
      fun fault pass => Halted stream fault pass.coder := by
    rintro pass ⟨full, clock, idle⟩
    exact ⟨full, idle.restart (Or.inl rfl)⟩
  apply restarted.bind
  rintro _ pass ⟨full, idle⟩
  have guarded : Guarded alphaDecoder width (Halted stream)
      (fun clock _ => Walking stream (FullRow width) 8 1 width clock)
      (WalkIdle stream (FullRow width) 8 1 width) (FullRow width) :=
    planeDecoder_guarded (Or.inl rfl) (alphaPlane_lawful width) (by unfold Within; decide) true some
  exact phase_settles guarded full _ pass idle

theorem traceGray_verdict (stream : List UInt8) (width height : Nat) :
    Verdict stream (traceGray stream width height) :=
  decodeWith_verdict (Or.inl rfl) _ _ fun some =>
    phase_settles
      (planeDecoder_guarded (Or.inl rfl) (grayPlane_lawful width [(0, 0)])
        (by unfold Within; decide) false some)
      (blankRows_full List.length_replicate) _

theorem traceRgb16_verdict (stream : List UInt8) (width height : Nat) :
    Verdict stream (traceRgb16 stream width height) :=
  decodeWith_verdict (Or.inr rfl) _ _ fun some =>
    phase_settles
      (planeDecoder_guarded (Or.inr rfl) (rgb16Plane_lawful width rgbLanes)
        (by unfold Within; decide) false some)
      (blankRows_full List.length_replicate) _

def decoders : List (List UInt8 → Nat → Nat → Decoded) :=
  [traceRgb32, traceRgba, traceRgb16, traceGray]

/-- On any stream: every symbol is in the alphabet of its family and the decoder ends
in Ok or Err, if and only if no codeword met is an escape past the alphabet and no
run met leaves `u32`. -/
theorem alphabet_iff (decoder : List UInt8 → Nat → Nat → Decoded) (listed : decoder ∈ decoders)
    (stream : List UInt8) (width height : Nat) :
    ((∀ event ∈ (decoder stream width height).log, event.InAlphabet) ∧
        (decoder stream width height).Answers) ↔
      ∀ event ∈ (decoder stream width height).log, ¬event.Escapes ∧ event.Addressable stream := by
  apply Verdict.iff
  simp only [decoders, List.mem_cons, List.not_mem_nil, or_false] at listed
  rcases listed with rfl | rfl | rfl | rfl
  · exact traceRgb32_verdict stream width height
  · exact traceRgba_verdict stream width height
  · exact traceRgb16_verdict stream width height
  · exact traceGray_verdict stream width height

/-- A header for 2 by 1 pixels, then for the second pixel the escape 273 of code 0. -/
def overrunStream : List UInt8 :=
  QuicHeader.encode { imageType := .rgb32, width := 2, height := 1 } ++
    Bytes.toLe 4 0x80808000 ++ Bytes.toLe 4 0x003FC000

theorem alphabet_iff_overrun :
    ((∀ event ∈ (traceRgb32 overrunStream 2 1).log, event.InAlphabet) ∧
        (traceRgb32 overrunStream 2 1).Answers) ↔
      ∀ event ∈ (traceRgb32 overrunStream 2 1).log,
        ¬event.Escapes ∧ event.Addressable overrunStream :=
  alphabet_iff traceRgb32 List.mem_cons_self overrunStream 2 1

/-- The lookup of the escape is outside its table. -/
theorem rgb32_index_panic :
    (traceRgb32 overrunStream 2 1).outcome = .error (.panic .index) ∧
      ¬∀ event ∈ (traceRgb32 overrunStream 2 1).log, event.InAlphabet := by
  have panicked : (traceRgb32 overrunStream 2 1).outcome = .error (.panic .index) := by
    decide +kernel
  have met : Event.symbol 8 0 16320 ∈ (traceRgb32 overrunStream 2 1).log := by decide +kernel
  refine ⟨panicked, fun symbols => ?_⟩
  have value : (Family.init 8).golombDecode 0 16320 = .ok (273, 26) := by decide +kernel
  exact absurd (symbols _ met 273 26 value) (by decide)

end Capsaicin.Quic
