/-
The two decoders of one channel. The gray phase and the alpha phase walk rows of a
different stride by loops of their own; from one place of one stream they take the same
steps, so the gray plane is what the alpha bytes are.
-/

import Capsaicin.Library.Raster
import Capsaicin.Quic.Trace

namespace Capsaicin.Quic

open Program (Coupled Keeps Parting Triple index assign access step view)

/-- The buffer of a phase function, as its caller has allocated it. -/
structure Plane (stride height : Nat) where
  bytes : List UInt8
  size : bytes.length = height * stride

/-- A phase over a buffer, from any place of a stream, with fresh coding state and one fresh
channel. The source slices its first row whatever the height. -/
def runPhase (coder : Coder Tracer (List UInt8)) (reader : BitReader) (width : Nat)
    {stride height : Nat} (plane : Plane stride height) :
    EStateM.Result QuicFault (Pass Tracer (List UInt8)) Unit :=
  if plane.bytes.length < stride then
    .error (.panic .index) (startPass UInt8 reader 8 1 width)
  else
    phase coder width (Raster.rows stride (max 1 height) plane.bytes)
      (startPass UInt8 reader 8 1 width)

def runGrayPhase (reader : BitReader) {width height : Nat} (gray : Plane width height) :
    EStateM.Result QuicFault (Pass Tracer (List UInt8)) Unit :=
  runPhase grayDecoder reader width gray

def runAlphaPhase (reader : BitReader) {width height : Nat} (out : Plane (width * 4) height) :
    EStateM.Result QuicFault (Pass Tracer (List UInt8)) Unit :=
  runPhase alphaDecoder reader width out

/-! ### Rows -/

/-- The first `k` samples of a gray row are the alpha bytes of a BGRA row. -/
structure AlphaRow (width k : Nat) (gray bgra : List UInt8) : Prop where
  narrow : gray.length = width
  wide : bgra.length = width * 4
  samples : ∀ j, j < k → gray[j]? = bgra[j * 4 + 3]?

section Rows

variable {width k : Nat} {gray bgra : List UInt8}

theorem AlphaRow.write (row : AlphaRow width k gray bgra) (inside : k < width) (value : UInt8) :
    AlphaRow width (k + 1) (gray.set k value) (bgra.set (k * 4 + 3) value) where
  narrow := (List.length_set).trans row.narrow
  wide := (List.length_set).trans row.wide
  samples := by
    intro j below
    have inGray : k < gray.length := row.narrow ▸ inside
    have inBgra : k * 4 + 3 < bgra.length := by
      rw [row.wide]
      omega
    by_cases here : j = k
    · rw [here, List.getElem?_set_self inGray, List.getElem?_set_self inBgra]
    · rw [List.getElem?_set_ne (by omega), List.getElem?_set_ne (by omega)]
      exact row.samples j (by omega)

theorem AlphaRow.read (row : AlphaRow width k gray bgra) {j : Nat} (below : j < k) :
    grayPlane.read gray 0 j = alphaPlane.read bgra 3 j :=
  congrArg (Option.map UInt8.toNat) (row.samples j below)

/-- Whole rows one above the other. -/
abbrev AlphaRows (width : Nat) : List (List UInt8) → List (List UInt8) → Prop :=
  List.Forall₂ (AlphaRow width width)

theorem AlphaRows.predict {above above' : List (List UInt8)} (rows : AlphaRows width above above')
    (row : AlphaRow width k gray bgra) (inside : k < width) :
    predict grayPlane above.head? gray 0 k = predict alphaPlane above'.head? bgra 3 k := by
  cases k with
  | zero =>
      cases rows with
      | nil => rfl
      | cons first _rest =>
          simp only [Quic.predict, List.head?_cons]
          rw [first.read inside]
  | succ left =>
      cases rows with
      | nil =>
          simp only [Quic.predict, List.head?_nil]
          rw [row.read (Nat.lt_succ_self left)]
      | cons first _rest =>
          simp only [Quic.predict, List.head?_cons]
          rw [row.read (Nat.lt_succ_self left), first.read inside]

end Rows

/-! ### The two decoders side by side -/

/-- Both passes stand at the same place of the stream, with the same models. -/
structure LockIdle (width : Nat) (clock : Clock) (source target : Pass Tracer (List UInt8)) :
    Prop where
  reader : source.coder.reader = target.coder.reader
  state : source.state = target.state
  clock : source.state.clock = clock
  chans : source.chans = target.chans
  above : AlphaRows width source.above target.above

/-- The same inside a row of which `k` pixels are done. -/
structure LockStep (width : Nat) (clock : Clock) (k : Nat)
    (source target : Pass Tracer (List UInt8)) : Prop
    extends LockIdle width clock source target where
  cur : AlphaRow width k source.cur target.cur

abbrev Together {α : Type} (width : Nat) (before after : Nat × Clock)
    (left right : Decoding (List UInt8) α) : Prop :=
  Coupled (onCoder Parting.alike) (LockStep width before.2 before.1) left right
    fun _ => LockStep width after.2 after.1

section Lock

variable {width k : Nat} {clock : Clock}

theorem lookCode_lockstep (family : Family) (i : Nat) :
    Together width (k, clock) (k, clock) (lookCode family 0 i) (lookCode family 0 i) := by
  have looked : Together width (k, clock) (k, clock)
      (view fun pass : Pass Tracer (List UInt8) => do
        let chan ← index pass.chans 0
        let context ← chan.context i
        let bucket ← chan.findBucket context
        .ok (bucket.bestcode, pass.coder.reader.peek32))
      (view fun pass : Pass Tracer (List UInt8) => do
        let chan ← index pass.chans 0
        let context ← chan.context i
        let bucket ← chan.findBucket context
        .ok (bucket.bestcode, pass.coder.reader.peek32)) := by
    apply Program.Agree.coupled (fun _fault _source _target => rfl)
    intro source target start
    dsimp only
    rw [start.chans, start.reader]
    generalize (index target.chans 0 >>= _ : Except QuicFault (Nat × Nat)) = found
    cases found with
    | ok value => exact .ok ⟨rfl, start⟩
    | error fault => exact .error fault
  have noted : ∀ looked : Nat × Nat, Together width (k, clock) (k, clock)
      (note fun _pass => .symbol family.bpc looked.1 looked.2)
      (note fun _pass => .symbol family.bpc looked.1 looked.2) := by
    intro looked source target start
    exact Or.inl ⟨rfl,
      { reader := start.reader, state := start.state, clock := start.clock, chans := start.chans
        above := start.above, cur := start.cur }⟩
  apply looked.bind (fun _ => Keeps.never _) fun _ => Keeps.never _
  intro found
  apply (noted found).bind (fun _ => Keeps.never _) fun _ => Keeps.never _
  exact fun _ => Coupled.pure found fun _source _target start => start

theorem placeSymbol_lockstep (family : Family) (looked : Nat × Nat) (inside : k < width) :
    Together width (k, clock) (k + 1, clock) (placeSymbol grayPlane family 0 0 k looked)
      (placeSymbol alphaPlane family 0 3 k looked) := by
  apply Program.Agree.coupled (fun _fault _source _target => rfl)
  intro source target start
  have predicted := AlphaRows.predict start.above start.cur inside
  have inGray : k < source.cur.length := start.cur.narrow ▸ inside
  have inBgra : k * 4 + 3 < target.cur.length := by
    rw [start.cur.wide]
    omega
  dsimp only [Pass.prev]
  rw [start.chans, start.reader, predicted]
  refine .both _ fun symbol _decoded => ?_
  refine .both _ fun chan _chanAt => ?_
  refine .both _ fun correlateRow _placed => ?_
  refine .both _ fun guess _predicted => ?_
  refine .both _ fun residual _residualAt => ?_
  have wroteGray := setByte_ok inGray ((residual + guess) &&& bppmask family.bpc)
  have wroteBgra := setByte_ok inBgra ((residual + guess) &&& bppmask family.bpc)
  change Program.Agree _ (access (setByte source.cur k _) >>= _)
    (access (setByte target.cur (k * 4 + 3) _) >>= _)
  rw [wroteGray, wroteBgra, Program.bind_ok (Program.access_some _),
    Program.bind_ok (Program.access_some _)]
  refine .both _ fun reader _eaten => .ok ⟨rfl, ?_⟩
  exact
    { reader := rfl, state := start.state, clock := start.clock, chans := rfl
      above := start.above, cur := start.cur.write inside _ }

theorem decodePixel_lockstep (family : Family) (inside : k < width) :
    Together width (k, clock) (k + 1, clock) (decodePixel grayPlane family [(0, 0)] k)
      (decodePixel alphaPlane family [(0, 3)] k) := by
  have cleared : Together width (k, clock) (k, clock) (clearPixel grayPlane k)
      (clearPixel alphaPlane k) := fun source target start => Or.inl ⟨rfl, start⟩
  have lane : Together width (k, clock) (k + 1, clock) (decodeLane grayPlane family k (0, 0))
      (decodeLane alphaPlane family k (0, 3)) :=
    (lookCode_lockstep family k).bind (fun _ => Keeps.never _) (fun _ => Keeps.never _)
      fun looked => placeSymbol_lockstep family looked inside
  apply cleared.bind (fun _ => Keeps.never _) fun _ => Keeps.never _
  intro _
  apply lane.bind (fun _ => Keeps.never _) fun _ => Keeps.never _
  exact fun _ => Coupled.pure () fun _source _target done => done

theorem updateModels_lockstep (family : Family) (idx : Nat) :
    Together width (k, clock) (k, clock) (updateModelsAt family idx)
      (updateModelsAt family idx) := by
  apply Program.Agree.coupled (fun _fault _source _target => rfl)
  intro source target start
  dsimp only
  rw [start.chans, start.state]
  refine .both _ fun chans _updated => .ok ⟨rfl, ?_⟩
  exact
    { reader := start.reader, state := rfl
      clock := (congrArg CommonState.clock start.state.symm).trans start.clock, chans := rfl
      above := start.above, cur := start.cur }

theorem closeRow_lockstep :
    Coupled (onCoder Parting.alike) (LockStep width clock width) closeRow closeRow
      fun _ => LockIdle width clock := by
  apply Program.Agree.coupled (fun _fault _source _target => rfl)
  intro source target start
  rw [start.chans]
  refine .both _ fun chans _latched => .ok ⟨rfl, ?_⟩
  exact
    { reader := start.reader, state := start.state, clock := start.clock, chans := rfl
      above := .cons start.cur start.above }

theorem lockstep_paired (width : Nat) :
    Paired Parting.alike grayDecoder alphaDecoder width (fun clock k => LockStep width clock k)
      (LockIdle width) (AlphaRow width 0) where
  steadyLeft := steady_never grayDecoder
  steadyRight := steady_never alphaDecoder
  common := fun start => ⟨start.state, start.clock⟩
  retime := fun _state start _melc =>
    { reader := start.reader, state := rfl, clock := rfl, chans := start.chans
      above := start.above, cur := start.cur }
  escapes := fun _runIndex _positive _inside _start =>
    ⟨false, rfl, rfl, fun impossible => absurd impossible Bool.false_ne_true⟩
  first := fun _clock inside => decodePixel_lockstep _ inside
  pixel := fun _clock _j _positive inside => decodePixel_lockstep _ inside
  run := fun _clock j _stop _positive inside _fits =>
    Coupled.pure j fun _source _target start => ⟨⟨Nat.le_refl j, Nat.le_of_lt inside⟩, start⟩
  models := fun _clock idx _inside => updateModels_lockstep _ idx
  opened := fun start fresh =>
    { reader := start.reader, state := start.state, clock := start.clock, chans := start.chans
      above := start.above, cur := fresh }
  closed := fun _clock => closeRow_lockstep

end Lock

/-! ### Buffers -/

/-- The gray plane is the alpha bytes of the buffer, in their order. -/
structure ShowsAlpha (gray bgra : List UInt8) : Prop where
  size : bgra.length = gray.length * 4
  samples : ∀ k, k < gray.length → gray[k]? = bgra[k * 4 + 3]?

theorem AlphaRows.flatten {width : Nat} {rows rows' : List (List UInt8)}
    (same : AlphaRows width rows rows') : ShowsAlpha rows.flatten rows'.flatten := by
  induction same with
  | nil =>
      constructor
      · rfl
      · intro k inside
        exact absurd inside (Nat.not_lt_zero k)
  | @cons row row' rest rest' first _others ih =>
      have size := first.narrow
      have size' := first.wide
      constructor
      · rw [List.flatten_cons, List.flatten_cons, List.length_append, List.length_append, ih.size,
          size, size', Nat.add_mul]
      · intro k inside
        rw [List.flatten_cons, List.length_append] at inside
        rw [List.flatten_cons, List.flatten_cons]
        by_cases here : k < width
        · rw [List.getElem?_append_left (by omega), List.getElem?_append_left (by omega)]
          exact first.samples k here
        · rw [List.getElem?_append_right (by omega), List.getElem?_append_right (by omega)]
          have later : k * 4 + 3 - width * 4 = (k - width) * 4 + 3 := by omega
          rw [size, size', later]
          exact ih.samples (k - width) (by omega)

theorem rows_alpha {width count : Nat} {gray bgra : List UInt8}
    (long : count * width ≤ gray.length) (long' : count * (width * 4) ≤ bgra.length) :
    List.Forall₂ (AlphaRow width 0) (Raster.rows width count gray)
      (Raster.rows (width * 4) count bgra) := by
  induction count generalizing gray bgra with
  | zero => exact .nil
  | succ count ih =>
      rw [Nat.succ_mul] at long long'
      have first : AlphaRow width 0 (gray.take width) (bgra.take (width * 4)) := by
        constructor
        · rw [List.length_take]
          omega
        · rw [List.length_take]
          omega
        · intro j below
          exact absurd below (Nat.not_lt_zero j)
      refine .cons first (ih ?_ ?_)
      · rw [List.length_drop]
        omega
      · rw [List.length_drop]
        omega

theorem AlphaRows.size {width : Nat} {rows rows' : List (List UInt8)}
    (same : AlphaRows width rows rows') : rows.flatten.length = rows.length * width := by
  induction same with
  | nil => exact (Nat.zero_mul width).symm
  | cons first _others ih =>
      rw [List.flatten_cons, List.length_append, first.narrow, ih, List.length_cons, Nat.succ_mul,
        Nat.add_comm]

theorem grayPhase_count (width : Nat) (rows : List (List UInt8)) :
    Triple (fun pass => pass.above = []) (phase grayDecoder width rows)
      (fun _ pass => pass.above.length = rows.length) fun _ _ => True :=
  planePhase_count 8 false width rows

/-- How two runs of a phase over `height` rows end: at the same fault, or at the same place of
the stream in the same coding state, each with every row of its own buffer decoded, and with
the samples of the one plane as the alpha bytes of the other. -/
inductive SameEnd (width height : Nat) : EStateM.Result QuicFault (Pass Tracer (List UInt8)) Unit →
    EStateM.Result QuicFault (Pass Tracer (List UInt8)) Unit → Prop
  | returned {source target : Pass Tracer (List UInt8)}
      (rows : source.above.length = max 1 height)
      (rows' : target.above.length = max 1 height)
      (whole : source.above.reverse.flatten.length = height * width)
      (samples : ShowsAlpha source.above.reverse.flatten target.above.reverse.flatten)
      (reader : source.coder.reader = target.coder.reader)
      (state : source.state = target.state) : SameEnd width height (.ok () source) (.ok () target)
  | stopped (fault : QuicFault) {source target : Pass Tracer (List UInt8)} :
      SameEnd width height (.error fault source) (.error fault target)

/-- The gray phase and the alpha phase end alike, from any place of any stream and whatever
their buffers hold. -/
theorem gray_alpha_alike (reader : BitReader) {width height : Nat} (gray : Plane width height)
    (out : Plane (width * 4) height) :
    SameEnd width height (runGrayPhase reader gray) (runAlphaPhase reader out) := by
  unfold runGrayPhase runAlphaPhase runPhase
  have total : out.bytes.length = gray.bytes.length * 4 := by
    rw [out.size, gray.size, Nat.mul_assoc]
  by_cases short : gray.bytes.length < width
  · have short' : out.bytes.length < width * 4 := by omega
    rw [if_pos short, if_pos short']
    exact .stopped _
  · have short' : ¬ out.bytes.length < width * 4 := by omega
    have room : max 1 height * width ≤ gray.bytes.length := by
      rcases Nat.eq_zero_or_pos height with flat | some
      · have one : max 1 height = 1 := by rw [flat, Nat.max_eq_left (Nat.zero_le 1)]
        rw [one, Nat.one_mul]
        exact Nat.not_lt.mp short
      · rw [Nat.max_eq_right some, gray.size]
    have room' : max 1 height * (width * 4) ≤ out.bytes.length := by
      rw [total, ← Nat.mul_assoc]
      exact Nat.mul_le_mul_right 4 room
    rw [if_neg short, if_neg short']
    have every : max 1 height * width = height * width := by
      apply Nat.le_antisymm (gray.size ▸ room)
      exact Nat.mul_le_mul_right width (Nat.le_max_right 1 height)
    have start : LockIdle width CommonState.default.clock (startPass UInt8 reader 8 1 width)
        (startPass UInt8 reader 8 1 width) :=
      { reader := rfl, state := rfl, clock := rfl, chans := rfl, above := .nil }
    have ends := (lockstep_paired width).phase (rows_alpha room room') _ _ _ start
    have counted := grayPhase_count width (Raster.rows width (max 1 height) gray.bytes)
      (startPass UInt8 reader 8 1 width) rfl
    generalize phase grayDecoder width _ _ = left at ends counted ⊢
    generalize phase alphaDecoder width _ _ = right at ends ⊢
    cases left with
    | ok value source =>
        cases right with
        | ok value' target =>
            rcases ends with ⟨_same, clock, idle⟩ | lost | lost
            · have rows : source.above.length = max 1 height :=
                counted.trans (Raster.length_rows ..)
              have paired : AlphaRows width source.above.reverse target.above.reverse :=
                List.forall₂_reverse_iff.mpr idle.above
              have whole : source.above.reverse.flatten.length = height * width := by
                rw [paired.size, List.length_reverse, rows, every]
              exact .returned rows (idle.above.length_eq.symm.trans rows) whole paired.flatten
                idle.reader idle.state
            · exact lost.elim
            · exact lost.elim
        | error fault target =>
            rcases ends with lost | lost
            · exact lost.elim
            · exact lost.elim
    | error fault source =>
        cases right with
        | ok value' target =>
            rcases ends with lost | lost
            · exact lost.elim
            · exact lost.elim
        | error fault' target =>
            rcases ends with same | lost | lost
            · cases same
              exact .stopped fault
            · exact lost.elim
            · exact lost.elim

end Capsaicin.Quic
