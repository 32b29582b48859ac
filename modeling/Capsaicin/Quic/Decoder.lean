/-
The four decoders: RGB32, the alpha overlay of RGBA, gray and RGB16. The reader
carries a log of what the decoder looked at, which no function reads back.
-/

import Capsaicin.Quic.Driver
import Capsaicin.Quic.Layout
import Capsaicin.Quic.Melcode

namespace Capsaicin.Quic

open Program (index assign access step view)

/-- A symbol about to be decoded (family, code and window), an entry of
`decode_one_pixel`, and a run about to be decoded (its row, segment, position in
the stream and coding state). -/
inductive Event where
  | symbol (bpc l window : Nat)
  | pixel (row i : Nat)
  | run (row start stop bitPos : Nat) (state : CommonState)
  deriving DecidableEq, Repr

structure Tracer where
  reader : BitReader
  log : List Event
  deriving DecidableEq, Repr

def Tracer.note (tracer : Tracer) (event : Event) : Tracer :=
  { tracer with log := event :: tracer.log }

section Lanes

variable {ρ : Type}

abbrev Decoding (ρ α : Type) := Coding Tracer ρ α

def Pass.note (pass : Pass Tracer ρ) (event : Event) : Pass Tracer ρ :=
  { pass with coder := pass.coder.note event }

def note (event : Pass Tracer ρ → Event) : Decoding ρ Unit :=
  step fun pass => .ok ((), pass.note (event pass))

/-- The code of the next symbol of a channel, with the window it starts at. -/
def lookCode (family : Family) (channel i : Nat) : Decoding ρ (Nat × Nat) := do
  let looked ← view fun pass => do
    let chan ← index pass.chans channel
    let context ← chan.context i
    let bucket ← chan.findBucket context
    .ok (bucket.bestcode, pass.coder.reader.peek32)
  note fun _pass => .symbol family.bpc looked.1 looked.2
  pure looked

/-- The rest of a channel's turn at pixel `i`. -/
def placeSymbol (layout : Layout ρ) (family : Family) (channel lane i : Nat) (looked : Nat × Nat) :
    Decoding ρ Unit :=
  step fun pass => do
    let symbol ← family.golombDecode looked.1 looked.2
    let chan ← index pass.chans channel
    let correlateRow ← assign chan.correlateRow i (UInt8.ofNat symbol.1)
    let predicted ← predict layout pass.prev pass.cur lane i
    let residual ← index family.xlatL2u symbol.1
    let cur ← access (layout.write pass.cur lane i ((residual + predicted) &&& bppmask family.bpc))
    let reader ← pass.coder.reader.eat symbol.2
    .ok ((),
      { pass with
        coder := { pass.coder with reader := reader }
        chans := pass.chans.set channel { chan with correlateRow := correlateRow }
        cur := cur })

/-- One channel of pixel `i`; at `i = 0` this is the body of the `pos0` functions. -/
def decodeLane (layout : Layout ρ) (family : Family) (i : Nat) (lane : Nat × Nat) :
    Decoding ρ Unit := do
  let looked ← lookCode family lane.1 i
  placeSymbol layout family lane.1 lane.2 i looked

def decodeLanes (layout : Layout ρ) (family : Family) (i : Nat) : List (Nat × Nat) → Decoding ρ Unit
  | [] => pure ()
  | lane :: rest => do
      decodeLane layout family i lane
      decodeLanes layout family i rest

def clearPixel (layout : Layout ρ) (i : Nat) : Decoding ρ Unit :=
  step fun pass => do
    let cur ← access (layout.clear pass.cur i)
    .ok ((), { pass with cur := cur })

/-- One pixel: each `(channel, lane)` in turn. -/
def decodePixel (layout : Layout ρ) (family : Family) (lanes : List (Nat × Nat)) (i : Nat) :
    Decoding ρ Unit := do
  clearPixel layout i
  decodeLanes layout family i lanes

def planeDecoder (layout : Layout ρ) (bpc : Nat) (assertsOrder : Bool) (lanes : List (Nat × Nat)) :
    Coder Tracer ρ where
  family := Family.init bpc
  assertsOrder := assertsOrder
  first := decodePixel layout (Family.init bpc) lanes 0
  pixel := decodePixel layout (Family.init bpc) lanes
  escapes := fun _prev _cur _j _runIndex => .ok false
  run := fun j _stop => pure j

end Lanes

/-! ### RGB32 -/

def decodeOnePixelPos0 : Decoding (List UInt8) Unit := decodePixel bgra (Family.init 8) rgbLanes 0

/-- The pixel on the left is read at `i - 1`, which underflows at 0. -/
def decodeOnePixel (i : Nat) : Decoding (List UInt8) Unit := do
  note fun pass => .pixel pass.above.length i
  if i = 0 then fail (.panic .overflow) else decodePixel bgra (Family.init 8) rgbLanes i

/-- `j + run_len` on `u32`, checked against the end of the segment. -/
def runEnd (j runLen stop : Nat) : Except QuicFault Nat :=
  if 2 ^ 32 ≤ j + runLen then .error (.panic .overflow)
  else if j + runLen > stop then .error (.error (.short (j + runLen - stop) 0))
  else .ok (j + runLen)

def decodeRun (j stop : Nat) : Decoding (List UInt8) Nat := do
  note fun pass => .run pass.above.length j stop pass.coder.reader.bitPos pass.state
  step fun pass => do
    let decoded ← decodeStateRun pass.coder.reader pass.state
    let reached ← runEnd j decoded.1 stop
    let cur ← doRunCopyRgb32 pass.cur j (reached - j)
    .ok (reached,
      { pass with
        coder := { pass.coder with reader := decoded.2.1 }
        state := decoded.2.2
        cur := cur })

def rgb32Decoder : Coder Tracer (List UInt8) where
  family := Family.init 8
  assertsOrder := true
  first := decodeOnePixelPos0
  pixel := decodeOnePixel
  escapes := rleMatch
  run := decodeRun

def decompressSegRgb32 : Nat → Nat → Decoding (List UInt8) Unit := seg rgb32Decoder
def decompressRowRgb32 : Nat → Decoding (List UInt8) Unit := row rgb32Decoder
def decompressRgbPhase : Nat → List (List UInt8) → Decoding (List UInt8) Unit := phase rgb32Decoder

/-! ### The single-channel decoders and RGB16 -/

def alphaDecoder : Coder Tracer (List UInt8) := planeDecoder alphaPlane 8 true [(0, 3)]
def decompressAlphaSeg : Nat → Nat → Decoding (List UInt8) Unit := seg alphaDecoder
def decompressAlphaRow : Nat → Decoding (List UInt8) Unit := row alphaDecoder
def decompressAlphaPhase : Nat → List (List UInt8) → Decoding (List UInt8) Unit := phase alphaDecoder

def grayDecoder : Coder Tracer (List UInt8) := planeDecoder grayPlane 8 false [(0, 0)]
def decompressGraySeg : Nat → Nat → Decoding (List UInt8) Unit := seg grayDecoder
def decompressGrayRow : Nat → Decoding (List UInt8) Unit := row grayDecoder
def decompressGrayPhase : Nat → List (List UInt8) → Decoding (List UInt8) Unit := phase grayDecoder

def rgb16Decoder : Coder Tracer (List Nat) := planeDecoder rgb16Plane 5 false rgbLanes
def decompressRgb16Seg : Nat → Nat → Decoding (List Nat) Unit := seg rgb16Decoder
def decompressRgb16Row : Nat → Decoding (List Nat) Unit := row rgb16Decoder
def decompressRgb16Phase : Nat → List (List Nat) → Decoding (List Nat) Unit := phase rgb16Decoder

/-! ### The entry points -/

def Pass.restart {ρ : Type} (pass : Pass Tracer (List ρ)) (bpc channels width : Nat) :
    Pass Tracer (List ρ) :=
  { pass with
    state := CommonState.default.resetRle
    chans := List.replicate channels (ChannelDecoder.new bpc width)
    above := []
    cur := [] }

def startPass (ρ : Type) (reader : BitReader) (bpc channels width : Nat) : Pass Tracer (List ρ) :=
  { coder := { reader := reader, log := [] }
    state := CommonState.default.resetRle
    chans := List.replicate channels (ChannelDecoder.new bpc width)
    above := []
    cur := [] }

/-- The result of a decoder, with its log (newest event first). -/
structure Decoded where
  outcome : Except QuicFault (List UInt8)
  log : List Event
  deriving Repr

def decodeWith {ρ : Type} (bpc channels : Nat) (body : Decoding (List ρ) Unit)
    (expand : List (List ρ) → List UInt8) (stream : List UInt8) (width height : Nat) : Decoded :=
  match validateDims width height 4 with
  | .error reason => { outcome := .error (.error reason), log := [] }
  | .ok _ =>
      match BitReader.newAfterHeader stream with
      | .error reason => { outcome := .error (.error reason), log := [] }
      | .ok reader =>
          match body (startPass ρ reader bpc channels width) with
          | .ok _ pass => { outcome := .ok (expand pass.above.reverse), log := pass.coder.log }
          | .error fault pass => { outcome := .error fault, log := pass.coder.log }

/-- The rows of a zeroed buffer. -/
def blankRows {ρ : Type} (zero : ρ) (stride height : Nat) : List (List ρ) :=
  List.replicate height (List.replicate stride zero)

theorem blankRows_full {ρ : Type} {full : List ρ → Prop} {zero : ρ} {stride height : Nat}
    (blank : full (List.replicate stride zero)) :
    ∀ fresh ∈ blankRows zero stride height, full fresh := by
  intro fresh member
  rw [List.eq_of_mem_replicate member]
  exact blank

theorem blankRows_bgra (width height : Nat) :
    ∀ fresh ∈ blankRows (0 : UInt8) (4 * width) height, FullRow width fresh :=
  blankRows_full (List.length_replicate.trans (Nat.mul_comm 4 width))

theorem blankRows_length {ρ : Type} (zero : ρ) (stride height : Nat) :
    (blankRows zero stride height).length = height := List.length_replicate

def traceRgb32 (stream : List UInt8) (width height : Nat) : Decoded :=
  decodeWith 8 3 (decompressRgbPhase width (blankRows 0 (4 * width) height)) List.flatten
    stream width height

def traceRgba (stream : List UInt8) (width height : Nat) : Decoded :=
  decodeWith 8 3
    (do
      decompressRgbPhase width (blankRows 0 (4 * width) height)
      let rows ← view fun pass => .ok pass.above.reverse
      step fun pass => .ok ((), pass.restart 8 1 width)
      decompressAlphaPhase width rows)
    List.flatten stream width height

def traceGray (stream : List UInt8) (width height : Nat) : Decoded :=
  decodeWith 8 1 (decompressGrayPhase width (blankRows 0 width height))
    (fun rows => rows.flatten.flatMap fun g => [g, g, g, 0xFF]) stream width height

def expand5 (value : Nat) : UInt8 := UInt8.ofNat ((value <<< 3) ||| (value >>> 2))

def traceRgb16 (stream : List UInt8) (width height : Nat) : Decoded :=
  decodeWith 5 3 (decompressRgb16Phase width (blankRows 0 width height))
    (fun rows => rows.flatten.flatMap fun p =>
      [expand5 (rgb16Get p 0), expand5 (rgb16Get p 1), expand5 (rgb16Get p 2), 0xFF])
    stream width height

def decompressRgb32 (stream : List UInt8) (width height : Nat) : Except QuicFault (List UInt8) :=
  (traceRgb32 stream width height).outcome

def decompressRgba (stream : List UInt8) (width height : Nat) : Except QuicFault (List UInt8) :=
  (traceRgba stream width height).outcome

def decompressGray (stream : List UInt8) (width height : Nat) : Except QuicFault (List UInt8) :=
  (traceGray stream width height).outcome

def decompressRgb16 (stream : List UInt8) (width height : Nat) : Except QuicFault (List UInt8) :=
  (traceRgb16 stream width height).outcome

/-! ### One channel's turn -/

theorem lookCode_eq {ρ : Type} {family : Family} {channel i : Nat} {pass : Pass Tracer ρ}
    {chan : ChannelDecoder} {context : UInt8} {bucket : Bucket}
    (chanAt : pass.chans[channel]? = some chan) (contextAt : chan.context i = .ok context)
    (bucketAt : chan.findBucket context = .ok bucket) :
    lookCode family channel i pass =
      .ok (bucket.bestcode, pass.coder.reader.peek32)
        (pass.note (.symbol family.bpc bucket.bestcode pass.coder.reader.peek32)) := by
  have looked : (view fun pass : Pass Tracer ρ => do
      let chan ← index pass.chans channel
      let context ← chan.context i
      let bucket ← chan.findBucket context
      .ok (bucket.bestcode, pass.coder.reader.peek32)) pass =
      .ok (bucket.bestcode, pass.coder.reader.peek32) pass := by
    apply Program.run_view_ok
    rw [Program.bind_ok (Program.index_eq_ok.mpr chanAt), Program.bind_ok contextAt,
      Program.bind_ok bucketAt]
  unfold lookCode
  exact Program.run_bind_ok looked

def Pass.placed {ρ : Type} (pass : Pass Tracer ρ) (event : Event) (channel i value : Nat)
    (chan : ChannelDecoder) (cur : ρ) (reader : BitReader) : Pass Tracer ρ :=
  { pass with
    coder := { reader := reader, log := event :: pass.coder.log }
    chans := pass.chans.set channel
      { chan with correlateRow := chan.correlateRow.set i (UInt8.ofNat value) }
    cur := cur }

section Turn

variable {ρ : Type} {layout : Layout ρ} {family : Family} {channel lane i : Nat}
  {pass : Pass Tracer ρ} {chan : ChannelDecoder} {context : UInt8} {bucket : Bucket}
  {value cwlen predicted residual : Nat} {cur : ρ}

theorem decodeLane_ends (chanAt : pass.chans[channel]? = some chan)
    (contextAt : chan.context i = .ok context) (bucketAt : chan.findBucket context = .ok bucket)
    (decoded : family.golombDecode bucket.bestcode pass.coder.reader.peek32 = .ok (value, cwlen))
    (inRow : i < chan.correlateRow.length)
    (predictedAt : predict layout pass.prev pass.cur lane i = .ok predicted)
    (residualAt : index (ε := QuicError) family.xlatL2u value = .ok residual)
    (written : layout.write pass.cur lane i ((residual + predicted) &&& bppmask family.bpc) =
      some cur) :
    (∀ reader, pass.coder.reader.eat cwlen = .ok reader →
      decodeLane layout family i (channel, lane) pass =
        .ok () (pass.placed (.symbol family.bpc bucket.bestcode pass.coder.reader.peek32) channel i
          value chan cur reader)) ∧
    ∀ fault, pass.coder.reader.eat cwlen = .error fault →
      decodeLane layout family i (channel, lane) pass =
        .error fault (pass.note (.symbol family.bpc bucket.bestcode pass.coder.reader.peek32)) := by
  unfold decodeLane
  rw [Program.run_bind_ok (lookCode_eq chanAt contextAt bucketAt)]
  apply Program.run_step_last (pass.coder.reader.eat cwlen) fun reader =>
    ((), pass.placed (.symbol family.bpc bucket.bestcode pass.coder.reader.peek32) channel i value
      chan cur reader)
  dsimp only
  rw [Program.bind_ok decoded]
  change (index pass.chans channel >>= _) = _
  rw [Program.bind_ok (Program.index_eq_ok.mpr chanAt),
    Program.bind_ok (Program.assign_of_lt _ inRow)]
  change (predict layout pass.prev pass.cur lane i >>= _) = _
  rw [Program.bind_ok predictedAt, Program.bind_ok residualAt]
  change (access (layout.write pass.cur lane i _) >>= _) = _
  rw [written, Program.bind_ok (Program.access_some cur)]
  rfl

end Turn

def runEvent (pass : Pass Tracer (List UInt8)) (j stop : Nat) : Event :=
  .run pass.above.length j stop pass.coder.reader.bitPos pass.state

private theorem decodeRun_noted (j stop : Nat) (pass : Pass Tracer (List UInt8)) :
    note (runEvent · j stop) pass = .ok () (pass.note (runEvent pass j stop)) := rfl

theorem decodeRun_eq {j stop runLen reached : Nat} {pass : Pass Tracer (List UInt8)}
    {reader : BitReader} {state : CommonState} {cur : List UInt8}
    (read : decodeStateRun pass.coder.reader pass.state = .ok (runLen, reader, state))
    (ended : runEnd j runLen stop = .ok reached)
    (copied : doRunCopyRgb32 pass.cur j (reached - j) = .ok cur) :
    decodeRun j stop pass = .ok reached
      { pass with
        coder := { reader := reader, log := runEvent pass j stop :: pass.coder.log }
        state := state
        cur := cur } := by
  unfold decodeRun
  refine (Program.run_bind_ok (decodeRun_noted j stop pass)).trans (Program.run_step_ok ?_)
  change (decodeStateRun pass.coder.reader pass.state >>= _) = _
  rw [Program.bind_ok read, Program.bind_ok ended]
  change (doRunCopyRgb32 pass.cur j (reached - j) >>= _) = _
  rw [Program.bind_ok copied]
  rfl

theorem decodeRun_unread {j stop : Nat} {pass : Pass Tracer (List UInt8)} {fault : QuicFault}
    (stopped : decodeStateRun pass.coder.reader pass.state = .error fault) :
    decodeRun j stop pass = .error fault (pass.note (runEvent pass j stop)) := by
  unfold decodeRun
  refine (Program.run_bind_ok (decodeRun_noted j stop pass)).trans (Program.run_step_error ?_)
  change (decodeStateRun pass.coder.reader pass.state >>= _) = _
  rw [stopped]
  rfl

theorem decodeRun_unended {j stop runLen : Nat} {pass : Pass Tracer (List UInt8)}
    {reader : BitReader} {state : CommonState} {fault : QuicFault}
    (read : decodeStateRun pass.coder.reader pass.state = .ok (runLen, reader, state))
    (stopped : runEnd j runLen stop = .error fault) :
    decodeRun j stop pass = .error fault (pass.note (runEvent pass j stop)) := by
  unfold decodeRun
  refine (Program.run_bind_ok (decodeRun_noted j stop pass)).trans (Program.run_step_error ?_)
  change (decodeStateRun pass.coder.reader pass.state >>= _) = _
  rw [Program.bind_ok read]
  change (runEnd j runLen stop >>= _) = _
  rw [stopped]
  rfl

end Capsaicin.Quic
