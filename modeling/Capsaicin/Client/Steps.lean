/-
What the display task can do for a message, one case for each way through the arms of its
handler.
-/

import Capsaicin.Client.Dictionary

namespace Capsaicin.Client

open Net (Message)
open Program (Returns bind_eq_ok)
open Proto
open Reactive (final)

variable {jpeg : JpegDecoder} {state next : DisplayState} {msg : Message} {effects : List Effect}

/-- An event about no table. -/
def Ordinary : DisplayEvent → Prop
  | .mode .. | .mark | .monitorsConfig .. | .unhandledDraw .. | .copyRect .. => True
  | _ => False

/-- A message that neither creates a stream nor ends one. -/
structure Aside (msg : Message) : Prop where
  creates : msg.msgType = DisplayMsg.STREAM_CREATE →
    ∃ reason, StreamCreate.decode msg.body = .error reason
  destroys : msg.msgType = DisplayMsg.STREAM_DESTROY →
    ∃ reason, StreamDestroy.decode msg.body = .error reason
  ends : msg.msgType ≠ DisplayMsg.STREAM_DESTROY_ALL

def streamTypes : List Nat :=
  [DisplayMsg.STREAM_CREATE, DisplayMsg.STREAM_DESTROY, DisplayMsg.STREAM_DESTROY_ALL]

/-- The destination that a message brings along for its frame. -/
inductive Brings (msg : Message) :
    (streamId multiMediaTime : Nat) → Option Rect → List UInt8 → Prop
  | plain {d : StreamData} (type : msg.msgType = DisplayMsg.STREAM_DATA)
      (parsed : StreamData.decode msg.body = .ok d) :
      Brings msg d.header.streamId d.header.multiMediaTime none d.data
  | sized {d : StreamDataSized} (type : msg.msgType = DisplayMsg.STREAM_DATA_SIZED)
      (parsed : StreamDataSized.decode msg.body = .ok d) :
      Brings msg d.header.streamId d.header.multiMediaTime (some d.dest) d.data

inductive Acts (jpeg : JpegDecoder) (state : DisplayState) (msg : Message) :
    DisplayState → List Effect → Prop
  | replied {ping : Ping} (type : msg.msgType = Msg.PING) : Acts jpeg state msg state [pong ping]
  | announced {ack : SetAck} (type : msg.msgType = Msg.SET_ACK)
      (parsed : SetAck.decode msg.body = .ok ack) :
      Acts jpeg state msg { state with ack := AckState.onSetAck ack.window } [ackSync ack]
  | silent (other : msg.msgType ≠ Msg.SET_ACK) (aside : Aside msg) : Acts jpeg state msg state []
  | told {event : DisplayEvent} (other : msg.msgType ≠ Msg.SET_ACK) (aside : Aside msg)
      (ordinary : Ordinary event) : Acts jpeg state msg state [emit event]
  | reset (type : msg.msgType = DisplayMsg.RESET) :
      Acts jpeg state msg { state with surfaces := ∅ } [emit .reset]
  | surfaceCreated {s : SurfaceCreate} {primary : Bool}
      (type : msg.msgType = DisplayMsg.SURFACE_CREATE) :
      Acts jpeg state msg
        { state with
          surfaces := state.surfaces.insert s.surfaceId (SurfaceFormat.fromRaw s.format) }
        [emit (.surfaceCreated s.surfaceId s.width s.height (SurfaceFormat.fromRaw s.format)
          primary)]
  | surfaceDestroyed {surfaceId : Nat} (type : msg.msgType = DisplayMsg.SURFACE_DESTROY) :
      Acts jpeg state msg { state with surfaces := state.surfaces.erase surfaceId }
        [emit (.surfaceDestroyed surfaceId)]
  | filled (type : msg.msgType = DisplayMsg.DRAW_FILL) :
      Acts jpeg state msg state [emit (decodeDrawFill state msg)]
  | drawn {drawn : DisplayState} {event : DisplayEvent} (type : msg.msgType = DisplayMsg.DRAW_COPY)
      (decoded : decodeDrawCopy state msg = .ok (drawn, event)) :
      Acts jpeg state msg drawn [emit event]
  | streamCreated {s : StreamCreate} (type : msg.msgType = DisplayMsg.STREAM_CREATE)
      (parsed : StreamCreate.decode msg.body = .ok s) :
      Acts jpeg state msg
        { state with
          streams := state.streams.insert s.streamId { codec := s.codec, dest := s.dest } }
        [emit (.streamCreated s.streamId s.surfaceId s.codec s.dest s.srcWidth s.srcHeight)]
  | streamed {streamId multiMediaTime : Nat} {sizedDest : Option Rect} {payload : List UInt8}
      {effects : List Effect} (brings : Brings msg streamId multiMediaTime sizedDest payload)
      (ran : emitStreamFrame jpeg state streamId multiMediaTime sizedDest payload =
        .ok effects) : Acts jpeg state msg state effects
  | streamDestroyed {d : StreamDestroy} (type : msg.msgType = DisplayMsg.STREAM_DESTROY)
      (parsed : StreamDestroy.decode msg.body = .ok d) :
      Acts jpeg state msg { state with streams := state.streams.erase d.streamId }
        [emit (.streamDestroyed d.streamId)]
  | allDestroyed (type : msg.msgType = DisplayMsg.STREAM_DESTROY_ALL) :
      Acts jpeg state msg { state with streams := ∅ }
        (state.streams.keys.map fun id => emit (.streamDestroyed id))

theorem returns_parsed {α β : Type} {parsed : Except ProtoError α}
    {rest : α → Except DisplayFault β} {after : β → Prop}
    (good : ∀ value, parsed = .ok value → Returns (rest value) after) :
    Returns (parsed.mapError .error >>= rest) after := by
  cases parsed with
  | error reason => exact .error _
  | ok value => exact good value rfl

theorem aside_of_type {msgType : Nat} (type : msg.msgType = msgType)
    (other : msgType ∉ streamTypes) : Aside msg where
  creates := fun create => absurd (by simp [← type, create, streamTypes]) other
  destroys := fun destroy => absurd (by simp [← type, destroy, streamTypes]) other
  ends := fun all => absurd (by simp [← type, all, streamTypes]) other

theorem handleArm_acts :
    Returns (handleArm jpeg state msg) fun result => Acts jpeg state msg result.1 result.2 := by
  refine .ite (fun type => returns_parsed fun ping _parsed => .ok (.replied type)) fun _ => ?_
  refine .ite (fun type => returns_parsed fun ack parsed => .ok (.announced type parsed))
    fun other => ?_
  refine .ite (fun types => .ok (.silent other ?_)) fun _ => ?_
  · rcases types with type | type | type
    · exact aside_of_type type (by decide)
    · exact aside_of_type type (by decide)
    · exact aside_of_type type (by decide)
  have told {msgType : Nat} {event : DisplayEvent} (type : msg.msgType = msgType)
      (aside : msgType ∉ streamTypes) (ordinary : Ordinary event) :
      Acts jpeg state msg state [emit event] :=
    .told other (aside_of_type type aside) ordinary
  have silent {msgType : Nat} (type : msg.msgType = msgType) (aside : msgType ∉ streamTypes) :
      Acts jpeg state msg state [] :=
    .silent other (aside_of_type type aside)
  refine .ite (fun type => returns_parsed fun m _parsed =>
    .ok (told type (by decide) trivial)) fun _ => ?_
  refine .ite (fun type => .ok (told type (by decide) trivial)) fun _ => ?_
  refine .ite (fun type => .ok (.reset type)) fun _ => ?_
  refine .ite (fun type => returns_parsed fun s _parsed => .ok (.surfaceCreated type)) fun _ => ?_
  refine .ite (fun type => returns_parsed fun s _parsed => .ok (.surfaceDestroyed type))
    fun _ => ?_
  refine .ite (fun type => returns_parsed fun m _parsed =>
    .ok (told type (by decide) trivial)) fun _ => ?_
  refine .ite (fun type => .ok (.filled type)) fun _ => ?_
  refine .ite (fun type => Returns.bind (fun _ ran => ran) fun drawn decoded =>
    .ok (.drawn type decoded)) fun _ => ?_
  refine .ite (fun type => ?copies) fun _ => .ite (fun type => ?creates) fun notCreate =>
    .ite (fun type => ?data) fun _ => .ite (fun type => ?sized) fun _ =>
    .ite (fun type => ?destroys) fun notDestroy =>
    .ite (fun type => .ok (.allDestroyed type)) fun notAll =>
    .ok (.told other ⟨fun create => absurd create notCreate,
      fun destroy => absurd destroy notDestroy, notAll⟩ trivial)
  case copies =>
    cases CopyBits.decode msg.body with
    | ok cb => exact .ok (told type (by decide) trivial)
    | error reason => exact .ok (silent type (by decide))
  case creates =>
    cases parsed : StreamCreate.decode msg.body with
    | ok s => exact .ok (.streamCreated type parsed)
    | error reason =>
        refine .ok (.silent other ⟨fun _create => ⟨reason, parsed⟩, ?_, ?_⟩)
        · intro destroy
          rw [type] at destroy
          cases destroy
        · rw [type]
          decide
  case data =>
    cases parsed : StreamData.decode msg.body with
    | ok d =>
        exact Returns.bind (fun _ ran => ran) fun put framed =>
          .ok (.streamed (.plain type parsed) framed)
    | error reason => exact .ok (silent type (by decide))
  case sized =>
    cases parsed : StreamDataSized.decode msg.body with
    | ok d =>
        exact Returns.bind (fun _ ran => ran) fun put framed =>
          .ok (.streamed (.sized type parsed) framed)
    | error reason => exact .ok (silent type (by decide))
  case destroys =>
    cases parsed : StreamDestroy.decode msg.body with
    | ok d => exact .ok (.streamDestroyed type parsed)
    | error reason =>
        refine .ok (.silent other ⟨?_, fun _destroy => ⟨reason, parsed⟩, ?_⟩)
        · intro create
          rw [type] at create
          cases create
        · rw [type]
          decide

theorem emitStreamFrame_frames {streamId multiMediaTime : Nat} {sizedDest : Option Rect}
    {payload : List UInt8} (ran : emitStreamFrame jpeg state streamId multiMediaTime sizedDest
      payload = .ok effects) :
    effects = [] ∨ ∃ info frame, state.streams.lookup streamId = some info ∧
      info.codec = .mjpeg ∧ decodeMjpeg jpeg payload = .ok frame ∧
      effects = [emit (.streamFrame streamId multiMediaTime (sizedDest.getD info.dest)
        (.raw frame.bgra (frame.width * 4)))] := by
  unfold emitStreamFrame at ran
  cases found : state.streams.lookup streamId with
  | none =>
      rw [found] at ran
      cases ran
      exact Or.inl rfl
  | some info =>
      rw [found] at ran
      dsimp only at ran
      cases codec : info.codec with
      | mjpeg =>
          rw [codec] at ran
          rcases bind_eq_ok.mp ran with ⟨result, attempted, ran⟩
          cases result with
          | error reason =>
              cases ran
              exact Or.inl rfl
          | ok frame =>
              cases ran
              exact Or.inr ⟨info, frame, rfl, codec, attempt_ok.mp attempted, rfl⟩
      | vp8 | h264 | vp9 | h265 =>
          rw [codec] at ran
          cases ran
          exact Or.inl rfl

theorem emitStreamFrame_shows {streamId multiMediaTime : Nat} {sizedDest : Option Rect}
    {payload : List UInt8} {info : StreamInfo} {frame : DecodedFrame}
    (found : state.streams.lookup streamId = some info) (codec : info.codec = .mjpeg)
    (decoded : decodeMjpeg jpeg payload = .ok frame) :
    emitStreamFrame jpeg state streamId multiMediaTime sizedDest payload =
      .ok [emit (.streamFrame streamId multiMediaTime (sizedDest.getD info.dest)
        (.raw frame.bgra (frame.width * 4)))] := by
  unfold emitStreamFrame
  rw [found]
  dsimp only
  rw [codec, decoded]
  rfl

private theorem handleArm_plain (type : msg.msgType = DisplayMsg.STREAM_DATA) :
    handleArm jpeg state msg =
      match StreamData.decode msg.body with
      | .ok d => do
          let effects ←
            emitStreamFrame jpeg state d.header.streamId d.header.multiMediaTime none d.data
          .ok (state, effects)
      | .error _ => .ok (state, []) := by
  unfold handleArm
  rw [type]
  rfl

private theorem handleArm_sized (type : msg.msgType = DisplayMsg.STREAM_DATA_SIZED) :
    handleArm jpeg state msg =
      match StreamDataSized.decode msg.body with
      | .ok d => do
          let effects ←
            emitStreamFrame jpeg state d.header.streamId d.header.multiMediaTime (some d.dest)
              d.data
          .ok (state, effects)
      | .error _ => .ok (state, []) := by
  unfold handleArm
  rw [type]
  rfl

theorem handleArm_frames {streamId multiMediaTime : Nat} {sizedDest : Option Rect}
    {payload : List UInt8} (brings : Brings msg streamId multiMediaTime sizedDest payload) :
    handleArm jpeg state msg =
      (do
        let effects ← emitStreamFrame jpeg state streamId multiMediaTime sizedDest payload
        .ok (state, effects)) := by
  cases brings with
  | plain type parsed => rw [handleArm_plain type, parsed]
  | sized type parsed => rw [handleArm_sized type, parsed]

/-- The arms, and then the flow control. -/
theorem handle_cases (ran : handle jpeg state msg = .ok (next, effects)) :
    ∃ middle put, handleArm jpeg state msg = .ok (middle, put) ∧
      ((uncounted msg.msgType = true ∧ next = middle ∧ effects = put) ∨
        (uncounted msg.msgType = false ∧
          next = { middle with ack := middle.ack.noteMessage.1 } ∧
          effects = put ++ if middle.ack.noteMessage.2 then [ackMessage] else [])) := by
  rcases bind_eq_ok.mp ran with ⟨⟨middle, put⟩, armed, ran⟩
  refine ⟨middle, put, armed, ?_⟩
  dsimp only at ran
  split at ran
  · rename_i control
    cases ran
    exact Or.inl ⟨control, rfl, rfl⟩
  · rename_i counts
    cases ran
    refine Or.inr ⟨Bool.eq_false_iff.mpr counts, rfl, ?_⟩
    cases middle.ack.noteMessage.2 with
    | true => rfl
    | false => exact (List.append_nil put).symm

theorem displayLoop_handled (stepped : displayLoop jpeg state msg = (effects, some next)) :
    handle jpeg state msg = .ok (next, effects) := by
  unfold displayLoop at stepped
  cases handled : handle jpeg state msg with
  | error fault =>
      rw [handled] at stepped
      cases stepped
  | ok result =>
      rw [handled] at stepped
      cases stepped
      rfl

end Capsaicin.Client
