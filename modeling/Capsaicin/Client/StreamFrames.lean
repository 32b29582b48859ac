/-
The order of the rows in the frames of a stream. A `STREAM_CREATE` says in which order they are
there, but the task keeps only the codec and the destination.
-/

import Capsaicin.Client.EventTrace

namespace Capsaicin.Client

open Journal (current current_snoc)
open Net (Message)
open Proto
open Raster (upright)
open Reactive (Turn trace final)

variable {jpeg : JpegDecoder} {state next : DisplayState} {msg : Message} {effects : List Effect}

/-! ### What the messages say -/

def createdBy (msg : Message) : Option StreamCreate :=
  if msg.msgType = DisplayMsg.STREAM_CREATE then (StreamCreate.decode msg.body).toOption else none

/-- What a message says about a stream: that it is created, that it ends, or nothing. -/
def streamWord (id : Nat) (msg : Message) : Option (Option StreamCreate) :=
  if msg.msgType = DisplayMsg.STREAM_DESTROY_ALL then some none
  else if msg.msgType = DisplayMsg.STREAM_DESTROY then
    match StreamDestroy.decode msg.body with
    | .ok d => if d.streamId = id then some none else none
    | .error _ => none
  else
    match createdBy msg with
    | some s => if s.streamId = id then some (some s) else none
    | none => none

/-- The creation of a stream that has not ended. -/
def openStream (id : Nat) (past : List Message) : Option StreamCreate :=
  current (streamWord id) past

def latestCreate (id : Nat) (past : List Message) : Option StreamCreate :=
  current (fun msg => ((createdBy msg).filter fun s => s.streamId = id).map some) past

def carriedFrame (msg : Message) : Option (Nat × List UInt8) :=
  if msg.msgType = DisplayMsg.STREAM_DATA then
    (StreamData.decode msg.body).toOption.map fun d => (d.header.streamId, d.data)
  else if msg.msgType = DisplayMsg.STREAM_DATA_SIZED then
    (StreamDataSized.decode msg.body).toOption.map fun d => (d.header.streamId, d.data)
  else none

/-- The pixels of a decoded frame from the top, when its rows are there as the flag says. -/
def DecodedFrame.fromTop (frame : DecodedFrame) (topDown : Bool) : RegionPixels :=
  .raw (upright topDown (frame.width * 4) frame.height frame.bgra) (frame.width * 4)

/-- The pixels that a message promises for its stream. -/
def Promised (jpeg : JpegDecoder) (past : List Message) (msg : Message) (id : Nat)
    (pixels : RegionPixels) : Prop :=
  ∃ create payload frame, latestCreate id past = some create ∧
    carriedFrame msg = some (id, payload) ∧ decodeMjpeg jpeg payload = .ok frame ∧
      pixels = frame.fromTop create.isTopDown

def FramesTopDown (jpeg : JpegDecoder) (turns : List (Turn Message Effect)) : Prop :=
  ∀ before turn after, turns = before ++ turn :: after →
    ∀ id multiMediaTime dest pixels,
      .streamFrame id multiMediaTime dest pixels ∈ eventsOf turn.output →
        Promised jpeg (before.map Turn.input) turn.input id pixels

/-- The flag is set for every frame, or the rows are the same in reverse. -/
def FlagIdle (jpeg : JpegDecoder) (messages : List Message) : Prop :=
  ∀ before msg after, messages = before ++ msg :: after →
    ∀ id payload create frame, carriedFrame msg = some (id, payload) →
      openStream id before = some create → create.codec = .mjpeg →
      decodeMjpeg jpeg payload = .ok frame →
        create.isTopDown = true ∨ Raster.flip (frame.width * 4) frame.height frame.bgra = frame.bgra

theorem fromTop_eq_iff (frame : DecodedFrame) (topDown : Bool) :
    .raw frame.bgra (frame.width * 4) = frame.fromTop topDown ↔
      topDown = true ∨ Raster.flip (frame.width * 4) frame.height frame.bgra = frame.bgra := by
  cases topDown with
  | true => simp [DecodedFrame.fromTop, upright]
  | false => simp [DecodedFrame.fromTop, upright, eq_comm]

/-! ### The table of streams, against the messages -/

def infoOf (create : StreamCreate) : StreamInfo where
  codec := create.codec
  dest := create.dest

def Opened (past : List Message) (state : DisplayState) : Prop :=
  ∀ id, state.streams.lookup id = (openStream id past).map infoOf

theorem openStream_snoc (id : Nat) (past : List Message) (msg : Message) :
    openStream id (past ++ [msg]) = (streamWord id msg).getD (openStream id past) :=
  current_snoc past msg

theorem createdBy_eq {create : StreamCreate} (created : createdBy msg = some create) :
    msg.msgType = DisplayMsg.STREAM_CREATE ∧ StreamCreate.decode msg.body = .ok create := by
  unfold createdBy at created
  by_cases type : msg.msgType = DisplayMsg.STREAM_CREATE
  · rw [if_pos type] at created
    cases parsed : StreamCreate.decode msg.body with
    | error reason =>
        rw [parsed] at created
        cases created
    | ok s =>
        rw [parsed] at created
        cases created
        exact ⟨type, rfl⟩
  · rw [if_neg type] at created
    cases created

theorem streamWord_created {id : Nat} (notAll : msg.msgType ≠ DisplayMsg.STREAM_DESTROY_ALL)
    (notOne : msg.msgType ≠ DisplayMsg.STREAM_DESTROY) :
    streamWord id msg = ((createdBy msg).filter fun s => s.streamId = id).map some := by
  rw [streamWord, if_neg notAll, if_neg notOne]
  cases createdBy msg with
  | none => rfl
  | some s =>
      by_cases same : s.streamId = id
      · simp [same]
      · simp [same]

theorem latestCreate_of_open {id : Nat} {past : List Message} {create : StreamCreate}
    (opened : openStream id past = some create) : latestCreate id past = some create := by
  have sets {msg : Message} {create : StreamCreate} (created : createdBy msg = some create) :
      streamWord id msg = ((createdBy msg).filter fun s => s.streamId = id).map some := by
    have type := (createdBy_eq created).1
    apply streamWord_created
    · rw [type]
      decide
    · rw [type]
      decide
  apply Journal.current_kept _ _ opened
  · intro msg create word
    cases created : createdBy msg with
    | some s => rw [← word, sets created, created]
    | none =>
        unfold streamWord at word
        rw [created] at word
        split at word
        · cases word
        · split at word
          · split at word
            · split at word
              · cases word
              · cases word
            · cases word
          · cases word
  · intro msg word
    cases created : createdBy msg with
    | none => rfl
    | some s => rw [← word, sets created, created]

theorem streamWord_aside (aside : Aside msg) (id : Nat) : streamWord id msg = none := by
  have uncreated : createdBy msg = none := by
    cases created : createdBy msg with
    | none => rfl
    | some s =>
        rcases createdBy_eq created with ⟨type, parsed⟩
        rcases aside.creates type with ⟨reason, failed⟩
        rw [parsed] at failed
        cases failed
  rw [streamWord, if_neg aside.ends, uncreated]
  by_cases destroy : msg.msgType = DisplayMsg.STREAM_DESTROY
  · rcases aside.destroys destroy with ⟨reason, failed⟩
    rw [if_pos destroy, failed]
  · rw [if_neg destroy]

theorem Opened.acts {past : List Message} (opened : Opened past state)
    (acts : Acts jpeg state msg next effects) : Opened (past ++ [msg]) next := by
  have still {after : DisplayState} (same : after.streams = state.streams) (aside : Aside msg) :
      Opened (past ++ [msg]) after := by
    intro id
    rw [same, openStream_snoc, streamWord_aside aside id]
    exact opened id
  have typed {msgType : Nat} {after : DisplayState} (type : msg.msgType = msgType)
      (same : after.streams = state.streams) (other : msgType ∉ streamTypes) :
      Opened (past ++ [msg]) after := still same (aside_of_type type other)
  cases acts with
  | replied type => exact typed type rfl (by decide)
  | announced type => exact typed type rfl (by decide)
  | silent _other aside => exact still rfl aside
  | told _other aside => exact still rfl aside
  | reset type => exact typed type rfl (by decide)
  | surfaceCreated type => exact typed type rfl (by decide)
  | surfaceDestroyed type => exact typed type rfl (by decide)
  | filled type => exact typed type rfl (by decide)
  | drawn type decoded => exact typed type (decodeDrawCopy_cases decoded).1 (by decide)
  | streamed brings =>
      cases brings with
      | plain type => exact typed type rfl (by decide)
      | sized type => exact typed type rfl (by decide)
  | @streamCreated s type parsed =>
      intro id
      have created : createdBy msg = some s := by
        rw [createdBy, if_pos type, parsed]
        rfl
      have word : streamWord id msg = if s.streamId = id then some (some s) else none := by
        rw [streamWord_created (by rw [type]; decide) (by rw [type]; decide), created]
        by_cases same : s.streamId = id
        · simp [same]
        · simp [same]
      rw [openStream_snoc, word]
      refine (Journal.lookup_set state.streams id s.streamId _).trans ?_
      by_cases same : s.streamId = id
      · rw [if_pos same, if_pos same]
        rfl
      · rw [if_neg same, if_neg same]
        exact opened id
  | @streamDestroyed d type parsed =>
      intro id
      have word : streamWord id msg = if d.streamId = id then some none else none := by
        rw [streamWord, if_neg (by rw [type]; decide), if_pos type, parsed]
      rw [openStream_snoc, word]
      refine (Journal.lookup_clear state.streams id d.streamId).trans ?_
      by_cases same : d.streamId = id
      · rw [if_pos same, if_pos same]
        rfl
      · rw [if_neg same, if_neg same]
        exact opened id
  | allDestroyed type =>
      intro id
      rw [openStream_snoc, streamWord, if_pos type]
      rfl

/-! ### Frames -/

theorem brings_carried {id multiMediaTime : Nat} {sizedDest : Option Rect} {payload : List UInt8}
    (brings : Brings msg id multiMediaTime sizedDest payload) :
    carriedFrame msg = some (id, payload) := by
  cases brings with
  | plain type parsed =>
      rw [carriedFrame, if_pos type, parsed]
      rfl
  | sized type parsed =>
      rw [carriedFrame, if_neg (by rw [type]; decide), if_pos type, parsed]
      rfl

theorem Tells.shows {id multiMediaTime : Nat} {dest : Rect} {pixels : RegionPixels}
    {events : List DisplayEvent} (tells : Tells jpeg state msg events)
    (shown : .streamFrame id multiMediaTime dest pixels ∈ events) :
    ∃ info payload frame, state.streams.lookup id = some info ∧ info.codec = .mjpeg ∧
      carriedFrame msg = some (id, payload) ∧ decodeMjpeg jpeg payload = .ok frame ∧
      pixels = .raw frame.bgra (frame.width * 4) := by
  cases tells with
  | frame brings found codec decoded =>
      cases List.mem_singleton.mp shown
      exact ⟨_, _, _, found, codec, brings_carried brings, decoded, rfl⟩
  | region => cases List.mem_singleton.mp shown
  | bare bare => exact (bare _ shown trivial).elim

theorem carried_brings {id : Nat} {payload : List UInt8}
    (carried : carriedFrame msg = some (id, payload)) :
    ∃ multiMediaTime sizedDest, Brings msg id multiMediaTime sizedDest payload := by
  unfold carriedFrame at carried
  by_cases plain : msg.msgType = DisplayMsg.STREAM_DATA
  · rw [if_pos plain] at carried
    cases parsed : StreamData.decode msg.body with
    | error reason =>
        rw [parsed] at carried
        cases carried
    | ok d =>
        rw [parsed] at carried
        cases carried
        exact ⟨_, _, .plain plain parsed⟩
  · rw [if_neg plain] at carried
    by_cases sized : msg.msgType = DisplayMsg.STREAM_DATA_SIZED
    · rw [if_pos sized] at carried
      cases parsed : StreamDataSized.decode msg.body with
      | error reason =>
          rw [parsed] at carried
          cases carried
      | ok d =>
          rw [parsed] at carried
          cases carried
          exact ⟨_, _, .sized sized parsed⟩
    · rw [if_neg sized] at carried
      cases carried

theorem handle_shows {id : Nat} {payload : List UInt8} {info : StreamInfo} {frame : DecodedFrame}
    (handled : handle jpeg state msg = .ok (next, effects))
    (carried : carriedFrame msg = some (id, payload))
    (found : state.streams.lookup id = some info) (codec : info.codec = .mjpeg)
    (decoded : decodeMjpeg jpeg payload = .ok frame) :
    ∃ multiMediaTime dest,
      .streamFrame id multiMediaTime dest (.raw frame.bgra (frame.width * 4)) ∈
        eventsOf effects := by
  rcases carried_brings carried with ⟨multiMediaTime, sizedDest, brings⟩
  rcases handle_tells handled with ⟨middle, put, armed, same, _tables⟩
  rw [handleArm_frames brings, emitStreamFrame_shows found codec decoded] at armed
  cases armed
  rw [same]
  exact ⟨_, _, List.mem_singleton_self _⟩

/-- Before every turn of a run, the table of streams is what the messages have said. -/
theorem session_opened {messages : List Message} {last : DisplayState}
    {before after : List (Turn Message Effect)} {turn : Turn Message Effect}
    (ran : final (displayLoop jpeg) DisplayState.default messages = some last)
    (split : trace (displayLoop jpeg) DisplayState.default messages = before ++ turn :: after) :
    ∃ state next, Opened (before.map Turn.input) state ∧
      handle jpeg state turn.input = .ok (next, turn.output) := by
  have keeps (before : List (Turn Message Effect)) (state : DisplayState) (msg : Message)
      (effects : List Effect) (next : DisplayState)
      (opened : Opened (before.map Turn.input) state)
      (stepped : displayLoop jpeg state msg = (effects, some next)) :
      Opened ((before ++ [({ input := msg, output := effects } : Turn Message Effect)]).map
        Turn.input) next := by
    rcases handle_tells (displayLoop_handled stepped) with
      ⟨middle, put, armed, _same, streams, _surfaces⟩
    have follows := opened.acts (handleArm_acts (middle, put) armed)
    rw [List.map_append]
    unfold Opened
    rw [streams]
    exact follows
  have start : Opened (([] : List (Turn Message Effect)).map Turn.input) DisplayState.default :=
    fun _id => rfl
  rcases @Reactive.trace_history _ _ _ _ (fun turns => Opened (turns.map Turn.input)) keeps
    messages [] before after turn _ last start ran split with ⟨state, next, opened, stepped⟩
  exact ⟨state, next, opened, displayLoop_handled stepped⟩

theorem Opened.found {past : List Message} {id : Nat} {info : StreamInfo}
    (opened : Opened past state) (found : state.streams.lookup id = some info) :
    ∃ create, openStream id past = some create ∧ infoOf create = info := by
  rw [opened id, Option.map_eq_some_iff] at found
  exact found

/-- The frames of a run are top-down exactly when the flag makes no difference to any of them. -/
theorem streams_top_down_iff {messages : List Message} {last : DisplayState}
    (ran : final (displayLoop jpeg) DisplayState.default messages = some last) :
    FramesTopDown jpeg (trace (displayLoop jpeg) DisplayState.default messages) ↔
      FlagIdle jpeg messages := by
  constructor
  · intro promised past msg rest split id payload create frame carried opens codec decoded
    have inputs := (Reactive.trace_inputs ran).trans split
    rcases List.map_eq_append_iff.mp inputs with ⟨before, behind, whole, rfl, later⟩
    rcases List.map_eq_cons_iff.mp later with ⟨turn, after, rfl, rfl, _rest⟩
    rcases session_opened ran whole with ⟨state, next, opened, handled⟩
    have found : state.streams.lookup id = some (infoOf create) := by
      rw [opened id, opens]
      rfl
    rcases handle_shows handled carried found codec decoded with ⟨time, dest, shown⟩
    rcases promised before turn after whole id time dest _ shown with
      ⟨create', payload', frame', latest, carried', decoded', pixels⟩
    rw [latestCreate_of_open opens] at latest
    cases latest
    rw [carried] at carried'
    cases carried'
    rw [decoded] at decoded'
    cases decoded'
    exact (fromTop_eq_iff frame create.isTopDown).mp pixels
  · intro idle before turn after whole id time dest pixels shown
    have inputs := (congrArg (List.map Turn.input) whole).symm.trans (Reactive.trace_inputs ran)
    rw [List.map_append, List.map_cons] at inputs
    rcases session_opened ran whole with ⟨state, next, opened, handled⟩
    rcases handle_tells handled with ⟨middle, put, armed, same, _tables⟩
    rw [same] at shown
    rcases (Acts.tells (handleArm_acts (middle, put) armed)).shows shown with
      ⟨info, payload, frame, found, codec, carried, decoded, rfl⟩
    rcases opened.found found with ⟨create, opens, rfl⟩
    have either := idle _ _ _ inputs.symm id payload create frame carried opens codec decoded
    exact ⟨create, payload, frame, latestCreate_of_open opens, carried, decoded,
      (fromTop_eq_iff frame create.isTopDown).mpr either⟩

theorem streams_top_down_iff_video :
    FramesTopDown columnOfTwo (trace (displayLoop columnOfTwo) DisplayState.default
        [videoStream 0, videoFrame]) ↔
      FlagIdle columnOfTwo [videoStream 0, videoFrame] := by
  have ran : final (displayLoop columnOfTwo) DisplayState.default [videoStream 0, videoFrame] =
      some _ := rfl
  exact streams_top_down_iff ran

/-- A frame whose rows are there from the bottom, shown as if they were there from the top. -/
theorem stream_frame_upside_down :
    (final (displayLoop columnOfTwo) DisplayState.default [videoStream 0, videoFrame]).isSome = true ∧
      ¬ FramesTopDown columnOfTwo (trace (displayLoop columnOfTwo) DisplayState.default
        [videoStream 0, videoFrame]) := by
  constructor
  · rfl
  · intro promised
    rcases promised [_] _ [] videoTurns_trace 7 1 ⟨0, 0, 2, 1⟩
      (.raw [3, 2, 1, 255, 6, 5, 4, 255] 4) (List.mem_singleton_self _) with
        ⟨create, payload, frame, latest, _carried, decoded, pixels⟩
    have flag : (latestCreate 7 [videoStream 0]).map StreamCreate.isTopDown = some false := by
      decide +kernel
    have rows : decodeMjpeg columnOfTwo payload =
        .ok { width := 1, height := 2, bgra := [3, 2, 1, 255, 6, 5, 4, 255] } := rfl
    rw [rows] at decoded
    cases decoded
    change latestCreate 7 [videoStream 0] = some create at latest
    rw [latest] at flag
    rw [Option.some.inj flag] at pixels
    cases pixels

end Capsaicin.Client
