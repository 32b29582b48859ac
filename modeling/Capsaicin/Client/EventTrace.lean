/-
The events of a display session, one after the other, against the tables of the task. What the
tables hold is what the events so far have told.
-/

import Capsaicin.Client.Steps
import Capsaicin.Library.Journal
import Mathlib.Data.List.Count

namespace Capsaicin.Client

open Journal (Last current current_told current_silent current_cleared current_snoc lookup_set
  lookup_clear)
open Net (Message)
open Proto
open Reactive (Turn trace final)

variable {jpeg : JpegDecoder} {state next : DisplayState} {msg : Message} {effects : List Effect}

/-! ### The events -/

def eventOf : Effect → Option DisplayEvent
  | .emit (.display event) => some event
  | _ => none

def eventsOf (effects : List Effect) : List DisplayEvent := effects.filterMap eventOf

def told (turns : List (Turn Message Effect)) : List DisplayEvent :=
  turns.flatMap fun turn => eventsOf turn.output

theorem eventsOf_append (first second : List Effect) :
    eventsOf (first ++ second) = eventsOf first ++ eventsOf second := List.filterMap_append

@[simp] theorem eventsOf_emit (event : DisplayEvent) : eventsOf [emit event] = [event] := rfl

theorem told_snoc (turns : List (Turn Message Effect)) (turn : Turn Message Effect) :
    told (turns ++ [turn]) = told turns ++ eventsOf turn.output := by
  rw [told, List.flatMap_append, List.flatMap_singleton]
  rfl

/-- The events that begin or end a stream. -/
def OfStream (id : Nat) : DisplayEvent → Prop
  | .streamCreated streamId .. => streamId = id
  | .streamDestroyed streamId => streamId = id
  | _ => False

def OfSurface (id : Nat) : DisplayEvent → Prop
  | .surfaceCreated surfaceId .. => surfaceId = id
  | .surfaceDestroyed surfaceId => surfaceId = id
  | .reset => True
  | _ => False

def CreatedAs (id : Nat) (info : StreamInfo) (past : List DisplayEvent) : Prop :=
  ∃ surfaceId srcWidth srcHeight, Last (OfStream id) past
    (.streamCreated id surfaceId info.codec info.dest srcWidth srcHeight)

def Live (id : Nat) (past : List DisplayEvent) : Prop := ∃ info, CreatedAs id info past

def FormattedAs (id : Nat) (format : SurfaceFormat) (past : List DisplayEvent) : Prop :=
  ∃ width height primary,
    Last (OfSurface id) past (.surfaceCreated id width height format primary)

/-- What a turn tells fits to what was told before. -/
structure Consistent (past : List DisplayEvent) (turn : Turn Message Effect) : Prop where
  frames : ∀ earlier streamId multiMediaTime destRect pixels later,
    eventsOf turn.output =
      earlier ++ .streamFrame streamId multiMediaTime destRect pixels :: later →
    ∃ dest, CreatedAs streamId { codec := .mjpeg, dest := dest } (past ++ earlier) ∧
      (turn.input.msgType ≠ DisplayMsg.STREAM_DATA_SIZED → destRect = dest)
  destroyed : turn.input.msgType = DisplayMsg.STREAM_DESTROY_ALL → ∀ streamId,
    (Live streamId past →
      (eventsOf turn.output).count (.streamDestroyed streamId) = 1) ∧
    (¬ Live streamId past → .streamDestroyed streamId ∉ eventsOf turn.output)
  regions : ∀ earlier surfaceId rect pixels format later,
    eventsOf turn.output = earlier ++ .region surfaceId rect pixels format :: later →
    FormattedAs surfaceId format (past ++ earlier) ∨
      format = .unknown 0 ∧ ∀ other, ¬ FormattedAs surfaceId other (past ++ earlier)

/-! ### The tables -/

def streamNote (id : Nat) : DisplayEvent → Option (Option StreamInfo)
  | .streamCreated streamId _ codec dest _ _ =>
      if streamId = id then some (some { codec := codec, dest := dest }) else none
  | .streamDestroyed streamId => if streamId = id then some none else none
  | _ => none

def surfaceNote (id : Nat) : DisplayEvent → Option (Option SurfaceFormat)
  | .surfaceCreated surfaceId _ _ format _ => if surfaceId = id then some (some format) else none
  | .surfaceDestroyed surfaceId => if surfaceId = id then some none else none
  | .reset => some none
  | _ => none

theorem streamNote_none {id : Nat} (event : DisplayEvent) :
    streamNote id event = none ↔ ¬ OfStream id event := by
  cases event with
  | streamCreated streamId | streamDestroyed streamId => simp [streamNote, OfStream]
  | _ => simp [streamNote, OfStream]

theorem surfaceNote_none {id : Nat} (event : DisplayEvent) :
    surfaceNote id event = none ↔ ¬ OfSurface id event := by
  cases event with
  | surfaceCreated surfaceId | surfaceDestroyed surfaceId => simp [surfaceNote, OfSurface]
  | _ => simp [surfaceNote, OfSurface]

theorem streamNote_some {id : Nat} {event : DisplayEvent} {info : StreamInfo} :
    streamNote id event = some (some info) ↔ ∃ surfaceId srcWidth srcHeight,
      event = .streamCreated id surfaceId info.codec info.dest srcWidth srcHeight := by
  constructor
  · intro note
    cases event with
    | streamCreated streamId surfaceId codec dest srcWidth srcHeight =>
        by_cases same : streamId = id
        · rw [streamNote, if_pos same] at note
          cases note
          exact ⟨surfaceId, srcWidth, srcHeight, by rw [same]⟩
        · rw [streamNote, if_neg same] at note
          cases note
    | streamDestroyed streamId =>
        by_cases same : streamId = id
        · rw [streamNote, if_pos same] at note
          cases note
        · rw [streamNote, if_neg same] at note
          cases note
    | _ => cases note
  · rintro ⟨surfaceId, srcWidth, srcHeight, rfl⟩
    exact if_pos rfl

theorem surfaceNote_some {id : Nat} {event : DisplayEvent} {format : SurfaceFormat} :
    surfaceNote id event = some (some format) ↔ ∃ width height primary,
      event = .surfaceCreated id width height format primary := by
  constructor
  · intro note
    cases event with
    | surfaceCreated surfaceId width height found primary =>
        by_cases same : surfaceId = id
        · rw [surfaceNote, if_pos same] at note
          cases note
          exact ⟨width, height, primary, by rw [same]⟩
        · rw [surfaceNote, if_neg same] at note
          cases note
    | surfaceDestroyed surfaceId =>
        by_cases same : surfaceId = id
        · rw [surfaceNote, if_pos same] at note
          cases note
        · rw [surfaceNote, if_neg same] at note
          cases note
    | _ => cases note
  · rintro ⟨width, height, primary, rfl⟩
    exact if_pos rfl

theorem createdAs_iff {id : Nat} {info : StreamInfo} {past : List DisplayEvent} :
    CreatedAs id info past ↔ current (streamNote id) past = some info := by
  rw [Journal.current_eq_some streamNote_none]
  constructor
  · rintro ⟨surfaceId, srcWidth, srcHeight, last⟩
    exact ⟨_, streamNote_some.mpr ⟨surfaceId, srcWidth, srcHeight, rfl⟩, last⟩
  · rintro ⟨event, note, last⟩
    rcases streamNote_some.mp note with ⟨surfaceId, srcWidth, srcHeight, rfl⟩
    exact ⟨surfaceId, srcWidth, srcHeight, last⟩

theorem formattedAs_iff {id : Nat} {format : SurfaceFormat} {past : List DisplayEvent} :
    FormattedAs id format past ↔ current (surfaceNote id) past = some format := by
  rw [Journal.current_eq_some surfaceNote_none]
  constructor
  · rintro ⟨width, height, primary, last⟩
    exact ⟨_, surfaceNote_some.mpr ⟨width, height, primary, rfl⟩, last⟩
  · rintro ⟨event, note, last⟩
    rcases surfaceNote_some.mp note with ⟨width, height, primary, rfl⟩
    exact ⟨width, height, primary, last⟩

/-- The tables hold what the events have told. -/
structure Tables (past : List DisplayEvent) (state : DisplayState) : Prop where
  streams : ∀ id, state.streams.lookup id = current (streamNote id) past
  surfaces : ∀ id, state.surfaces.lookup id = current (surfaceNote id) past

theorem tables_start : Tables [] DisplayState.default where
  streams := fun _id => rfl
  surfaces := fun _id => rfl

def Quiet (events : List DisplayEvent) : Prop :=
  ∀ event ∈ events, ∀ id, streamNote id event = none ∧ surfaceNote id event = none

theorem Tables.still {past later : List DisplayEvent} (tables : Tables past state)
    (streams : next.streams = state.streams) (surfaces : next.surfaces = state.surfaces)
    (quiet : Quiet later) : Tables (past ++ later) next where
  streams := by
    intro id
    rw [streams, tables.streams, current_silent fun event member => (quiet event member id).1]
  surfaces := by
    intro id
    rw [surfaces, tables.surfaces, current_silent fun event member => (quiet event member id).2]

theorem Tables.told {past : List DisplayEvent} {event : DisplayEvent} (tables : Tables past state)
    (streams : ∀ id,
      next.streams.lookup id = (streamNote id event).getD (state.streams.lookup id))
    (surfaces : ∀ id,
      next.surfaces.lookup id = (surfaceNote id event).getD (state.surfaces.lookup id)) :
    Tables (past ++ eventsOf [emit event]) next where
  streams := by
    intro id
    rw [eventsOf_emit, current_snoc, ← tables.streams]
    exact streams id
  surfaces := by
    intro id
    rw [eventsOf_emit, current_snoc, ← tables.surfaces]
    exact surfaces id

theorem quiet_nil : Quiet [] := fun _event impossible => absurd impossible List.not_mem_nil

theorem quiet_single {event : DisplayEvent}
    (silent : ∀ id, streamNote id event = none ∧ surfaceNote id event = none) : Quiet [event] := by
  intro other member
  rw [List.mem_singleton.mp member]
  exact silent

theorem quiet_ordinary {event : DisplayEvent} (ordinary : Ordinary event) : Quiet [event] := by
  apply quiet_single
  intro id
  cases event with
  | mode | mark | monitorsConfig | unhandledDraw | copyRect => exact ⟨rfl, rfl⟩
  | _ => exact False.elim ordinary

theorem decodeDrawFill_cases (state : DisplayState) (msg : Message) :
    decodeDrawFill state msg = unhandled DisplayMsg.DRAW_FILL msg.body.length ∨
      ∃ surfaceId rect pixels,
        decodeDrawFill state msg =
          .region surfaceId rect pixels (state.surfaceFormat surfaceId) := by
  unfold decodeDrawFill
  cases DrawFill.decode msg.body with
  | error reason => exact Or.inl rfl
  | ok fill =>
      dsimp only
      by_cases simple : fill.isSimpleSolid = false
      · rw [if_pos simple]
        exact Or.inl rfl
      · rw [if_neg simple]
        cases fill.solidColor with
        | none => exact Or.inl rfl
        | some color => exact Or.inr ⟨_, _, _, rfl⟩

theorem decodeDrawCopy_cases {event : DisplayEvent}
    (ran : decodeDrawCopy state msg = .ok (next, event)) :
    next.streams = state.streams ∧ next.surfaces = state.surfaces ∧
      (event = unhandled DisplayMsg.DRAW_COPY msg.body.length ∨
        ∃ surfaceId rect pixels,
          event = .region surfaceId rect pixels (state.surfaceFormat surfaceId)) := by
  cases decodeDrawCopy_outcome ran with
  | ignored => exact ⟨rfl, rfl, Or.inl rfl⟩
  | missed => exact ⟨rfl, rfl, Or.inl rfl⟩
  | drawn => exact ⟨rfl, rfl, Or.inr ⟨_, _, _, rfl⟩⟩

/-- The events with pixels. -/
def Pictured : DisplayEvent → Prop
  | .streamFrame .. | .region .. => True
  | _ => False

/-- What a step tells: a frame of a live stream, a picture in the format of its surface, or
nothing with pixels. -/
inductive Tells (jpeg : JpegDecoder) (state : DisplayState) (msg : Message) :
    List DisplayEvent → Prop
  | frame {streamId multiMediaTime : Nat} {sizedDest : Option Rect} {payload : List UInt8}
      {info : StreamInfo} {frame : DecodedFrame}
      (brings : Brings msg streamId multiMediaTime sizedDest payload)
      (found : state.streams.lookup streamId = some info) (codec : info.codec = .mjpeg)
      (decoded : decodeMjpeg jpeg payload = .ok frame) :
      Tells jpeg state msg
        [.streamFrame streamId multiMediaTime (sizedDest.getD info.dest)
          (.raw frame.bgra (frame.width * 4))]
  | region {surfaceId : Nat} {rect : Rect} {pixels : RegionPixels} :
      Tells jpeg state msg [.region surfaceId rect pixels (state.surfaceFormat surfaceId)]
  | bare {events : List DisplayEvent} (bare : ∀ event ∈ events, ¬ Pictured event) :
      Tells jpeg state msg events

theorem tells_nil : Tells jpeg state msg [] :=
  .bare fun _event impossible => absurd impossible List.not_mem_nil

theorem tells_bare {event : DisplayEvent} (bare : ¬ Pictured event) : Tells jpeg state msg [event] := by
  apply Tells.bare
  intro other member
  rw [List.mem_singleton.mp member]
  exact bare

theorem ordinary_bare {event : DisplayEvent} (ordinary : Ordinary event) : ¬ Pictured event := by
  intro pictured
  cases event with
  | streamFrame | region => exact ordinary
  | _ => exact pictured

theorem eventsOf_destroyed (ids : List Nat) :
    eventsOf (ids.map fun id => emit (.streamDestroyed id)) = ids.map .streamDestroyed := by
  induction ids with
  | nil => rfl
  | cons id rest ih =>
      rw [List.map_cons, List.map_cons, ← ih]
      rfl

theorem Acts.tells (acts : Acts jpeg state msg next effects) :
    Tells jpeg state msg (eventsOf effects) := by
  cases acts with
  | replied => exact tells_nil
  | announced => exact tells_nil
  | silent => exact tells_nil
  | told _other _aside ordinary => exact tells_bare (ordinary_bare ordinary)
  | reset => exact tells_bare id
  | surfaceCreated => exact tells_bare id
  | surfaceDestroyed => exact tells_bare id
  | streamCreated => exact tells_bare id
  | streamDestroyed => exact tells_bare id
  | filled =>
      rw [eventsOf_emit]
      rcases decodeDrawFill_cases state msg with plain | ⟨surfaceId, rect, pixels, shown⟩
      · rw [plain]
        exact tells_bare id
      · rw [shown]
        exact .region
  | drawn _type decoded =>
      rw [eventsOf_emit]
      rcases (decodeDrawCopy_cases decoded).2.2 with rfl | ⟨surfaceId, rect, pixels, rfl⟩
      · exact tells_bare id
      · exact .region
  | streamed brings ran =>
      rcases emitStreamFrame_frames ran with rfl | ⟨info, frame, found, codec, decoded, rfl⟩
      · exact tells_nil
      · exact .frame brings found codec decoded
  | allDestroyed =>
      rw [eventsOf_destroyed]
      apply Tells.bare
      intro event member
      rcases List.mem_map.mp member with ⟨streamId, _live, rfl⟩
      exact id

/-! ### Steps and runs -/

theorem quiet_region {surfaceId : Nat} {rect : Rect} {pixels : RegionPixels}
    {format : SurfaceFormat} : Quiet [.region surfaceId rect pixels format] :=
  quiet_single fun _id => ⟨rfl, rfl⟩

theorem quiet_unhandled {msgType size : Nat} : Quiet [unhandled msgType size] :=
  quiet_single fun _id => ⟨rfl, rfl⟩

/-- The tables follow the events of a step. -/
theorem Tables.acts {past : List DisplayEvent} (tables : Tables past state)
    (acts : Acts jpeg state msg next effects) : Tables (past ++ eventsOf effects) next := by
  cases acts with
  | replied => exact tables.still rfl rfl quiet_nil
  | announced => exact tables.still rfl rfl quiet_nil
  | silent => exact tables.still rfl rfl quiet_nil
  | told _other _aside ordinary => exact tables.still rfl rfl (quiet_ordinary ordinary)
  | filled =>
      rw [eventsOf_emit]
      rcases decodeDrawFill_cases state msg with plain | ⟨surfaceId, rect, pixels, shown⟩
      · rw [plain]
        exact tables.still rfl rfl quiet_unhandled
      · rw [shown]
        exact tables.still rfl rfl quiet_region
  | drawn _type decoded =>
      rw [eventsOf_emit]
      rcases decodeDrawCopy_cases decoded with
        ⟨streams, surfaces, rfl | ⟨surfaceId, rect, pixels, rfl⟩⟩
      · exact tables.still streams surfaces quiet_unhandled
      · exact tables.still streams surfaces quiet_region
  | streamed brings ran =>
      rcases emitStreamFrame_frames ran with rfl | ⟨info, frame, _found, _codec, _decoded, rfl⟩
      · exact tables.still rfl rfl quiet_nil
      · exact tables.still rfl rfl (quiet_single fun _id => ⟨rfl, rfl⟩)
  | reset => exact tables.told (fun _id => rfl) fun _id => rfl
  | surfaceCreated => exact tables.told (fun _id => rfl) fun id => lookup_set state.surfaces id _ _
  | surfaceDestroyed => exact tables.told (fun _id => rfl) fun id => lookup_clear state.surfaces id _
  | streamCreated => exact tables.told (fun id => lookup_set state.streams id _ _) fun _id => rfl
  | streamDestroyed => exact tables.told (fun id => lookup_clear state.streams id _) fun _id => rfl
  | allDestroyed =>
      rw [eventsOf_destroyed]
      constructor
      · intro id
        refine (current_cleared ?_ ?_).symm
        · intro event member
          rcases List.mem_map.mp member with ⟨streamId, _live, rfl⟩
          by_cases same : streamId = id
          · exact Or.inr (if_pos same)
          · exact Or.inl (if_neg same)
        · rw [← tables.streams]
          by_cases live : id ∈ state.streams
          · exact Or.inr ⟨_, List.mem_map_of_mem live, if_pos rfl⟩
          · exact Or.inl (AList.lookup_eq_none.mpr live)
      · intro id
        rw [current_silent, tables.surfaces]
        intro event member
        rcases List.mem_map.mp member with ⟨streamId, _live, rfl⟩
        rfl

theorem count_destroyed {ids : List Nat} (distinct : ids.Nodup) (streamId : Nat) :
    (streamId ∈ ids → (ids.map DisplayEvent.streamDestroyed).count (.streamDestroyed streamId) = 1) ∧
      (streamId ∉ ids → .streamDestroyed streamId ∉ ids.map DisplayEvent.streamDestroyed) := by
  have injective : Function.Injective DisplayEvent.streamDestroyed := by
    intro first second same
    cases same
    rfl
  constructor
  · intro member
    rw [List.count_map_of_injective ids _ injective, List.count_eq_one_of_mem distinct member]
  · intro other member
    exact other ((List.mem_map_of_injective injective).mp member)

theorem Tables.live_iff {past : List DisplayEvent} (tables : Tables past state) (streamId : Nat) :
    Live streamId past ↔ streamId ∈ state.streams := by
  rw [← AList.lookup_isSome, tables.streams, Option.isSome_iff_exists]
  exact exists_congr fun info => createdAs_iff

theorem Acts.ends (acts : Acts jpeg state msg next effects)
    (all : msg.msgType = DisplayMsg.STREAM_DESTROY_ALL) :
    eventsOf effects = state.streams.keys.map .streamDestroyed := by
  have never {msgType : Nat} (type : msg.msgType = msgType)
      (other : msgType ≠ DisplayMsg.STREAM_DESTROY_ALL) : False := other (type.symm.trans all)
  cases acts with
  | allDestroyed => exact eventsOf_destroyed _
  | silent _other aside => exact absurd all aside.ends
  | told _other aside => exact absurd all aside.ends
  | streamed brings =>
      cases brings with
      | plain type => exact (never type (by decide)).elim
      | sized type => exact (never type (by decide)).elim
  | replied type => exact (never type (by decide)).elim
  | announced type => exact (never type (by decide)).elim
  | reset type => exact (never type (by decide)).elim
  | surfaceCreated type => exact (never type (by decide)).elim
  | surfaceDestroyed type => exact (never type (by decide)).elim
  | filled type => exact (never type (by decide)).elim
  | drawn type => exact (never type (by decide)).elim
  | streamCreated type => exact (never type (by decide)).elim
  | streamDestroyed type => exact (never type (by decide)).elim

theorem single_split {α : Type} {only found : α} {earlier later : List α}
    (split : [only] = earlier ++ found :: later) : earlier = [] ∧ found = only := by
  cases earlier with
  | nil =>
      cases split
      exact ⟨rfl, rfl⟩
  | cons first rest => simp at split

theorem Tables.consistent {past : List DisplayEvent} (tables : Tables past state)
    (acts : Acts jpeg state msg next effects) {output : List Effect}
    (same : eventsOf output = eventsOf effects) :
    Consistent past { input := msg, output := output } := by
  have tells := acts.tells
  rw [← same] at tells
  constructor
  · intro earlier streamId multiMediaTime destRect pixels later split
    rw [split] at tells
    generalize whole : earlier ++ DisplayEvent.streamFrame streamId multiMediaTime destRect pixels ::
      later = events at tells
    cases tells with
    | @frame _ _ _ _ info _ brings found codec decoded =>
        rcases single_split whole.symm with ⟨rfl, here⟩
        cases here
        refine ⟨info.dest, ?_, ?_⟩
        · rw [List.append_nil, ← codec, createdAs_iff, ← tables.streams]
          exact found
        · intro unsized
          cases brings with
          | plain => rfl
          | sized type => exact absurd type unsized
    | region =>
        cases (single_split whole.symm).2
    | bare bare =>
        rw [← whole] at bare
        exact (bare _ (List.mem_append_right _ List.mem_cons_self) trivial).elim
  · intro all streamId
    rw [same, acts.ends all, tables.live_iff]
    exact count_destroyed state.streams.keys_nodup streamId
  · intro earlier surfaceId rect pixels format later split
    rw [split] at tells
    generalize whole : earlier ++ DisplayEvent.region surfaceId rect pixels format :: later =
      events at tells
    cases tells with
    | frame => cases (single_split whole.symm).2
    | region =>
        rcases single_split whole.symm with ⟨rfl, here⟩
        cases here
        simp only [List.append_nil, formattedAs_iff, ← tables.surfaces]
        unfold DisplayState.surfaceFormat
        cases state.surfaces.lookup surfaceId with
        | none => simp
        | some format => simp
    | bare bare =>
        rw [← whole] at bare
        exact (bare _ (List.mem_append_right _ List.mem_cons_self) trivial).elim

theorem handle_tells (handled : handle jpeg state msg = .ok (next, effects)) :
    ∃ middle put, handleArm jpeg state msg = .ok (middle, put) ∧
      eventsOf effects = eventsOf put ∧ next.streams = middle.streams ∧
      next.surfaces = middle.surfaces := by
  rcases handle_cases handled with
    ⟨middle, put, armed, ⟨_uncounts, rfl, rfl⟩ | ⟨_counts, rfl, rfl⟩⟩
  · exact ⟨_, _, armed, rfl, rfl, rfl⟩
  · refine ⟨_, _, armed, ?_, rfl, rfl⟩
    rw [eventsOf_append]
    cases middle.ack.noteMessage.2 with
    | true => exact List.append_nil _
    | false => exact List.append_nil _

/-- In a run without an error, the events of every turn fit to those before. -/
theorem display_trace_consistent {messages : List Message} {last : DisplayState}
    {before after : List (Turn Message Effect)} {turn : Turn Message Effect}
    (ran : final (displayLoop jpeg) DisplayState.default messages = some last)
    (split : trace (displayLoop jpeg) DisplayState.default messages = before ++ turn :: after) :
    Consistent (told before) turn := by
  have keeps (before : List (Turn Message Effect)) (state : DisplayState) (msg : Message)
      (effects : List Effect) (next : DisplayState) (tables : Tables (told before) state)
      (stepped : displayLoop jpeg state msg = (effects, some next)) :
      Tables (told (before ++ [{ input := msg, output := effects }])) next := by
    rcases handle_tells (displayLoop_handled stepped) with
      ⟨middle, put, armed, same, streams, surfaces⟩
    have follows :=
      (tables.acts (handleArm_acts (middle, put) armed)).still streams surfaces quiet_nil
    rw [told_snoc, same]
    rw [List.append_nil] at follows
    exact follows
  have start : Tables (told []) DisplayState.default := tables_start
  rcases Reactive.trace_history keeps start ran split with ⟨state, next, tables, stepped⟩
  rcases handle_tells (displayLoop_handled stepped) with ⟨middle, put, armed, same, _tables⟩
  exact tables.consistent (handleArm_acts (middle, put) armed) same

/-- A decoder that finds one column of two pixels in everything. -/
def columnOfTwo : JpegDecoder := fun _payload =>
  .ok ([1, 2, 3, 4, 5, 6], some { width := 1, height := 2, pixelFormat := .rgb24 })

def videoStream (flags : Nat) : Message :=
  .mini DisplayMsg.STREAM_CREATE
    (StreamCreate.encode
      { surfaceId := 0
        streamId := 7
        flags := flags
        codec := .mjpeg
        stamp := 0
        streamWidth := 1
        streamHeight := 2
        srcWidth := 1
        srcHeight := 2
        dest := ⟨0, 0, 2, 1⟩
        clip := .none })

def videoFrame : Message :=
  .mini DisplayMsg.STREAM_DATA
    (StreamData.encode { header := { streamId := 7, multiMediaTime := 1 }, data := [] })

def videoTurns (flags : Nat) : List (Turn Message Effect) :=
  [{ input := videoStream flags
     output := [emit (.streamCreated 7 0 .mjpeg ⟨0, 0, 2, 1⟩ 1 2)] },
    { input := videoFrame
      output := [emit (.streamFrame 7 1 ⟨0, 0, 2, 1⟩ (.raw [3, 2, 1, 255, 6, 5, 4, 255] 4))] }]

theorem videoTurns_trace :
    trace (displayLoop columnOfTwo) DisplayState.default [videoStream 0, videoFrame] =
      videoTurns 0 := by
  decide +kernel

theorem display_trace_consistent_video :
    Consistent [.streamCreated 7 0 .mjpeg ⟨0, 0, 2, 1⟩ 1 2]
      { input := videoFrame
        output := [emit (.streamFrame 7 1 ⟨0, 0, 2, 1⟩
          (.raw [3, 2, 1, 255, 6, 5, 4, 255] 4))] } := by
  have ran : final (displayLoop columnOfTwo) DisplayState.default [videoStream 0, videoFrame] =
      some _ := rfl
  exact @display_trace_consistent columnOfTwo _ _ [_] [] _ ran videoTurns_trace

end Capsaicin.Client
