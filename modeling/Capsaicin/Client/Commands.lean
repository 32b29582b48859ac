/-
What a guest draws on its visible surface, the messages that ask for it, and what the client
tells its embedder about them.
-/

import Capsaicin.Client.Carriers
import Capsaicin.Client.EventTrace
import Capsaicin.Net.Session
import Capsaicin.Proto.Canonical

namespace Capsaicin.Client

open Net (Message)
open Proto
open Reactive (Machine Turn final)

/-- A picture is given from the top, in pixels without alpha. -/
inductive Command where
  | create (width height : Nat)
  | fill (bounds : Rect) (color : Nat)
  | copy (bounds : Rect) (srcX srcY : Int)
  | paste (bounds : Rect) (picture : List (List Bgra))
  | aside
  deriving DecidableEq, Repr

structure Moderate (width height : Nat) : Prop where
  wide : 1 ≤ width ∧ width ≤ 16384
  high : 1 ≤ height ∧ height ≤ 16384
  size : 4 * (width * height) ≤ Net.DEFAULT_MAX_MESSAGE_SIZE

structure Bare (primary : Nat) (base : DrawBase) : Prop where
  surfaceId : base.surfaceId = primary
  clip : base.clip = .none

structure Whole (copy : DrawCopy) (width height : Nat) : Prop where
  srcArea : copy.srcArea = ⟨0, 0, height, width⟩
  wide : copy.base.bounds.right - copy.base.bounds.left = width
  high : copy.base.bounds.bottom - copy.base.bounds.top = height
  ropDescriptor : copy.ropDescriptor = Ropd.OP_PUT
  mask : copy.mask.hasBitmap = false

/-- The type and the body of a message that asks for a command. The messages aside are about other
things than the picture, or about surfaces that cannot be seen. -/
inductive Asks (primary : Nat) : Command → Nat × List UInt8 → Prop
  | create {surface : SurfaceCreate} (behind : List UInt8) (fits : surface.Fits)
      (here : surface.surfaceId = primary)
      (visible : surface.flags &&& SurfaceFlags.PRIMARY ≠ 0) :
      Asks primary (.create surface.width surface.height)
        (DisplayMsg.SURFACE_CREATE, surface.encode ++ behind)
  | fill {fill : DrawFill} {color : Nat} (behind : List UInt8) (fits : fill.Fits)
      (bare : Bare primary fill.base) (solid : fill.brush = .solid color)
      (put : fill.ropDescriptor = Ropd.OP_PUT) (mask : fill.mask.hasBitmap = false) :
      Asks primary (.fill fill.base.bounds color) (DisplayMsg.DRAW_FILL, fill.encode ++ behind)
  | copy {copy : CopyBits} (behind : List UInt8) (fits : copy.Fits)
      (bare : Bare primary copy.base) :
      Asks primary (.copy copy.base.bounds copy.srcPos.x copy.srcPos.y)
        (DisplayMsg.COPY_BITS, copy.encode ++ behind)
  | paste {copy : DrawCopy} {picture : List (List Bgra)} {width height : Nat} {topDown : Bool}
      (behind : List UInt8) (fits : copy.Fits) (bare : Bare primary copy.base)
      (whole : Whole copy width height) (plain : Plain picture width height)
      (moderate : Moderate width height) (nonzero : copy.srcBitmapOffset ≠ 0)
      (carries : Carries picture width height topDown (copy.encode ++ behind)
        copy.srcBitmapOffset) :
      Asks primary (.paste copy.base.bounds picture)
        (DisplayMsg.DRAW_COPY, copy.encode ++ behind)
  | hidden {surface : SurfaceCreate} (behind : List UInt8) (fits : surface.Fits)
      (secondary : surface.flags &&& SurfaceFlags.PRIMARY = 0) :
      Asks primary .aside (DisplayMsg.SURFACE_CREATE, surface.encode ++ behind)
  | destroyed {surface : SurfaceDestroy} (behind : List UInt8) (fits : surface.Fits) :
      Asks primary .aside (DisplayMsg.SURFACE_DESTROY, surface.encode ++ behind)
  | ping {ping : Ping} {body : List UInt8} (parsed : Ping.decode body = .ok ping) :
      Asks primary .aside (Msg.PING, body)
  | setAck {ack : SetAck} (behind : List UInt8) (fits : ack.Fits) :
      Asks primary .aside (Msg.SET_ACK, ack.encode ++ behind)
  | notify (body : List UInt8) : Asks primary .aside (Msg.NOTIFY, body)
  | mark (body : List UInt8) : Asks primary .aside (DisplayMsg.MARK, body)

def Unseen : DisplayEvent → Prop
  | .surfaceCreated _ _ _ _ primary => primary = false
  | .surfaceDestroyed _ | .mark => True
  | _ => False

inductive Announces : Command → List DisplayEvent → Prop
  | create (id width height : Nat) (format : SurfaceFormat) :
      Announces (.create width height) [.surfaceCreated id width height format true]
  | fill (id : Nat) (bounds : Rect) (color : Nat) (format : SurfaceFormat) :
      Announces (.fill bounds color) [.region id bounds (.solidColor color) format]
  | copy (id : Nat) (bounds : Rect) (srcX srcY : Int) :
      Announces (.copy bounds srcX srcY) [.copyRect id srcX srcY bounds]
  | paste {picture : List (List Bgra)} {bounds : Rect} {width height : Nat} (id : Nat)
      (format : SurfaceFormat) (plain : Plain picture width height)
      (moderate : Moderate width height) (wide : bounds.right - bounds.left = width)
      (high : bounds.bottom - bounds.top = height) :
      Announces (.paste bounds picture)
        [.region id bounds (.raw (packed picture.flatten) (4 * width)) format]
  | aside {events : List DisplayEvent} (unseen : ∀ event ∈ events, Unseen event) :
      Announces .aside events

/-! ### One message -/

variable {jpeg : JpegDecoder} {state next : DisplayState} {msg : Message} {effects : List Effect}

theorem handle_of_arm {arm : DisplayState} (ran : handleArm jpeg state msg = .ok (arm, effects)) :
    ∃ last all, handle jpeg state msg = .ok (last, all) ∧ eventsOf all = eventsOf effects := by
  rw [handle, Program.bind_ok ran]
  dsimp only
  split
  · exact ⟨arm, effects, rfl, rfl⟩
  · split
    · refine ⟨_, _, rfl, ?_⟩
      rw [eventsOf_append]
      exact List.append_nil _
    · exact ⟨_, _, rfl, rfl⟩

theorem decodeDrawCopy_paste {copy : DrawCopy} {picture : List (List Bgra)} {width height : Nat}
    {topDown : Bool} (small : msg.body.length ≤ Net.DEFAULT_MAX_MESSAGE_SIZE)
    (copied : DrawCopy.decode msg.body = .ok copy) (plain : Plain picture width height)
    (moderate : Moderate width height) (nonzero : copy.srcBitmapOffset ≠ 0)
    (carries : Carries picture width height topDown msg.body copy.srcBitmapOffset) :
    ∃ next, decodeDrawCopy state msg = .ok (next, shown state copy picture width) := by
  rcases moderate with ⟨wide, high, size⟩
  have inline {payload behind : List UInt8} {desc : ImageDescriptor}
      (placed : msg.body.drop copy.srcBitmapOffset =
        desc.encode ++ (writeU32 payload.length ++ (payload ++ behind))) :
      inlineData msg copy = some payload := by
    apply inlineData_of_placed _ placed
    have room := congrArg List.length placed
    simp only [List.length_drop, List.length_append] at room
    unfold Net.DEFAULT_MAX_MESSAGE_SIZE at small
    omega
  cases carries with
  | bitmap fitsDesc kind fits format order sameHeight stride bare placed chunked whole =>
      unfold Net.DEFAULT_MAX_MESSAGE_SIZE at size
      rw [decodeDrawCopy_bitmap (points_of_placed copied nonzero fitsDesc placed) kind]
      exact decodeBitmap_shows plain (by omega) small fits format order sameHeight stride bare
        chunked whole
  | lz fitsDesc kind fits rgb32 order sameWidth sameHeight whole placed =>
      have carried := inline placed
      rw [whole] at carried
      rw [decodeDrawCopy_lz (points_of_placed copied nonzero fitsDesc placed) kind]
      exact decodeLzRgb_shows plain wide high size fits rgb32 order sameWidth sameHeight carried
  | glz fitsDesc kind fits rgb32 order sameWidth sameHeight whole placed =>
      have carried := inline placed
      rw [whole] at carried
      rw [decodeDrawCopy_glz (points_of_placed copied nonzero fitsDesc placed) kind]
      exact decodeGlz_shows plain wide high size fits rgb32 order sameWidth sameHeight carried

theorem decodeDrawFill_solid {fill : DrawFill} {color : Nat}
    (parsed : DrawFill.decode msg.body = .ok fill) (clip : fill.base.clip = .none)
    (solid : fill.brush = .solid color) (put : fill.ropDescriptor = Ropd.OP_PUT)
    (mask : fill.mask.hasBitmap = false) :
    decodeDrawFill state msg =
      .region fill.base.surfaceId fill.base.bounds (.solidColor color)
        (state.surfaceFormat fill.base.surfaceId) := by
  have found : fill.solidColor = some color := by simp [DrawFill.solidColor, solid]
  have simple : fill.isSimpleSolid = true := by
    simp [DrawFill.isSimpleSolid, clip, found, put, mask]
  simp [decodeDrawFill, parsed, simple, found]

theorem handleArm_asked {primary : Nat} {command : Command}
    (asked : Asks primary command (msg.msgType, msg.body))
    (small : msg.body.length ≤ Net.DEFAULT_MAX_MESSAGE_SIZE) :
    ∃ arm effects, handleArm jpeg state msg = .ok (arm, effects) ∧
      Announces command (eventsOf effects) := by
  have kept {α β : Type} {parsed : Except ProtoError α} {value : α} {rest : α → Except DisplayFault β}
      (decoded : parsed = .ok value) : (parsed.mapError .error >>= rest) = rest value := by
    rw [decoded]
    rfl
  obtain ⟨msgType, serial, body⟩ := msg
  dsimp only at asked small
  cases asked with
  | create behind fits here visible =>
      have parsed := Reader.decode_behind (SurfaceCreate.canonical.exact fits) behind
      refine ⟨_, _, kept parsed, ?_⟩
      rw [eventsOf_emit, decide_eq_true visible]
      exact .create _ _ _ _
  | @fill fill color behind fits bare solid put mask =>
      have parsed := Reader.decode_behind (DrawFill.exact fits) behind
      have drawn := @decodeDrawFill_solid state
        { msgType := DisplayMsg.DRAW_FILL, serial := serial, body := fill.encode ++ behind }
        fill color parsed bare.clip solid put mask
      refine ⟨state, [emit _], congrArg (fun event => Except.ok (state, [emit event])) drawn, ?_⟩
      exact .fill _ _ _ _
  | @copy copy behind fits bare =>
      have parsed := Reader.decode_behind (CopyBits.exact fits) behind
      change CopyBits.decode (copy.encode ++ behind) = _ at parsed
      have arm : handleArm jpeg state
          { msgType := DisplayMsg.COPY_BITS, serial := serial, body := copy.encode ++ behind } =
            .ok (state, [emit (.copyRect copy.base.surfaceId copy.srcPos.x copy.srcPos.y
              copy.base.bounds)]) := by
        unfold handleArm
        dsimp only
        rw [parsed]
        rfl
      exact ⟨_, _, arm, .copy _ _ _ _⟩
  | @paste copy picture width height topDown behind fits bare whole plain moderate nonzero carries =>
      have parsed := Reader.decode_behind (DrawCopy.exact fits) behind
      rcases @decodeDrawCopy_paste state
        { msgType := DisplayMsg.DRAW_COPY, serial := serial, body := copy.encode ++ behind }
        copy picture width height topDown small parsed plain moderate nonzero carries with
        ⟨drawn, decoded⟩
      exact ⟨_, _, Program.bind_ok decoded, .paste _ _ plain moderate whole.wide whole.high⟩
  | hidden behind fits secondary =>
      have parsed := Reader.decode_behind (SurfaceCreate.canonical.exact fits) behind
      refine ⟨_, _, kept parsed, .aside ?_⟩
      simp [Unseen, secondary]
  | destroyed behind fits =>
      have parsed := Reader.decode_behind (SurfaceDestroy.canonical.exact fits) behind
      exact ⟨_, _, kept parsed, .aside (by simp [Unseen])⟩
  | ping parsed => exact ⟨_, _, kept parsed, .aside (by simp [eventsOf, eventOf, pong])⟩
  | setAck behind fits =>
      have parsed := Reader.decode_behind (SetAck.canonical.exact fits) behind
      exact ⟨_, _, kept parsed, .aside (by simp [eventsOf, eventOf, ackSync])⟩
  | notify body => exact ⟨_, _, rfl, .aside (by simp [eventsOf])⟩
  | mark body => exact ⟨_, _, rfl, .aside (by simp [Unseen])⟩

/-! ### A session -/

def displayTask (jpeg : JpegDecoder) :
    Machine DisplayState (Framing.Input Message Empty) Effect := fun state input =>
  match input with
  | .message msg => displayLoop jpeg state msg
  | .event evt => evt.elim

/-- The task takes every message that asks for a command, and tells the embedder about it. -/
theorem display_serves (jpeg : JpegDecoder) (primary : Nat) :
    Net.Serves (Asks primary) (fun command effects => Announces command (eventsOf effects))
      (displayTask jpeg) := by
  intro command msg asked small state
  rcases @handleArm_asked jpeg state msg primary command asked small with
    ⟨arm, effects, ran, announced⟩
  rcases handle_of_arm ran with ⟨last, all, handled, same⟩
  refine ⟨last, all, ?_, ?_⟩
  · change displayLoop jpeg state msg = _
    rw [displayLoop, handled]
  · dsimp only
    rw [same]
    exact announced

theorem asks_typed (primary : Nat) (command : Command) (pair : Nat × List UInt8)
    (asked : Asks primary command pair) : pair.1 < 256 ^ 2 := by
  cases asked <;> simp [DisplayMsg.SURFACE_CREATE, DisplayMsg.SURFACE_DESTROY, DisplayMsg.DRAW_FILL,
    DisplayMsg.DRAW_COPY, DisplayMsg.COPY_BITS, DisplayMsg.MARK, Msg.PING, Msg.SET_ACK, Msg.NOTIFY]

def taskReader (mini : Bool) : Framing.FrameReader UInt8 Net.Reading Message :=
  Net.channelReader mini Net.DEFAULT_MAX_MESSAGE_SIZE

end Capsaicin.Client
