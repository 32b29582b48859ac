/-
The cursor of the guest at the embedder. An embedder that keeps the sprites it is told to keep
shows what the server shows, from the cache too.
-/

import Capsaicin.Client.Cursor
import Capsaicin.Net.Session
import Capsaicin.Proto.Canonical
import Mathlib.Logic.Function.Basic

namespace Capsaicin.Client

open Net (Message)
open Proto
open Reactive (Machine Turn final)

/-! ### Cursors -/

structure Sprite where
  hotX : Nat
  hotY : Nat
  width : Nat
  height : Nat
  pixels : List UInt8
  deriving DecidableEq, Repr

/-- A cursor with the sprites that are kept for later. There is none to show at first. -/
structure Pointer where
  sprite : Option Sprite
  x : Int
  y : Int
  visible : Bool
  cache : Nat → Option Sprite

def Pointer.start : Pointer where
  sprite := none
  x := 0
  y := 0
  visible := false
  cache := fun _ => none

inductive PointerCommand where
  | set (x y : Int) (visible : Bool) (unique : Nat) (sprite : Sprite) (cacheable : Bool)
  | reuse (x y : Int) (visible : Bool) (unique : Nat)
  | move (x y : Int)
  | hide
  | forget (unique : Nat)
  | forgetAll
  | reset
  | aside
  deriving DecidableEq, Repr

def Pointer.keep (pointer : Pointer) (unique : Nat) (sprite : Option Sprite) : Pointer :=
  { pointer with cache := Function.update pointer.cache unique sprite }

/-- A reset forgets everything, the sprite that is shown too. -/
def Pointer.obey (pointer : Pointer) : PointerCommand → Pointer
  | .set x y visible unique sprite cacheable =>
      let shown := { pointer with sprite := some sprite, x := x, y := y, visible := visible }
      if cacheable then shown.keep unique sprite else shown
  | .reuse x y visible unique =>
      { pointer with sprite := pointer.cache unique, x := x, y := y, visible := visible }
  | .move x y => { pointer with x := x, y := y }
  | .hide => { pointer with visible := false }
  | .forget unique => pointer.keep unique none
  | .forgetAll => { pointer with cache := fun _ => none }
  | .reset => { pointer with sprite := none, cache := fun _ => none }
  | .aside => pointer

/-- What an embedder does with an event, as the documentation of the events says. -/
def Pointer.take (pointer : Pointer) : CursorEvent → Pointer
  | .set x y hotX hotY width height pixels unique cacheable visible =>
      let sprite := Sprite.mk hotX hotY width height pixels
      let shown := { pointer with sprite := some sprite, x := x, y := y, visible := visible }
      if cacheable then shown.keep unique sprite else shown
  | .setFromCache x y unique visible =>
      { pointer with sprite := pointer.cache unique, x := x, y := y, visible := visible }
  | .move x y => { pointer with x := x, y := y }
  | .hide => { pointer with visible := false }
  | .invalidateOne unique => pointer.keep unique none
  | .invalidateAll => { pointer with cache := fun _ => none }

/-! ### Messages -/

def spriteOf (cursor : Cursor) : Sprite where
  hotX := cursor.header.hotSpotX
  hotY := cursor.header.hotSpotY
  width := cursor.header.width
  height := cursor.header.height
  pixels := cursor.data.take (cursor.header.width * cursor.header.height * 4)

/-- A message that brings a cursor along, or says which one it was. -/
inductive BringsCursor : Int → Int → Bool → Cursor → Nat × List UInt8 → Prop
  | set {message : CursorSet} (behind : List UInt8) (fits : message.Fits)
      (ends : message.cursor.Ends behind) :
      BringsCursor message.positionX message.positionY (message.visible ≠ 0) message.cursor
        (CursorMsg.SET, (PlainBody.cursorSet message).encode ++ behind)
  | init {message : CursorInit} (behind : List UInt8) (fits : message.Fits)
      (ends : message.cursor.Ends behind) :
      BringsCursor message.positionX message.positionY (message.visible ≠ 0) message.cursor
        (CursorMsg.INIT, (PlainBody.cursorInit message).encode ++ behind)

inductive AsksPointer : PointerCommand → Nat × List UInt8 → Prop
  | set {x y : Int} {visible : Bool} {cursor : Cursor} {pair : Nat × List UInt8}
      (brings : BringsCursor x y visible cursor pair) (own : ¬ cursor.Cached)
      (alpha : cursor.header.kind = CursorType.ALPHA)
      (whole : cursor.header.width * cursor.header.height * 4 ≤ cursor.data.length) :
      AsksPointer
        (.set x y visible cursor.header.unique (spriteOf cursor)
          (cursor.flags &&& CursorFlag.CACHE_ME ≠ 0)) pair
  | reuse {x y : Int} {visible : Bool} {cursor : Cursor} {pair : Nat × List UInt8}
      (brings : BringsCursor x y visible cursor pair) (cached : cursor.Cached) :
      AsksPointer (.reuse x y visible cursor.header.unique) pair
  | move {move : CursorMove} (behind : List UInt8) (fits : move.Fits) :
      AsksPointer (.move move.positionX move.positionY)
        (CursorMsg.MOVE, (PlainBody.cursorMove move).encode ++ behind)
  | hide (body : List UInt8) : AsksPointer .hide (CursorMsg.HIDE, body)
  | forget {message : CursorInvalOne} (behind : List UInt8) (fits : message.Fits) :
      AsksPointer (.forget message.unique)
        (CursorMsg.INVAL_ONE, (PlainBody.cursorInvalOne message).encode ++ behind)
  | forgetAll (body : List UInt8) : AsksPointer .forgetAll (CursorMsg.INVAL_ALL, body)
  | reset (body : List UInt8) : AsksPointer .reset (CursorMsg.RESET, body)
  | trail (body : List UInt8) : AsksPointer .aside (CursorMsg.TRAIL, body)
  | ping (body : List UInt8) : AsksPointer .aside (Msg.PING, body)
  | setAck (body : List UInt8) : AsksPointer .aside (Msg.SET_ACK, body)

def PointerCommand.event : PointerCommand → Option CursorEvent
  | .set x y visible unique sprite cacheable =>
      some (.set x y sprite.hotX sprite.hotY sprite.width sprite.height sprite.pixels unique
        cacheable visible)
  | .reuse x y visible unique => some (.setFromCache x y unique visible)
  | .move x y => some (.move x y)
  | .hide => some .hide
  | .forget unique => some (.invalidateOne unique)
  | .forgetAll => some .invalidateAll
  | .reset | .aside => none

def cursorEventOf : Effect → Option CursorEvent
  | .emit (.cursor event) => some event
  | _ => none

def AnnouncesPointer (command : PointerCommand) (effects : List Effect) : Prop :=
  effects.filterMap cursorEventOf = command.event.toList

/-! ### One message -/

theorem cached_iff (cursor : Cursor) :
    cursor.flags &&& (CursorFlag.FROM_CACHE ||| CursorFlag.FROM_CACHE_LOSSLESS) ≠ 0 ↔
      cursor.Cached := by
  rw [Nat.and_or_distrib_left, Ne, Nat.or_eq_zero_iff]
  unfold Cursor.Cached
  tauto

theorem cursorToEvent_cached {x y : Int} {visible : Bool} {cursor : Cursor}
    (cached : cursor.Cached) :
    cursorToEvent x y visible cursor = some (.setFromCache x y cursor.header.unique visible) := by
  have flagged := (cached_iff cursor).mpr cached
  simp [cursorToEvent, flagged]

theorem cursorToEvent_own {x y : Int} {visible : Bool} {cursor : Cursor} (own : ¬ cursor.Cached)
    (alpha : cursor.header.kind = CursorType.ALPHA)
    (whole : cursor.header.width * cursor.header.height * 4 ≤ cursor.data.length) :
    cursorToEvent x y visible cursor =
      (PointerCommand.set x y visible cursor.header.unique (spriteOf cursor)
        (cursor.flags &&& CursorFlag.CACHE_ME ≠ 0)).event := by
  have plain := mt (cached_iff cursor).mp own
  simp [cursorToEvent, PointerCommand.event, spriteOf, plain, alpha, Nat.not_lt.mpr whole]

def cursorTask : Machine Unit (Framing.Input Message Empty) Effect := fun state input =>
  match input with
  | .message msg => cursorLoop state { msg := msg, receiving := true }
  | .event evt => evt.elim

theorem cursorLoop_brings {x y : Int} {visible : Bool} {cursor : Cursor} {msg : Message}
    {event : CursorEvent} (brings : BringsCursor x y visible cursor (msg.msgType, msg.body))
    (shown : cursorToEvent x y visible cursor = some event) :
    cursorLoop () { msg := msg, receiving := true } = ([.emit (.cursor event)], some ()) := by
  obtain ⟨msgType, serial, body⟩ := msg
  dsimp only at brings
  cases brings
  all_goals simp only [ne_eq, decide_not] at shown
  case set message behind fits ends =>
      have parsed : CursorSet.decode ((PlainBody.cursorSet message).encode ++ behind) =
          .ok message :=
        Reader.decode_ok (CursorSet.reads_iff.mpr ⟨fits, ends, by simp [PlainBody.encode]⟩)
      simp [cursorLoop, CursorMsg.SET, CursorMsg.INIT, Msg.PING, Msg.SET_ACK, parsed, shown,
        emitCursor]
  case init message behind fits ends =>
      have parsed : CursorInit.decode ((PlainBody.cursorInit message).encode ++ behind) =
          .ok message :=
        Reader.decode_ok (CursorInit.reads_iff.mpr ⟨fits, ends, by simp [PlainBody.encode]⟩)
      simp [cursorLoop, CursorMsg.INIT, Msg.PING, Msg.SET_ACK, parsed, shown, emitCursor]

theorem pointer_serves : Net.Serves AsksPointer AnnouncesPointer cursorTask := by
  intro command msg asked _small _state
  change ∃ next effects, cursorLoop () { msg := msg, receiving := true } = (effects, some next) ∧ _
  obtain ⟨msgType, serial, body⟩ := msg
  dsimp only at asked
  cases asked with
  | set brings own alpha whole =>
      exact ⟨_, _, cursorLoop_brings brings (cursorToEvent_own own alpha whole), rfl⟩
  | reuse brings cached =>
      exact ⟨_, _, cursorLoop_brings brings (cursorToEvent_cached cached), rfl⟩
  | @move message behind fits =>
      have parsed : CursorMove.decode ((PlainBody.cursorMove message).encode ++ behind) =
          .ok message := Reader.decode_behind (CursorMove.canonical.exact fits) behind
      refine ⟨(), [.emit (.cursor (.move message.positionX message.positionY))], ?_, rfl⟩
      simp [cursorLoop, CursorMsg.MOVE, CursorMsg.SET, CursorMsg.INIT, Msg.PING, Msg.SET_ACK, parsed,
        emitCursor]
  | hide body => exact ⟨_, _, rfl, rfl⟩
  | @forget message behind fits =>
      have parsed : CursorInvalOne.decode ((PlainBody.cursorInvalOne message).encode ++ behind) =
          .ok message := Reader.decode_behind (CursorInvalOne.canonical.exact fits) behind
      refine ⟨(), [.emit (.cursor (.invalidateOne message.unique))], ?_, rfl⟩
      simp [cursorLoop, CursorMsg.INVAL_ONE, CursorMsg.HIDE, CursorMsg.MOVE, CursorMsg.SET,
        CursorMsg.INIT, Msg.PING, Msg.SET_ACK, parsed, emitCursor]
  | forgetAll body => exact ⟨_, _, rfl, rfl⟩
  | reset body => exact ⟨_, _, rfl, rfl⟩
  | trail body => exact ⟨_, _, rfl, rfl⟩
  | ping body =>
      have answered : (∃ ping, Ping.decode body = .ok ping) ∨
          ∃ reason, Ping.decode body = .error reason := by
        cases Ping.decode body with
        | ok ping => exact Or.inl ⟨ping, rfl⟩
        | error reason => exact Or.inr ⟨reason, rfl⟩
      rcases answered with ⟨ping, parsed⟩ | ⟨reason, parsed⟩
      · exact ⟨(), [pong ping], by simp [cursorLoop, Msg.PING, parsed], rfl⟩
      · exact ⟨(), [], by simp [cursorLoop, Msg.PING, parsed], rfl⟩
  | setAck body =>
      cases parsed : SetAck.decode body with
      | ok ack => exact ⟨(), [ackSync ack], by simp [cursorLoop, Msg.PING, Msg.SET_ACK, parsed], rfl⟩
      | error reason => exact ⟨(), [], by simp [cursorLoop, Msg.PING, Msg.SET_ACK, parsed], rfl⟩

theorem asksPointer_typed (command : PointerCommand) (pair : Nat × List UInt8)
    (asked : AsksPointer command pair) : pair.1 < 256 ^ 2 := by
  have bringing {x y : Int} {visible : Bool} {cursor : Cursor}
      (brings : BringsCursor x y visible cursor pair) : pair.1 < 256 ^ 2 := by
    cases brings <;> simp [CursorMsg.SET, CursorMsg.INIT]
  cases asked with
  | set brings own alpha whole => exact bringing brings
  | reuse brings cached => exact bringing brings
  | _ =>
      simp [CursorMsg.MOVE, CursorMsg.HIDE, CursorMsg.INVAL_ONE, CursorMsg.INVAL_ALL,
        CursorMsg.RESET, CursorMsg.TRAIL, Msg.PING, Msg.SET_ACK]

/-! ### The two sides -/

/-- The embedder has what the server has kept, and shows what the server shows. After a reset it
may have and show more. -/
structure Follows (server embedder : Pointer) : Prop where
  cache : ∀ unique sprite, server.cache unique = some sprite →
    embedder.cache unique = some sprite
  shown : server.sprite ≠ none → embedder.sprite = server.sprite ∧ embedder.x = server.x ∧
    embedder.y = server.y ∧ embedder.visible = server.visible

theorem follows_start : Follows Pointer.start Pointer.start where
  cache := fun _unique _sprite found => found
  shown := fun _some => ⟨rfl, rfl, rfl, rfl⟩

def Pointer.told (pointer : Pointer) (events : List CursorEvent) : Pointer :=
  events.foldl Pointer.take pointer

theorem Follows.step {server embedder : Pointer} (follows : Follows server embedder)
    (command : PointerCommand) :
    Follows (server.obey command) (embedder.told command.event.toList) := by
  have updated (cache cache' : Nat → Option Sprite) (unique : Nat) (kept : Option Sprite)
      (known : ∀ other sprite, cache other = some sprite → cache' other = some sprite) :
      ∀ other sprite, Function.update cache unique kept other = some sprite →
        Function.update cache' unique kept other = some sprite := by
    intro other sprite found
    by_cases same : other = unique
    · subst same
      rw [Function.update_self] at found ⊢
      exact found
    · rw [Function.update_of_ne same] at found ⊢
      exact known other sprite found
  rcases follows with ⟨known, shown⟩
  cases command with
  | set x y visible unique sprite cacheable =>
      cases cacheable with
      | true => exact ⟨updated _ _ unique sprite known, fun _some => ⟨rfl, rfl, rfl, rfl⟩⟩
      | false => exact ⟨known, fun _some => ⟨rfl, rfl, rfl, rfl⟩⟩
  | reuse x y visible unique =>
      refine ⟨known, ?_⟩
      intro some
      change server.cache unique ≠ none at some
      rcases Option.ne_none_iff_exists'.mp some with ⟨sprite, found⟩
      refine ⟨?_, rfl, rfl, rfl⟩
      exact (known unique sprite found).trans found.symm
  | move x y =>
      refine ⟨known, ?_⟩
      intro some
      rcases shown some with ⟨sprite, _left, _top, visible⟩
      exact ⟨sprite, rfl, rfl, visible⟩
  | hide =>
      refine ⟨known, ?_⟩
      intro some
      rcases shown some with ⟨sprite, left, top, _visible⟩
      exact ⟨sprite, left, top, rfl⟩
  | forget unique => exact ⟨updated _ _ unique none known, shown⟩
  | forgetAll => exact ⟨fun _unique _sprite found => absurd found nofun, shown⟩
  | reset => exact ⟨fun _unique _sprite found => absurd found nofun, fun some => absurd rfl some⟩
  | aside => exact ⟨known, shown⟩

theorem follows_announced {server embedder : Pointer} {commands : List PointerCommand}
    {outputs : List (List Effect)} (follows : Follows server embedder)
    (announced : List.Forall₂ AnnouncesPointer commands outputs) :
    Follows (commands.foldl Pointer.obey server)
      (embedder.told (outputs.flatMap fun effects => effects.filterMap cursorEventOf)) := by
  induction announced generalizing server embedder with
  | nil => exact follows
  | @cons command effects commands outputs first _others ih =>
      have stepped := ih (follows.step command)
      rw [List.flatMap_cons, first]
      unfold Pointer.told at stepped ⊢
      rw [List.foldl_append]
      exact stepped

/-! ### A session -/

def cursorAfter (mini : Bool) (wakes : List (Framing.Wake UInt8 Empty)) :
    Option (Framing.Task UInt8 Net.Reading Unit) :=
  final (Framing.selectLoop (Net.channelReader mini Net.DEFAULT_MAX_MESSAGE_SIZE) cursorTask)
    (Framing.Task.start (Net.channelReader mini Net.DEFAULT_MAX_MESSAGE_SIZE) ()) wakes

def cursorEvents (mini : Bool) (wakes : List (Framing.Wake UInt8 Empty)) : List CursorEvent :=
  ((Framing.turns (Net.channelReader mini Net.DEFAULT_MAX_MESSAGE_SIZE) cursorTask
    (Framing.Task.start (Net.channelReader mini Net.DEFAULT_MAX_MESSAGE_SIZE) ()) wakes).map
      Turn.output).flatMap fun effects => effects.filterMap cursorEventOf

/-- A server changes its cursor, and its bytes come in any pieces. At every moment the task is
running, and the embedder has every sprite that the server had kept after the first changes and
shows the cursor that it showed then: after all of them, once every byte has been read. -/
theorem pointer_followed {commands : List PointerCommand} {mini : Bool}
    {messages : List (Nat × List UInt8)} {wakes : List (Framing.Wake UInt8 Empty)}
    {ahead : List UInt8} (asked : List.Forall₂ AsksPointer commands messages)
    (small : ∀ message ∈ messages, message.2.length ≤ Net.DEFAULT_MAX_MESSAGE_SIZE)
    (fewer : mini = false → messages.length < 2 ^ 64)
    (arrives : Framing.arrived wakes ++ ahead =
      Net.streamOf ((Net.Channel.new mini).writeAll messages)) :
    ∃ task count, cursorAfter mini wakes = some task ∧
      Follows ((commands.take count).foldl Pointer.obey Pointer.start)
        (Pointer.start.told (cursorEvents mini wakes)) ∧
      (ahead = [] → task.pending = [] → count = commands.length) := by
  rcases pointer_serves.session () asksPointer_typed asked small fewer arrives with
    ⟨task, count, after, announced, all⟩
  exact ⟨task, count, after, follows_announced follows_start announced, all⟩

def dot (flags unique : Nat) (data : List UInt8) : Cursor :=
  { flags := flags
    header := { unique := unique, kind := 0, width := 1, height := 1, hotSpotX := 0, hotSpotY := 0 }
    data := data }

def dotSet (flags unique : Nat) (data : List UInt8) : CursorSet :=
  { positionX := -1, positionY := 2, visible := 1, cursor := dot flags unique data }

def pointerCommands : List PointerCommand :=
  [.set (-1) 2 true 7 (spriteOf (dot 1 7 [1, 2, 3, 4])) true,
    .set (-1) 2 true 8 (spriteOf (dot 0 8 [5, 6, 7, 8, 9])) false, .reuse (-1) 2 true 7, .reset,
    .hide]

def pointerMessages : List (Nat × List UInt8) :=
  [(CursorMsg.SET, (PlainBody.cursorSet (dotSet 1 7 [1, 2, 3, 4])).encode ++ []),
    (CursorMsg.SET, (PlainBody.cursorSet (dotSet 0 8 [5, 6, 7, 8, 9])).encode ++ []),
    (CursorMsg.SET, (PlainBody.cursorSet (dotSet 2 7 [])).encode ++ []), (CursorMsg.RESET, []),
    (CursorMsg.HIDE, [])]

def pointerPieces : List (Framing.Wake UInt8 Empty) :=
  [.arrive ((Net.streamOf ((Net.Channel.new true).writeAll pointerMessages)).take 50), .read 40,
    .read 20]

theorem pointer_followed_cached :
    ∃ task count, cursorAfter true pointerPieces = some task ∧
      Follows ((pointerCommands.take count).foldl Pointer.obey Pointer.start)
        (Pointer.start.told (cursorEvents true pointerPieces)) ∧
      ((Net.streamOf ((Net.Channel.new true).writeAll pointerMessages)).drop 50 = [] →
        task.pending = [] → count = pointerCommands.length) := by
  have fits (flags : Nat) (data : List UInt8) (small : flags < 256 ^ 2) (unique : Nat)
      (few : unique < 256 ^ 8) (short : data.length ≤ MAX_CURSOR_BYTES) :
      (dotSet flags unique data).Fits := by
    refine ⟨?_, ?_, ?_, ?_⟩
    · simp [FitsSigned, dotSet]
    · simp [FitsSigned, dotSet]
    · simp [dotSet]
    · simp only [Cursor.Fits, CursorHeader.Fits, dotSet, dot, MAX_CURSOR_DIM]
      exact ⟨small, ⟨few, by decide, by decide, by decide, by decide, by decide⟩, by decide,
        by decide, short⟩
  have asked : List.Forall₂ AsksPointer pointerCommands pointerMessages := by
    refine .cons ?_ (.cons ?_ (.cons ?_ (.cons ?_ (.cons ?_ .nil))))
    · have own : ¬ (dot 1 7 [1, 2, 3, 4]).Cached := by simp [Cursor.Cached, dot, CursorFlag.FROM_CACHE,
        CursorFlag.FROM_CACHE_LOSSLESS]
      exact .set (@BringsCursor.set (dotSet 1 7 [1, 2, 3, 4]) [] (fits _ _ (by decide) _ (by decide)
        (by decide)) ⟨fun cached => absurd cached own, fun _own => rfl⟩) own rfl (by decide)
    · have own : ¬ (dot 0 8 [5, 6, 7, 8, 9]).Cached := by simp [Cursor.Cached, dot]
      exact .set (@BringsCursor.set (dotSet 0 8 [5, 6, 7, 8, 9]) [] (fits _ _ (by decide) _
        (by decide) (by decide)) ⟨fun cached => absurd cached own, fun _own => rfl⟩) own rfl
        (by decide)
    · have cached : (dot 2 7 []).Cached := by simp [Cursor.Cached, dot, CursorFlag.FROM_CACHE]
      exact .reuse (@BringsCursor.set (dotSet 2 7 []) [] (fits _ _ (by decide) _ (by decide)
        (by decide)) ⟨fun _cached => rfl, fun own => absurd cached own⟩) cached
    · exact .reset []
    · exact .hide []
  apply pointer_followed asked
  · decide +kernel
  · simp
  · decide +kernel

end Capsaicin.Client
