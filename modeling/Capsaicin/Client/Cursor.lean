/-
The cursor channel of the client.
-/

import Capsaicin.Client.Flow
import Capsaicin.Client.Inputs
import Capsaicin.Proto.Cursor

namespace Capsaicin.Client

open FlowControl (Kind Beat Honoured NeverFull)
open Net (Message)
open Proto
open Reactive (Turn Machine trace)

structure CursorInput where
  msg : Message
  receiving : Bool
  deriving DecidableEq, Repr

def cursorToEvent (x y : Int) (visible : Bool) (cursor : Cursor) : Option CursorEvent :=
  let fromCache :=
    cursor.flags &&& (CursorFlag.FROM_CACHE ||| CursorFlag.FROM_CACHE_LOSSLESS) ≠ 0
  if fromCache then some (.setFromCache x y cursor.header.unique visible)
  else
    let cacheable := cursor.flags &&& CursorFlag.CACHE_ME ≠ 0
    let expected := cursor.header.width * cursor.header.height * 4
    if cursor.header.kind = CursorType.ALPHA ∧ cursor.data.length < expected then none
    else
      let pixels :=
        if cursor.header.kind = CursorType.ALPHA then cursor.data.take expected else []
      some (.set x y cursor.header.hotSpotX cursor.header.hotSpotY cursor.header.width
        cursor.header.height pixels cursor.header.unique cacheable visible)

/-- An event for the embedder. The task ends when nobody receives it. -/
def emitCursor (receiving : Bool) (event : CursorEvent) : List Effect × Option Unit :=
  if receiving then ([.emit (.cursor event)], some ()) else ([], none)

/-- The loop goes on to the next message where a body does not parse. -/
def cursorLoop : Machine Unit CursorInput Effect := fun _ input =>
  if input.msg.msgType = Msg.PING then
    match Ping.decode input.msg.body with
    | .ok ping => ([pong ping], some ())
    | .error _ => ([], some ())
  else if input.msg.msgType = Msg.SET_ACK then
    match SetAck.decode input.msg.body with
    | .ok ack => ([ackSync ack], some ())
    | .error _ => ([], some ())
  else if input.msg.msgType = CursorMsg.INIT then
    match CursorInit.decode input.msg.body with
    | .ok init =>
        match cursorToEvent init.positionX init.positionY (init.visible ≠ 0) init.cursor with
        | some event => emitCursor input.receiving event
        | none => ([], some ())
    | .error _ => ([], some ())
  else if input.msg.msgType = CursorMsg.SET then
    match CursorSet.decode input.msg.body with
    | .ok set =>
        match cursorToEvent set.positionX set.positionY (set.visible ≠ 0) set.cursor with
        | some event => emitCursor input.receiving event
        | none => ([], some ())
    | .error _ => ([], some ())
  else if input.msg.msgType = CursorMsg.MOVE then
    match CursorMove.decode input.msg.body with
    | .ok move => emitCursor input.receiving (.move move.positionX move.positionY)
    | .error _ => ([], some ())
  else if input.msg.msgType = CursorMsg.HIDE then emitCursor input.receiving .hide
  else if input.msg.msgType = CursorMsg.INVAL_ONE then
    match CursorInvalOne.decode input.msg.body with
    | .ok inval => emitCursor input.receiving (.invalidateOne inval.unique)
    | .error _ => ([], some ())
  else if input.msg.msgType = CursorMsg.INVAL_ALL then emitCursor input.receiving .invalidateAll
  else ([], some ())

/-! ### Its windows -/

def cursorBeat (turn : Turn CursorInput Effect) : Beat where
  kind := kindOf turn.input.msg
  acks := turn.output.countP isAck

theorem emitCursor_silent (receiving : Bool) (event : CursorEvent) :
    (emitCursor receiving event).1.countP isAck = 0 := by
  cases receiving with
  | false => rfl
  | true => rfl

theorem cursorLoop_silent (input : CursorInput) : (cursorLoop () input).1.countP isAck = 0 := by
  unfold cursorLoop
  split
  · split
    · rfl
    · rfl
  · split
    · split
      · rfl
      · rfl
    · split
      · split
        · split
          · exact emitCursor_silent _ _
          · rfl
        · rfl
      · split
        · split
          · split
            · exact emitCursor_silent _ _
            · rfl
          · rfl
        · split
          · split
            · exact emitCursor_silent _ _
            · rfl
          · split
            · exact emitCursor_silent _ _
            · split
              · split
                · exact emitCursor_silent _ _
                · rfl
              · split
                · exact emitCursor_silent _ _
                · rfl

theorem cursor_silent (inputs : List CursorInput) :
    ∀ beat ∈ (trace cursorLoop () inputs).map cursorBeat, beat.acks = 0 := by
  intro beat member
  obtain ⟨turn, turned, rfl⟩ := List.mem_map.mp member
  let quiet (turn : Turn CursorInput Effect) : Prop := turn.output.countP isAck = 0
  have puts (state : Unit) (input : CursorInput) :
      quiet { input := input, output := (cursorLoop state input).1 } := cursorLoop_silent input
  exact Reactive.trace_turn puts turned

/-- The inputs and the cursor channel, which answer a `SET_ACK` and never acknowledge,
honour the windows exactly as long as none of them is full. -/
theorem side_windows_iff (inputs : List InputsInput) (messages : List CursorInput) :
    (Honoured ((trace inputsLoop () inputs).map inputsBeat) ↔
        NeverFull ((trace inputsLoop () inputs).map fun turn => inputsKind turn.input)) ∧
      (Honoured ((trace cursorLoop () messages).map cursorBeat) ↔
        NeverFull ((trace cursorLoop () messages).map fun turn => kindOf turn.input.msg)) := by
  constructor
  · rw [FlowControl.honoured_iff_neverFull (inputs_silent inputs), List.map_map]
    rfl
  · rw [FlowControl.honoured_iff_neverFull (cursor_silent messages), List.map_map]
    rfl

/-- A window of one message, and one message. -/
theorem side_window_ignored :
    ¬ Honoured ((trace inputsLoop ()
        [.message (.mini Msg.SET_ACK (SetAck.mk 1 1).encode),
          .message (.mini ServerMsg.INPUTS_KEY_MODIFIERS [0, 0, 0, 0])]).map inputsBeat) ∧
      ¬ Honoured ((trace cursorLoop ()
        [⟨.mini Msg.SET_ACK (SetAck.mk 1 1).encode, true⟩,
          ⟨.mini CursorMsg.HIDE [], true⟩]).map cursorBeat) := by
  constructor
  · intro honoured
    exact absurd (honoured _ (List.prefix_refl _) (by decide)) (by decide)
  · intro honoured
    exact absurd (honoured _ (List.prefix_refl _) (by decide)) (by decide)

end Capsaicin.Client
