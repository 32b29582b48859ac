/-
The inputs channel of the client, message by message.
-/

import Capsaicin.Client.Flow
import Capsaicin.Library.Framing
import Capsaicin.Library.Program
import Capsaicin.Proto.Inputs

namespace Capsaicin.Client

open FlowControl (Kind Beat Honoured NeverFull)
open Net (Message NetError)
open Proto
open Reactive (Turn Machine trace)

abbrev InputsInput := Framing.Input Message (Option InputEvent)

def sendEvent : InputEvent → Effect
  | .keyDown code => .write ClientMsg.INPUTS_KEY_DOWN (KeyCode.mk code).encode
  | .keyUp code => .write ClientMsg.INPUTS_KEY_UP (KeyCode.mk code).encode
  | .keyModifiers mods => .write ClientMsg.INPUTS_KEY_MODIFIERS (KeyModifiers.mk mods).encode
  | .mouseMotion dx dy buttons =>
      .write ClientMsg.INPUTS_MOUSE_MOTION (MouseMotion.mk dx dy buttons).encode
  | .mousePosition x y buttons display =>
      .write ClientMsg.INPUTS_MOUSE_POSITION (MousePosition.mk x y buttons display).encode
  | .mousePress button buttons =>
      .write ClientMsg.INPUTS_MOUSE_PRESS (MouseButton.mk button buttons).encode
  | .mouseRelease button buttons =>
      .write ClientMsg.INPUTS_MOUSE_RELEASE (MouseButton.mk button buttons).encode

/-- The status messages and the unknown ones are left alone. -/
def handleServerMsg (msg : Message) : Except ProtoError (List Effect) :=
  if msg.msgType = Msg.PING then do
    let ping ← Ping.decode msg.body
    .ok [pong ping]
  else if msg.msgType = Msg.SET_ACK then do
    let ack ← SetAck.decode msg.body
    .ok [ackSync ack]
  else .ok []

def inputsLoop : Machine Unit InputsInput Effect := fun _ input =>
  match input with
  | .message msg =>
      match handleServerMsg msg with
      | .ok output => (output, some ())
      | .error _ => ([], none)
  | .event (some evt) => ([sendEvent evt], some ())
  | .event none => ([], none)

/-! ### Its windows -/

def inputsKind : InputsInput → Kind
  | .message msg => kindOf msg
  | .event _ => .other

def inputsBeat (turn : Turn InputsInput Effect) : Beat where
  kind := inputsKind turn.input
  acks := turn.output.countP isAck

theorem sendEvent_not_ack (evt : InputEvent) : isAck (sendEvent evt) = false := by
  cases evt with
  | keyDown code => rfl
  | keyUp code => rfl
  | keyModifiers mods => rfl
  | mouseMotion dx dy buttons => rfl
  | mousePosition x y buttons display => rfl
  | mousePress button buttons => rfl
  | mouseRelease button buttons => rfl

theorem handleServerMsg_silent {msg : Message} {output : List Effect}
    (handled : handleServerMsg msg = .ok output) : output.countP isAck = 0 := by
  unfold handleServerMsg at handled
  split at handled
  · obtain ⟨ping, _parsed, done⟩ := Program.bind_eq_ok.mp handled
    cases done
    rfl
  · split at handled
    · obtain ⟨ack, _parsed, done⟩ := Program.bind_eq_ok.mp handled
      cases done
      rfl
    · cases handled
      rfl

theorem inputsLoop_silent (input : InputsInput) : (inputsLoop () input).1.countP isAck = 0 := by
  cases input with
  | message msg =>
      rw [inputsLoop]
      cases handled : handleServerMsg msg with
      | ok output => exact handleServerMsg_silent handled
      | error reason => rfl
  | event maybeEvt =>
      cases maybeEvt with
      | none => rfl
      | some evt =>
          change [sendEvent evt].countP isAck = 0
          rw [List.countP_cons, sendEvent_not_ack]
          rfl

theorem inputs_silent (inputs : List InputsInput) :
    ∀ beat ∈ (trace inputsLoop () inputs).map inputsBeat, beat.acks = 0 := by
  intro beat member
  obtain ⟨turn, turned, rfl⟩ := List.mem_map.mp member
  let quiet (turn : Turn InputsInput Effect) : Prop := turn.output.countP isAck = 0
  have puts (state : Unit) (input : InputsInput) :
      quiet { input := input, output := (inputsLoop state input).1 } := inputsLoop_silent input
  exact Reactive.trace_turn puts turned

end Capsaicin.Client
