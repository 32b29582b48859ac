/-
Flow control as the channel loops of the client see it: which messages count, and
which of their writes acknowledge a window.
-/

import Capsaicin.Client.Events
import Capsaicin.Library.FlowControl
import Capsaicin.Net.Message

namespace Capsaicin.Client

open FlowControl (Kind Beat Heed Counter)
open Net (Message)
open Proto
open Reactive (Turn)

/-- The message types that every loop leaves out of its count. -/
def uncounted (msgType : Nat) : Bool :=
  msgType = Msg.SET_ACK || msgType = Msg.PING || msgType = Msg.MIGRATE ||
    msgType = Msg.MIGRATE_DATA

def pong (ping : Ping) : Effect := .write Msgc.PONG (Pong.fromPing ping).encode

def ackSync (ack : SetAck) : Effect := .write Msgc.ACK_SYNC (AckSync.mk ack.generation).encode

def ackMessage : Effect := .write Msgc.ACK []

/-! ### The log of a run -/

/-- What a message means for the window. A `SET_ACK` that does not parse announces
nothing. -/
def kindOf (msg : Message) : Kind :=
  if msg.msgType = Msg.SET_ACK then
    match SetAck.decode msg.body with
    | .ok ack => .announce ack.window
    | .error _ => .other
  else if uncounted msg.msgType then .other
  else .countable

def isAck : Effect → Bool
  | .write msgType _ => msgType = Msgc.ACK
  | .emit _ => false

def beat (turn : Turn Message Effect) : Beat where
  kind := kindOf turn.input
  acks := turn.output.countP isAck

/-- A receiver that takes note of no window and counts nothing. -/
def unheeded (msg : Message) : Heed where
  kind := kindOf msg
  noted := false

theorem kindOf_setAck {msg : Message} {ack : SetAck} (setAck : msg.msgType = Msg.SET_ACK)
    (parsed : SetAck.decode msg.body = .ok ack) : kindOf msg = .announce ack.window := by
  unfold kindOf
  rw [if_pos setAck, parsed]

theorem kindOf_malformed {msg : Message} {reason : ProtoError}
    (setAck : msg.msgType = Msg.SET_ACK) (failed : SetAck.decode msg.body = .error reason) :
    kindOf msg = .other := by
  unfold kindOf
  rw [if_pos setAck, failed]

theorem kindOf_uncounted {msg : Message} (other : msg.msgType ≠ Msg.SET_ACK)
    (control : uncounted msg.msgType = true) : kindOf msg = .other := by
  unfold kindOf
  rw [if_neg other, if_pos control]

theorem kindOf_countable {msg : Message} (counts : uncounted msg.msgType = false) :
    kindOf msg = .countable := by
  have other : msg.msgType ≠ Msg.SET_ACK := by
    intro setAck
    rw [setAck] at counts
    cases counts
  unfold kindOf
  rw [if_neg other, if_neg (by rw [counts]; exact Bool.false_ne_true)]

theorem silent_log {turns : List (Turn Message Effect)} (counter : Counter) (heeds : List Heed)
    (silent : ∀ turn ∈ turns, turn.output.countP isAck = 0) :
    turns.map beat ++ counter.log heeds =
      counter.log (turns.map (fun turn => unheeded turn.input) ++ heeds) := by
  induction turns with
  | nil => rfl
  | cons turn rest ih =>
      have quiet : counter.next (unheeded turn.input) = (counter, 0) := rfl
      have none := silent turn List.mem_cons_self
      rw [List.map_cons, List.map_cons, List.cons_append, List.cons_append,
        ih fun other member => silent other (List.mem_cons_of_mem turn member), Counter.log, quiet,
        beat, none]
      rfl

end Capsaicin.Client
