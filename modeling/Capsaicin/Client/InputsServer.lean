/-
The inputs channel as its server sees it: the bytes of the task are read back as what the
embedder has sent and what the task has answered, in the order of the task.
-/

import Capsaicin.Client.InputsTask
import Capsaicin.Net.Session
import Capsaicin.Proto.Canonical

namespace Capsaicin.Client

open Framing (Wake received seen events arrived)
open Net (Channel Message DEFAULT_MAX_MESSAGE_SIZE numbered readMessages streamOf unread)
open Proto
open Reactive (Turn)

/-! ### Messages of the client -/

inductive Reply where
  | input (event : InputEvent)
  | pong (pong : Pong)
  | ackSync (sync : AckSync)
  deriving DecidableEq, Repr

def Reply.input? : Reply → Option InputEvent
  | .input event => some event
  | _ => none

def Reply.ofMessage (msgType : Nat) (body : List UInt8) : Option Reply :=
  if msgType = ClientMsg.INPUTS_KEY_DOWN then
    (KeyCode.decode body).toOption.map fun key => .input (.keyDown key.code)
  else if msgType = ClientMsg.INPUTS_KEY_UP then
    (KeyCode.decode body).toOption.map fun key => .input (.keyUp key.code)
  else if msgType = ClientMsg.INPUTS_KEY_MODIFIERS then
    (KeyModifiers.decode body).toOption.map fun modifiers =>
      .input (.keyModifiers modifiers.keyboardModifiers)
  else if msgType = ClientMsg.INPUTS_MOUSE_MOTION then
    (MouseMotion.decode body).toOption.map fun motion =>
      .input (.mouseMotion motion.dx motion.dy motion.buttonsState)
  else if msgType = ClientMsg.INPUTS_MOUSE_POSITION then
    (MousePosition.decode body).toOption.map fun position =>
      .input (.mousePosition position.x position.y position.buttonsState position.displayId)
  else if msgType = ClientMsg.INPUTS_MOUSE_PRESS then
    (MouseButton.decode body).toOption.map fun press =>
      .input (.mousePress press.button press.buttonsState)
  else if msgType = ClientMsg.INPUTS_MOUSE_RELEASE then
    (MouseButton.decode body).toOption.map fun press =>
      .input (.mouseRelease press.button press.buttonsState)
  else if msgType = Msgc.PONG then (Pong.decode body).toOption.map .pong
  else if msgType = Msgc.ACK_SYNC then (AckSync.decode body).toOption.map .ackSync
  else none

def InputEvent.Fits : InputEvent → Prop
  | .keyDown code | .keyUp code => code < 256 ^ 4
  | .keyModifiers mods => mods < 256 ^ 4
  | .mouseMotion dx dy buttons => FitsSigned 32 dx ∧ FitsSigned 32 dy ∧ buttons < 256 ^ 4
  | .mousePosition x y buttons display =>
      x < 256 ^ 4 ∧ y < 256 ^ 4 ∧ buttons < 256 ^ 4 ∧ display < 256 ^ 1
  | .mousePress button buttons | .mouseRelease button buttons =>
      button < 256 ^ 1 ∧ buttons < 256 ^ 4

def replies : InputsInput → List Reply
  | .message msg =>
      if msg.msgType = Msg.PING then
        (Ping.decode msg.body).toOption.toList.map fun ping => .pong (Pong.fromPing ping)
      else if msg.msgType = Msg.SET_ACK then
        (SetAck.decode msg.body).toOption.toList.map fun ack => .ackSync (AckSync.mk ack.generation)
      else []
  | .event maybeEvt => maybeEvt.toList.map .input

def messageOf : Effect → Option (Nat × List UInt8)
  | .write msgType body => some (msgType, body)
  | .emit _ => none

/-- A message that is read as one thing, of a type and a size that a channel takes. -/
structure ReadAs (pair : Nat × List UInt8) (reply : Reply) : Prop where
  read : Reply.ofMessage pair.1 pair.2 = some reply
  typed : pair.1 < 256 ^ 2
  small : pair.2.length ≤ 13

/-! ### One message -/

theorem readAs_of {α : Type} {reader : Reader α} {encode : α → List UInt8} {fits : α → Prop}
    (canonical : Codec.Canonical reader encode fits) (make : α → Reply) (msgType : Nat) {value : α}
    (fit : fits value)
    (arm : Reply.ofMessage msgType (encode value) =
      (reader.decode (encode value)).toOption.map make)
    (typed : msgType < 256 ^ 2) (small : (encode value).length ≤ 13) :
    ReadAs (msgType, encode value) (make value) where
  read := by
    have read := (canonical.exact fit).whole []
    rw [List.append_nil] at read
    dsimp only
    rw [arm, Reader.decode_ok read]
    rfl
  typed := typed
  small := small

theorem sendEvent_tells {event : InputEvent} (fits : event.Fits) :
    ∃ pair, messageOf (sendEvent event) = some pair ∧ ReadAs pair (.input event) := by
  cases event with
  | keyDown code =>
      refine ⟨_, rfl, readAs_of KeyCode.canonical (fun key => .input (.keyDown key.code))
        ClientMsg.INPUTS_KEY_DOWN fits rfl (by decide) ?_⟩
      simp [KeyCode.encode, writeU32]
  | keyUp code =>
      refine ⟨_, rfl, readAs_of KeyCode.canonical (fun key => .input (.keyUp key.code))
        ClientMsg.INPUTS_KEY_UP fits rfl (by decide) ?_⟩
      simp [KeyCode.encode, writeU32]
  | keyModifiers mods =>
      refine ⟨_, rfl, readAs_of KeyModifiers.canonical
        (fun modifiers => .input (.keyModifiers modifiers.keyboardModifiers))
        ClientMsg.INPUTS_KEY_MODIFIERS fits rfl (by decide) ?_⟩
      simp [KeyModifiers.encode, writeU32]
  | mouseMotion dx dy buttons =>
      refine ⟨_, rfl, readAs_of MouseMotion.canonical
        (fun motion => .input (.mouseMotion motion.dx motion.dy motion.buttonsState))
        ClientMsg.INPUTS_MOUSE_MOTION fits rfl (by decide) ?_⟩
      simp [MouseMotion.encode, writeI32, writeU32]
  | mousePosition x y buttons display =>
      refine ⟨_, rfl, readAs_of MousePosition.canonical
        (fun position => .input (.mousePosition position.x position.y position.buttonsState
          position.displayId))
        ClientMsg.INPUTS_MOUSE_POSITION fits rfl (by decide) ?_⟩
      simp [MousePosition.encode, writeU8, writeU32]
  | mousePress button buttons =>
      refine ⟨_, rfl, readAs_of MouseButton.canonical
        (fun press => .input (.mousePress press.button press.buttonsState))
        ClientMsg.INPUTS_MOUSE_PRESS fits rfl (by decide) ?_⟩
      simp [MouseButton.encode, writeU8, writeU32]
  | mouseRelease button buttons =>
      refine ⟨_, rfl, readAs_of MouseButton.canonical
        (fun press => .input (.mouseRelease press.button press.buttonsState))
        ClientMsg.INPUTS_MOUSE_RELEASE fits rfl (by decide) ?_⟩
      simp [MouseButton.encode, writeU8, writeU32]

theorem pong_tells {ping : Ping} {body : List UInt8} (parsed : Ping.decode body = .ok ping) :
    ∃ pair, messageOf (pong ping) = some pair ∧ ReadAs pair (.pong (Pong.fromPing ping)) := by
  rcases Reader.decode_iff.mp parsed with ⟨rest, ran⟩
  rcases Ping.reads_iff.mp ran with ⟨fits, _same, _rest⟩
  refine ⟨_, rfl, readAs_of Pong.canonical Reply.pong Msgc.PONG ⟨fits.1, fits.2⟩ rfl (by decide) ?_⟩
  simp [Pong.encode, writeU32, writeU64]

theorem ackSync_tells {ack : SetAck} {body : List UInt8} (parsed : SetAck.decode body = .ok ack) :
    ∃ pair, messageOf (ackSync ack) = some pair ∧
      ReadAs pair (.ackSync (AckSync.mk ack.generation)) := by
  rcases Reader.decode_iff.mp parsed with ⟨rest, ran⟩
  rcases (SetAck.canonical _ _ _).mp ran with ⟨fits, _same⟩
  refine ⟨_, rfl, readAs_of AckSync.canonical Reply.ackSync Msgc.ACK_SYNC fits.1 rfl (by decide) ?_⟩
  simp [AckSync.encode, writeU32]

theorem turn_tells {input : InputsInput}
    (fits : ∀ event, input = .event (some event) → event.Fits) :
    List.Forall₂ ReadAs ((inputsLoop () input).1.filterMap messageOf) (replies input) := by
  have single {effect : Effect} {reply : Reply}
      (tells : ∃ pair, messageOf effect = some pair ∧ ReadAs pair reply) :
      List.Forall₂ ReadAs ([effect].filterMap messageOf) [reply] := by
    rcases tells with ⟨pair, sent, told⟩
    rw [List.filterMap_cons_some sent]
    exact .cons told .nil
  cases input with
  | event maybeEvt =>
      cases maybeEvt with
      | none => exact .nil
      | some event => exact single (sendEvent_tells (fits event rfl))
  | message msg =>
      unfold inputsLoop handleServerMsg replies
      dsimp only
      by_cases ping : msg.msgType = Msg.PING
      · rw [if_pos ping, if_pos ping]
        cases parsed : Ping.decode msg.body with
        | error reason => exact .nil
        | ok found => exact single (pong_tells parsed)
      · rw [if_neg ping, if_neg ping]
        by_cases setAck : msg.msgType = Msg.SET_ACK
        · rw [if_pos setAck, if_pos setAck]
          cases parsed : SetAck.decode msg.body with
          | error reason => exact .nil
          | ok found => exact single (ackSync_tells parsed)
        · rw [if_neg setAck, if_neg setAck]
          exact .nil

/-! ### A run -/

def writes (turns : List (Turn InputsInput Effect)) : List (Nat × List UInt8) :=
  (written turns).filterMap messageOf

theorem writes_tell {turns : List (Turn InputsInput Effect)}
    (run : ∀ turn ∈ turns, turn.output = (inputsLoop () turn.input).1)
    (fits : ∀ event, some event ∈ seen turns → event.Fits) :
    List.Forall₂ ReadAs (writes turns) (turns.flatMap fun turn => replies turn.input) := by
  induction turns with
  | nil => exact .nil
  | cons turn rest ih =>
      rcases turn with ⟨input, output⟩
      have here := run _ List.mem_cons_self
      dsimp only at here
      have split : writes ({ input := input, output := output } :: rest) =
          output.filterMap messageOf ++ writes rest := by
        unfold writes written
        rw [List.flatMap_cons, List.filterMap_append]
      have later := ih (fun turn member => run turn (List.mem_cons_of_mem _ member)) (by
        intro event member
        apply fits
        cases input with
        | message msg => exact member
        | event maybeEvt => exact List.mem_cons_of_mem maybeEvt member)
      rw [split, List.flatMap_cons, here]
      apply List.rel_append _ later
      apply turn_tells
      rintro event rfl
      exact fits event List.mem_cons_self

theorem replies_input (turns : List (Turn InputsInput Effect)) :
    (turns.flatMap fun turn => replies turn.input).filterMap Reply.input? =
      (seen turns).reduceOption := by
  induction turns with
  | nil => rfl
  | cons turn rest ih =>
      rw [List.flatMap_cons, List.filterMap_append, ih]
      rcases turn with ⟨input, output⟩
      cases input with
      | event maybeEvt =>
          cases maybeEvt with
          | none => rfl
          | some event => rfl
      | message msg =>
          have silent : (replies (.message msg)).filterMap Reply.input? = [] := by
            unfold replies
            dsimp only
            split
            · simp [List.filterMap_map, Function.comp_def, Reply.input?]
            · split
              · simp [List.filterMap_map, Function.comp_def, Reply.input?]
              · rfl
          rw [silent]
          rfl

theorem numbered_tell {serial : Nat} (mini : Bool) {pairs : List (Nat × List UInt8)}
    {told : List Reply} (tells : List.Forall₂ ReadAs pairs told) :
    (numbered mini serial pairs).map (fun msg => Reply.ofMessage msg.msgType msg.body) =
      told.map some := by
  induction tells generalizing serial with
  | nil => rfl
  | cons first _others ih =>
      rw [numbered, List.map_cons, List.map_cons, ih, ← first.read]

theorem told_read {mini : Bool} {wakes : List (Wake UInt8 (Option InputEvent))}
    {peer : List (Wake UInt8 Empty)} {ahead : List UInt8}
    (fits : ∀ event, some event ∈ seen (inputsTurns mini wakes) → event.Fits)
    (fewer : mini = false → (writes (inputsTurns mini wakes)).length < 2 ^ 64)
    (arrives : arrived peer ++ ahead =
      streamOf ((Channel.new mini).writeAll (writes (inputsTurns mini wakes)))) :
    ∃ task count,
      unread (Channel.new mini) peer = some task ∧
      (readMessages (Channel.new mini) peer).map (fun msg => Reply.ofMessage msg.msgType msg.body) =
        (((inputsTurns mini wakes).flatMap fun turn => replies turn.input).take count).map some ∧
      (ahead = [] → task.pending = [] →
        count = ((inputsTurns mini wakes).flatMap fun turn => replies turn.input).length) := by
  have tells := writes_tell (inputsTurns_run mini wakes) fits
  have small : ∀ pair ∈ writes (inputsTurns mini wakes),
      pair.1 < 256 ^ 2 ∧ pair.2.length ≤ 13 := by
    intro pair member
    rcases Net.partner tells.flip pair member with ⟨_reply, _among, read⟩
    exact ⟨read.typed, read.small⟩
  rcases @Net.written_read_first _ _ Net.readOn _ _ _ _ () (fun pair member => (small pair member).1)
    (fun pair member => Nat.le_trans (small pair member).2 (by decide : 13 ≤ DEFAULT_MAX_MESSAGE_SIZE))
    fewer arrives (fun _msg _member _state => Option.some_ne_none ()) with ⟨task, rest, after, read, done⟩
  change readMessages (Channel.new mini) peer ++ rest = numbered mini 1 _ at read
  have decoded := @numbered_tell 1 mini _ _ tells
  rw [← read, List.map_append] at decoded
  refine ⟨task, (readMessages (Channel.new mini) peer).length, after, ?_, ?_⟩
  · rw [List.map_take, ← decoded]
    exact (List.take_left' (List.length_map _)).symm
  · intro none empty
    have lengths := congrArg List.length decoded
    rw [done none empty, List.map_nil, List.append_nil, List.length_map, List.length_map] at lengths
    exact lengths

theorem inputs_seen (mini : Bool) (wakes : List (Wake UInt8 (Option InputEvent))) :
    seen (inputsTurns mini wakes) <+: events wakes ∧
      (inputsTask mini wakes ≠ none → seen (inputsTurns mini wakes) = events wakes) :=
  @Framing.seen_events _ _ _ _ _ _ (Net.channelReader mini DEFAULT_MAX_MESSAGE_SIZE) inputsLoop
    (Framing.Task.start (Net.channelReader mini DEFAULT_MAX_MESSAGE_SIZE) ()) wakes

/-- A server that reads what the task has written, in any pieces, reads what the task has to tell,
in order and nothing else; and whatever happens to the messages of the server, the events of the
embedder are told in their order, and all of them as long as the task runs. -/
theorem server_reads_inputs {mini : Bool} {wakes : List (Wake UInt8 (Option InputEvent))}
    {peer : List (Wake UInt8 Empty)} {ahead : List UInt8}
    (fits : ∀ event, some event ∈ events wakes → event.Fits)
    (fewer : mini = false → (writes (inputsTurns mini wakes)).length < 2 ^ 64)
    (arrives : arrived peer ++ ahead =
      streamOf ((Channel.new mini).writeAll (writes (inputsTurns mini wakes)))) :
    ∃ task told count,
      unread (Channel.new mini) peer = some task ∧
      (readMessages (Channel.new mini) peer).map (fun msg => Reply.ofMessage msg.msgType msg.body) =
        (told.take count).map some ∧
      (ahead = [] → task.pending = [] → count = told.length) ∧
      told = ((inputsTurns mini wakes).flatMap fun turn => replies turn.input) ∧
      told.filterMap Reply.input? = (seen (inputsTurns mini wakes)).reduceOption ∧
      seen (inputsTurns mini wakes) <+: events wakes ∧
      (inputsTask mini wakes ≠ none → seen (inputsTurns mini wakes) = events wakes) := by
  rcases inputs_seen mini wakes with ⟨first, all⟩
  rcases told_read (fun event member => fits event (first.mem member)) fewer arrives with
    ⟨task, count, after, read, done⟩
  exact ⟨task, _, count, after, read, done, rfl, replies_input _, first, all⟩

/-- The server reads the bytes behind a key that comes while a message is partly read. -/
def racedPeer : List (Wake UInt8 Empty) :=
  [.arrive (streamOf ((Channel.new true).writeAll (writes (inputsTurns true racedWakes)))),
    .read 3, .read 90, .read 90]

theorem server_reads_inputs_raced :
    ∃ task told count,
      unread (Channel.new true) racedPeer = some task ∧
      (readMessages (Channel.new true) racedPeer).map
          (fun msg => Reply.ofMessage msg.msgType msg.body) = (told.take count).map some ∧
      (([] : List UInt8) = [] → task.pending = [] → count = told.length) ∧
      told = ((inputsTurns true racedWakes).flatMap fun turn => replies turn.input) ∧
      told.filterMap Reply.input? = (seen (inputsTurns true racedWakes)).reduceOption ∧
      seen (inputsTurns true racedWakes) <+: events racedWakes ∧
      (inputsTask true racedWakes ≠ none →
        seen (inputsTurns true racedWakes) = events racedWakes) := by
  apply server_reads_inputs
  · intro event member
    have only : .keyDown 30 = event := by simpa [racedWakes, events, Framing.Wake.event?] using member
    subst only
    change 30 < 256 ^ 4
    decide
  · simp
  · decide +kernel

end Capsaicin.Client
