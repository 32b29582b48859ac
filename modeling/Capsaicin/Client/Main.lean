/-
The main channel of the client: the bootstrap, and the loop that takes the channel
from it.
-/

import Capsaicin.Client.Flow
import Capsaicin.Library.Program

namespace Capsaicin.Client

open FlowControl (Kind Beat Heed Counter Honoured Complete)
open Net (Message NetError)
open Proto
open Reactive (Turn)

/-! ### The bootstrap -/

structure Bootstrap where
  init : Option Init
  attached : Bool
  channelsList : Option ChannelsList
  deriving DecidableEq, Repr

def Bootstrap.start : Bootstrap := { init := none, attached := false, channelsList := none }

structure MainConnection where
  sessionId : Nat
  init : Init
  availableChannels : List ChannelId
  deriving DecidableEq, Repr

/-- The body of the loop. The messages that it knows and leaves alone and those that
it does not know end in the same arm here. -/
def bootstrapMessage (state : Bootstrap) (msg : Message) :
    Except ProtoError (Bootstrap × List Effect) :=
  if msg.msgType = Msg.SET_ACK then do
    let ack ← SetAck.decode msg.body
    .ok (state, [ackSync ack])
  else if msg.msgType = Msg.PING then do
    let ping ← Ping.decode msg.body
    .ok (state, [pong ping])
  else if msg.msgType = MainMsg.INIT then do
    let parsed ← Init.decode msg.body
    let request :=
      if parsed.supportedMouseModes &&& MouseModes.CLIENT ≠ 0 ∧
          parsed.currentMouseMode ≠ MouseModes.CLIENT then
        [.write MainMsgc.MOUSE_MODE_REQUEST (MouseModeRequest.mk MouseModes.CLIENT).encode]
      else []
    .ok ({ state with init := some parsed, attached := true },
      request ++ [.write MainMsgc.ATTACH_CHANNELS []])
  else if msg.msgType = MainMsg.CHANNELS_LIST then do
    let list ← ChannelsList.decode msg.body
    .ok ({ state with channelsList := some list }, [])
  else .ok (state, [])

/-- What follows the loop, once it has ended. -/
def Bootstrap.connection (state : Bootstrap) : Option (Except NetError MainConnection) :=
  match state.channelsList, state.init with
  | none, _ => none
  | some _, none => some (.error (.proto (.badLinkError 0)))
  | some list, some init =>
      some (.ok
        { sessionId := init.sessionId
          init := init
          availableChannels := list.channels })

/-- What the bootstrap returns, what it did for each message it read, and the messages
that it leaves to the next loop. -/
def bootstrap (state : Bootstrap) : List Message →
    Except NetError (MainConnection × List (Turn Message Effect) × List Message)
  | [] =>
      match state.connection with
      | some result => result.map fun connection => (connection, [], [])
      | none => .error .io
  | msg :: rest =>
      match state.connection with
      | some result => result.map fun connection => (connection, [], msg :: rest)
      | none =>
          match bootstrapMessage state msg with
          | .error reason => .error (.proto reason)
          | .ok (next, output) => do
              let (connection, turns, left) ← bootstrap next rest
              .ok (connection, { input := msg, output := output } :: turns, left)

/-! ### The loop -/

structure MainState where
  ackWindow : Nat
  ackRemaining : Nat
  deriving DecidableEq, Repr

def MainState.start : MainState := { ackWindow := 0, ackRemaining := 0 }

/-- The `match` of the loop; nothing where the source goes on to the next message. -/
def runMainArm (state : MainState) (msg : Message) : Option (List Effect × MainState) :=
  if msg.msgType = Msg.PING then
    match Ping.decode msg.body with
    | .ok ping => some ([pong ping], state)
    | .error _ => none
  else if msg.msgType = Msg.SET_ACK then
    match SetAck.decode msg.body with
    | .ok ack => some ([ackSync ack], { ackWindow := ack.window, ackRemaining := ack.window })
    | .error _ => none
  else if msg.msgType = MainMsg.MOUSE_MODE then
    match MouseModeBody.decode msg.body with
    | .ok mode => some ([.emit (.mouseMode (MouseMode.fromRaw mode.currentMode))], state)
    | .error _ => none
  else some ([], state)

def runMainMessage (state : MainState) (msg : Message) : List Effect × MainState :=
  match runMainArm state msg with
  | none => ([], state)
  | some (output, state) =>
      if 0 < state.ackWindow ∧ uncounted msg.msgType = false then
        if state.ackRemaining - 1 = 0 then
          (output ++ [ackMessage], { state with ackRemaining := state.ackWindow })
        else (output, { state with ackRemaining := state.ackRemaining - 1 })
      else (output, state)

def runMain (state : MainState) : List Message → List (Turn Message Effect)
  | [] => []
  | msg :: rest =>
      { input := msg, output := (runMainMessage state msg).1 } ::
        runMain (runMainMessage state msg).2 rest

/-! ### The windows of a connection -/

/-- The loop overlooks a `MOUSE_MODE` that does not parse. -/
def mainHeed (msg : Message) : Heed where
  kind := kindOf msg
  noted := !(msg.msgType = MainMsg.MOUSE_MODE && decide (msg.body.length < 8))

/-- The first `CHANNELS_LIST` is the last message of the bootstrap. -/
def connectionHeeds : List Message → List Heed
  | [] => []
  | msg :: rest =>
      if msg.msgType = MainMsg.CHANNELS_LIST then unheeded msg :: rest.map mainHeed
      else unheeded msg :: connectionHeeds rest

def MainState.counter (state : MainState) : Counter where
  window := state.ackWindow
  remaining := state.ackRemaining

/-- What a message does to the bootstrap: it sends no acknowledgement, and only a
`CHANNELS_LIST` ends the loop. -/
structure Boots (state next : Bootstrap) (msg : Message) (output : List Effect) : Prop where
  silent : output.countP isAck = 0
  listed : msg.msgType = MainMsg.CHANNELS_LIST → next.channelsList.isSome = true
  goesOn : msg.msgType ≠ MainMsg.CHANNELS_LIST → next.channelsList = state.channelsList

theorem bootstrapMessage_boots {state next : Bootstrap} {msg : Message} {output : List Effect}
    (ran : bootstrapMessage state msg = .ok (next, output)) : Boots state next msg output := by
  unfold bootstrapMessage at ran
  split at ran
  · rename_i setAck
    obtain ⟨ack, _parsed, done⟩ := Program.bind_eq_ok.mp ran
    cases done
    exact ⟨rfl, fun listed => absurd (setAck.symm.trans listed) (by decide), fun _ => rfl⟩
  · split at ran
    · rename_i ping
      obtain ⟨body, _parsed, done⟩ := Program.bind_eq_ok.mp ran
      cases done
      exact ⟨rfl, fun listed => absurd (ping.symm.trans listed) (by decide), fun _ => rfl⟩
    · split at ran
      · rename_i init
        obtain ⟨parsed, _parsed, done⟩ := Program.bind_eq_ok.mp ran
        have silent : output.countP isAck = 0 := by
          dsimp only at done
          split at done
          · cases done
            rfl
          · cases done
            rfl
        cases done
        exact ⟨silent, fun listed => absurd (init.symm.trans listed) (by decide), fun _ => rfl⟩
      · split at ran
        · rename_i listed
          obtain ⟨list, _parsed, done⟩ := Program.bind_eq_ok.mp ran
          cases done
          exact ⟨rfl, fun _ => rfl, fun other => absurd listed other⟩
        · rename_i other
          cases ran
          exact ⟨rfl, fun listed => absurd listed other, fun _ => rfl⟩

theorem connection_of_listed {state : Bootstrap} (listed : state.channelsList.isSome = true) :
    ∃ result, state.connection = some result := by
  unfold Bootstrap.connection
  cases channels : state.channelsList with
  | none =>
      rw [channels] at listed
      cases listed
  | some list =>
      cases state.init with
      | none => exact ⟨_, rfl⟩
      | some init => exact ⟨_, rfl⟩

theorem bootstrap_ended {state : Bootstrap} {messages rest : List Message}
    {connection : MainConnection} {turns : List (Turn Message Effect)}
    {result : Except NetError MainConnection} (ended : state.connection = some result)
    (ran : bootstrap state messages = .ok (connection, turns, rest)) :
    turns = [] ∧ rest = messages := by
  cases messages with
  | nil =>
      rw [bootstrap, ended] at ran
      cases result with
      | error reason => cases ran
      | ok found =>
          cases ran
          exact ⟨rfl, rfl⟩
  | cons msg messages =>
      rw [bootstrap, ended] at ran
      cases result with
      | error reason => cases ran
      | ok found =>
          cases ran
          exact ⟨rfl, rfl⟩

/-- The bootstrap reads the messages up to the first `CHANNELS_LIST` and acknowledges
none of them. -/
theorem bootstrap_reads {state : Bootstrap} {messages rest : List Message}
    {connection : MainConnection} {turns : List (Turn Message Effect)}
    (waiting : state.channelsList = none)
    (ran : bootstrap state messages = .ok (connection, turns, rest)) :
    turns.map (fun turn => unheeded turn.input) ++ rest.map mainHeed =
        connectionHeeds messages ∧
      ∀ turn ∈ turns, turn.output.countP isAck = 0 := by
  have running : state.connection = none := by
    unfold Bootstrap.connection
    rw [waiting]
  induction messages generalizing state turns with
  | nil =>
      rw [bootstrap, running] at ran
      cases ran
  | cons msg messages ih =>
      rw [bootstrap, running] at ran
      dsimp only at ran
      cases stepped : bootstrapMessage state msg with
      | error reason =>
          rw [stepped] at ran
          cases ran
      | ok result =>
          obtain ⟨next, output⟩ := result
          rw [stepped] at ran
          dsimp only at ran
          obtain ⟨⟨_connection, later, left⟩, ranRest, done⟩ := Program.bind_eq_ok.mp ran
          cases done
          have boots := bootstrapMessage_boots stepped
          rw [connectionHeeds, List.map_cons, List.cons_append]
          by_cases listed : msg.msgType = MainMsg.CHANNELS_LIST
          · obtain ⟨result, ended⟩ := connection_of_listed (boots.listed listed)
            obtain ⟨none, whole⟩ := bootstrap_ended ended ranRest
            subst none
            subst whole
            rw [if_pos listed]
            refine ⟨rfl, ?_⟩
            intro turn member
            rw [List.mem_singleton.mp member]
            exact boots.silent
          · have still : next.channelsList = none := (boots.goesOn listed).trans waiting
            have goesOn : next.connection = none := by
              unfold Bootstrap.connection
              rw [still]
            obtain ⟨heeds, silent⟩ := ih still ranRest goesOn
            rw [if_neg listed, heeds]
            refine ⟨rfl, ?_⟩
            intro turn member
            rcases List.mem_cons.mp member with first | behind
            · rw [first]
              exact boots.silent
            · exact silent turn behind

private theorem heed_eq {msg : Message} {kind : Kind} (meant : kindOf msg = kind)
    (seen : msg.msgType ≠ MainMsg.MOUSE_MODE ∨ 8 ≤ msg.body.length) :
    mainHeed msg = { kind := kind, noted := true } := by
  unfold mainHeed
  rw [meant]
  rcases seen with other | long
  · rw [decide_eq_false other]
    rfl
  · rw [decide_eq_false (Nat.not_lt.mpr long), Bool.and_false]
    rfl

private theorem counted_step {state : MainState} {msg : Message} {output : List Effect}
    (arm : runMainArm state msg = some (output, state)) (silent : output.countP isAck = 0)
    (counts : uncounted msg.msgType = false) :
    (state.counter.next { kind := .countable, noted := true }).1 =
        (runMainMessage state msg).2.counter ∧
      (state.counter.next { kind := .countable, noted := true }).2 =
        (runMainMessage state msg).1.countP isAck := by
  have acked : (output ++ [ackMessage]).countP isAck = 1 := by
    rw [List.countP_append, silent]
    rfl
  rw [runMainMessage, arm]
  simp only [Counter.next, MainState.counter, counts, and_true, if_true]
  by_cases known : 0 < state.ackWindow
  · by_cases due : state.ackRemaining - 1 = 0
    · simp only [known, due, if_true, acked, and_self]
    · simp only [known, due, if_true, if_false, silent, and_self]
  · simp only [known, if_false, silent, and_self]

private theorem uncounted_step {state state' : MainState} {msg : Message} {output : List Effect}
    (arm : runMainArm state msg = some (output, state')) (control : uncounted msg.msgType = true) :
    runMainMessage state msg = (output, state') := by
  rw [runMainMessage, arm]
  dsimp only
  rw [control, if_neg]
  rintro ⟨_known, impossible⟩
  cases impossible

theorem runMainMessage_counts (state : MainState) (msg : Message) :
    (state.counter.next (mainHeed msg)).1 = (runMainMessage state msg).2.counter ∧
      (state.counter.next (mainHeed msg)).2 = (runMainMessage state msg).1.countP isAck := by
  by_cases ping : msg.msgType = Msg.PING
  · have meant : kindOf msg = .other :=
      kindOf_uncounted (by rw [ping]; decide) (by rw [ping]; rfl)
    rw [heed_eq meant (Or.inl (by rw [ping]; decide))]
    cases parsed : Ping.decode msg.body with
    | error reason =>
        have arm : runMainArm state msg = none := by
          rw [runMainArm, if_pos ping, parsed]
        rw [runMainMessage, arm]
        exact ⟨rfl, rfl⟩
    | ok body =>
        have arm : runMainArm state msg = some ([pong body], state) := by
          rw [runMainArm, if_pos ping, parsed]
        rw [uncounted_step arm (by rw [ping]; rfl)]
        exact ⟨rfl, rfl⟩
  · by_cases setAck : msg.msgType = Msg.SET_ACK
    · have seen : msg.msgType ≠ MainMsg.MOUSE_MODE := by
        rw [setAck]
        decide
      cases parsed : SetAck.decode msg.body with
      | error reason =>
          have arm : runMainArm state msg = none := by
            rw [runMainArm, if_neg ping, if_pos setAck, parsed]
          rw [heed_eq (kindOf_malformed setAck parsed) (Or.inl seen), runMainMessage, arm]
          exact ⟨rfl, rfl⟩
      | ok ack =>
          have arm : runMainArm state msg =
              some ([ackSync ack], { ackWindow := ack.window, ackRemaining := ack.window }) := by
            rw [runMainArm, if_neg ping, if_pos setAck, parsed]
          rw [heed_eq (kindOf_setAck setAck parsed) (Or.inl seen),
            uncounted_step arm (by rw [setAck]; rfl)]
          exact ⟨rfl, rfl⟩
    · by_cases mouseMode : msg.msgType = MainMsg.MOUSE_MODE
      · have counts : uncounted msg.msgType = false := by
          rw [mouseMode]
          rfl
        by_cases long : 8 ≤ msg.body.length
        · obtain ⟨mode, parsed⟩ := MouseModeBody.decode_ok long
          have arm : runMainArm state msg =
              some ([.emit (.mouseMode (MouseMode.fromRaw mode.currentMode))], state) := by
            rw [runMainArm, if_neg ping, if_neg setAck, if_pos mouseMode, parsed]
          rw [heed_eq (kindOf_countable counts) (Or.inr long)]
          exact counted_step arm rfl counts
        · obtain ⟨reason, failed⟩ := MouseModeBody.decode_short (Nat.not_le.mp long)
          have arm : runMainArm state msg = none := by
            rw [runMainArm, if_neg ping, if_neg setAck, if_pos mouseMode, failed]
          have overlooked : (mainHeed msg).noted = false := by
            unfold mainHeed
            rw [decide_eq_true mouseMode, decide_eq_true (Nat.not_le.mp long)]
            rfl
          rw [Counter.next, overlooked, runMainMessage, arm]
          exact ⟨rfl, rfl⟩
      · have arm : runMainArm state msg = some ([], state) := by
          rw [runMainArm, if_neg ping, if_neg setAck, if_neg mouseMode]
        cases control : uncounted msg.msgType with
        | true =>
            rw [heed_eq (kindOf_uncounted setAck control) (Or.inl mouseMode),
              uncounted_step arm control]
            exact ⟨rfl, rfl⟩
        | false =>
            rw [heed_eq (kindOf_countable control) (Or.inl mouseMode)]
            exact counted_step arm rfl control

theorem runMain_counts (state : MainState) (messages : List Message) :
    (runMain state messages).map beat = state.counter.log (messages.map mainHeed) := by
  induction messages generalizing state with
  | nil => rfl
  | cons msg rest ih =>
      obtain ⟨state', acks⟩ := runMainMessage_counts state msg
      rw [runMain, List.map_cons, List.map_cons, Counter.log, ih, state', acks]
      rfl

theorem mainHeed_announce {msg : Message} {window : Nat}
    (announced : (mainHeed msg).kind = .announce window) :
    (mainHeed msg).noted = true := by
  have setAck : msg.msgType = Msg.SET_ACK := by
    by_contra other
    change kindOf msg = .announce window at announced
    unfold kindOf at announced
    rw [if_neg other] at announced
    split at announced
    · cases announced
    · cases announced
  have seen : msg.msgType ≠ MainMsg.MOUSE_MODE := by
    rw [setAck]
    decide
  rw [heed_eq announced (Or.inl seen)]

/-- The main channel honours the windows exactly when, at every full window, the loop
had read its announcement and overlooked none of its messages. -/
theorem main_windows_iff {messages rest : List Message} {connection : MainConnection}
    {turns : List (Turn Message Effect)}
    (booted : bootstrap Bootstrap.start messages = .ok (connection, turns, rest)) :
    Honoured ((turns ++ runMain MainState.start rest).map beat) ↔
      Complete (connectionHeeds messages) := by
  obtain ⟨heeds, silent⟩ := bootstrap_reads rfl booted
  have log : (turns ++ runMain MainState.start rest).map beat =
      Counter.start.log (turns.map (fun turn => unheeded turn.input) ++ rest.map mainHeed) := by
    rw [List.map_append, runMain_counts]
    exact silent_log MainState.start.counter (rest.map mainHeed) silent
  rw [log, ← heeds]
  apply FlowControl.honoured_iff
  · intro heed member window _announced
    obtain ⟨turn, _member, rfl⟩ := List.mem_map.mp member
    rfl
  · intro heed member window announced
    obtain ⟨msg, _member, rfl⟩ := List.mem_map.mp member
    exact mainHeed_announce announced

def initBody : List UInt8 := (Init.mk 7 1 3 1 0 0 0 0).encode

/-- A window announced once the loop runs, and two messages that count. -/
theorem main_windows_iff_honoured :
    ∃ connection turns rest,
      bootstrap Bootstrap.start [Message.mini MainMsg.INIT initBody,
        Message.mini MainMsg.CHANNELS_LIST (ChannelsList.mk []).encode,
        Message.mini Msg.SET_ACK (SetAck.mk 1 2).encode, Message.mini Msg.NOTIFY [],
        Message.mini Msg.NOTIFY []] = .ok (connection, turns, rest) ∧
      (Honoured ((turns ++ runMain MainState.start rest).map beat) ↔
        Complete (connectionHeeds [Message.mini MainMsg.INIT initBody,
          Message.mini MainMsg.CHANNELS_LIST (ChannelsList.mk []).encode,
          Message.mini Msg.SET_ACK (SetAck.mk 1 2).encode, Message.mini Msg.NOTIFY [],
          Message.mini Msg.NOTIFY []])) :=
  ⟨_, _, _, by rfl, main_windows_iff (by rfl)⟩

/-- The window of a bootstrap is lost, and a short `MOUSE_MODE` is not counted. -/
theorem main_window_lost :
    (∃ connection turns rest,
      bootstrap Bootstrap.start [Message.mini Msg.SET_ACK (SetAck.mk 1 1).encode,
        Message.mini MainMsg.INIT initBody,
        Message.mini MainMsg.CHANNELS_LIST (ChannelsList.mk []).encode] =
          .ok (connection, turns, rest) ∧
      ¬ Honoured ((turns ++ runMain MainState.start rest).map beat)) ∧
    ∃ connection turns rest,
      bootstrap Bootstrap.start [Message.mini MainMsg.INIT initBody,
        Message.mini MainMsg.CHANNELS_LIST (ChannelsList.mk []).encode,
        Message.mini Msg.SET_ACK (SetAck.mk 1 1).encode, Message.mini MainMsg.MOUSE_MODE []] =
          .ok (connection, turns, rest) ∧
      ¬ Honoured ((turns ++ runMain MainState.start rest).map beat) := by
  constructor
  · refine ⟨_, _, _, by rfl, ?_⟩
    intro honoured
    exact absurd (honoured _ (List.prefix_refl _) (by decide)) (by decide)
  · refine ⟨_, _, _, by rfl, ?_⟩
    intro honoured
    exact absurd (honoured _ (List.prefix_refl _) (by decide)) (by decide)

end Capsaicin.Client
