/-
The bootstrap of the main channel on its byte stream.
-/

import Capsaicin.Client.Main
import Capsaicin.Library.FrameLoop
import Capsaicin.Net.Delivery

namespace Capsaicin.Client

open Duplex (Act Handler Stage Trail)
open Framing (FrameReader)
open Net (Channel Message NetError Reading channelReader)
open Proto

/-- Writes the messages among some effects in their order, up to the first one that the
channel refuses. -/
def sendEffects (channel : Channel) : List Effect → List UInt8 × Except NetError Channel
  | [] => ([], .ok channel)
  | .emit _ :: rest => sendEffects channel rest
  | .write msgType body :: rest =>
      match (channel.writeMessage msgType body).result with
      | .error reason => ([], .error reason)
      | .ok () =>
          ((channel.writeMessage msgType body).bytes ++
              (sendEffects (channel.writeMessage msgType body).channel rest).1,
            (sendEffects (channel.writeMessage msgType body).channel rest).2)

/-- A message of the server in `MainConnection::bootstrap`. -/
def bootstrapStep : Handler UInt8 Message (Channel × Bootstrap) (Except NetError MainConnection) :=
  fun state msg =>
    match bootstrapMessage state.2 msg with
    | .error reason => ([], .inr (.error (.proto reason)))
    | .ok (next, effects) =>
        ((sendEffects state.1 effects).1,
          match (sendEffects state.1 effects).2 with
          | .error reason => .inr (.error reason)
          | .ok channel =>
              match next.connection with
              | some result => .inr result
              | none => .inl (channel, next))

/-- The bootstrap as a program. A read that fails ends it with an error, whatever the
reason. -/
abbrev BootstrapStage := Stage UInt8 Reading (Channel × Bootstrap) (Except NetError MainConnection)

def bootstrapAct (reader : Channel) : BootstrapStage → Act UInt8 BootstrapStage
    (Except NetError MainConnection) :=
  Stage.act reader.reader bootstrapStep (.error .io)

def bootstrapStart (channel : Channel) : BootstrapStage :=
  .waiting .start (channel, Bootstrap.start)

/-! ### One message -/

section Step

variable {channel last : Channel} {state next : Channel × Bootstrap} {msg : Message}
  {items : List UInt8} {connection : MainConnection}

theorem sendEffects_concat {effects : List Effect} {msgType : Nat} {body : List UInt8}
    (sent : sendEffects channel (effects ++ [.write msgType body]) = (items, .ok last)) :
    ∃ before middle, items = before ++ (Channel.writeMessage middle msgType body).bytes ∧
      (Channel.writeMessage middle msgType body).result = .ok () := by
  induction effects generalizing channel items with
  | nil =>
      rw [List.nil_append, sendEffects] at sent
      cases wrote : (channel.writeMessage msgType body).result with
      | error reason =>
          rw [wrote] at sent
          cases sent
      | ok done =>
          rw [wrote] at sent
          refine ⟨[], channel, ?_, wrote⟩
          have bytes := congrArg Prod.fst sent
          dsimp only [sendEffects] at bytes
          rw [List.append_nil] at bytes
          exact bytes.symm
  | cons effect effects ih =>
      cases effect with
      | emit event => exact ih sent
      | write firstType firstBody =>
          rw [List.cons_append, sendEffects] at sent
          cases wrote : (channel.writeMessage firstType firstBody).result with
          | error reason =>
              rw [wrote] at sent
              cases sent
          | ok done =>
              rw [wrote] at sent
              cases rest : sendEffects (channel.writeMessage firstType firstBody).channel
                (effects ++ [.write msgType body]) with
              | mk restItems outcome =>
                  rw [rest] at sent
                  cases sent
                  obtain ⟨before, middle, same, accepted⟩ := ih rest
                  refine ⟨(channel.writeMessage firstType firstBody).bytes ++ before, middle, ?_,
                    accepted⟩
                  rw [same, List.append_assoc]

theorem connection_none {boot : Bootstrap} (unlisted : boot.connection = none) :
    boot.channelsList = none := by
  unfold Bootstrap.connection at unlisted
  split at unlisted
  · assumption
  · cases unlisted
  · cases unlisted

theorem connection_ok {boot : Bootstrap} (ended : boot.connection = some (.ok connection)) :
    boot.init = some connection.init ∧
      boot.channelsList = some { channels := connection.availableChannels } := by
  unfold Bootstrap.connection at ended
  split at ended
  · cases ended
  · cases ended
  · rename_i list init listed initialised
    cases ended
    exact ⟨initialised, listed⟩

theorem bootstrapStep_inl (goesOn : bootstrapStep state msg = (items, .inl next)) :
    ∃ effects, bootstrapMessage state.2 msg = .ok (next.2, effects) ∧
      sendEffects state.1 effects = (items, .ok next.1) ∧ next.2.channelsList = none := by
  unfold bootstrapStep at goesOn
  cases ran : bootstrapMessage state.2 msg with
  | error reason =>
      rw [ran] at goesOn
      cases goesOn
  | ok result =>
      obtain ⟨boot, effects⟩ := result
      rw [ran] at goesOn
      dsimp only at goesOn
      cases sent : sendEffects state.1 effects with
      | mk bytes outcome =>
          rw [sent] at goesOn
          cases outcome with
          | error reason => cases goesOn
          | ok channel =>
              dsimp only at goesOn
              cases linked : boot.connection with
              | some found =>
                  rw [linked] at goesOn
                  cases goesOn
              | none =>
                  rw [linked] at goesOn
                  cases goesOn
                  exact ⟨effects, rfl, sent, connection_none linked⟩

theorem bootstrapStep_inr (ended : bootstrapStep state msg = (items, .inr (.ok connection))) :
    ∃ boot effects, bootstrapMessage state.2 msg = .ok (boot, effects) ∧
      boot.connection = some (.ok connection) := by
  unfold bootstrapStep at ended
  cases ran : bootstrapMessage state.2 msg with
  | error reason =>
      rw [ran] at ended
      cases ended
  | ok result =>
      obtain ⟨boot, effects⟩ := result
      rw [ran] at ended
      dsimp only at ended
      refine ⟨boot, effects, rfl, ?_⟩
      cases outcome : (sendEffects state.1 effects).2 with
      | error reason =>
          rw [outcome] at ended
          cases ended
      | ok channel =>
          rw [outcome] at ended
          dsimp only at ended
          cases linked : boot.connection with
          | none =>
              rw [linked] at ended
              cases ended
          | some found =>
              rw [linked] at ended
              cases ended
              rfl

theorem bootstrapMessage_cases {boot after : Bootstrap} {effects : List Effect}
    (ran : bootstrapMessage boot msg = .ok (after, effects)) :
    (msg.msgType = MainMsg.INIT ∧ after.channelsList = boot.channelsList ∧
        ∃ before, effects = before ++ [.write MainMsgc.ATTACH_CHANNELS []]) ∨
      (msg.msgType = MainMsg.CHANNELS_LIST ∧ after.init = boot.init ∧
        ∃ list, ChannelsList.decode msg.body = .ok list ∧ after.channelsList = some list) ∨
      after = boot := by
  unfold bootstrapMessage at ran
  split at ran
  · obtain ⟨ack, _parsed, done⟩ := Program.bind_eq_ok.mp ran
    cases done
    exact Or.inr (Or.inr rfl)
  · split at ran
    · obtain ⟨ping, _parsed, done⟩ := Program.bind_eq_ok.mp ran
      cases done
      exact Or.inr (Or.inr rfl)
    · split at ran
      · rename_i init
        obtain ⟨parsed, _parsed, done⟩ := Program.bind_eq_ok.mp ran
        cases done
        exact Or.inl ⟨init, rfl, _, rfl⟩
      · split at ran
        · rename_i listed
          obtain ⟨list, parsed, done⟩ := Program.bind_eq_ok.mp ran
          cases done
          exact Or.inr (Or.inl ⟨listed, rfl, list, parsed, rfl⟩)
        · cases ran
          exact Or.inr (Or.inr rfl)

end Step

/-! ### An arbitrary server -/

section Heard

open Duplex.Stage (Heard Hears)

variable {state : Channel × Bootstrap} {messages : List Message} {outs : List UInt8}
  {connection : MainConnection}

theorem heard_list (unlisted : state.2.channelsList = none)
    (heard : Heard bootstrapStep state messages outs (.ok connection)) :
    ∃ before list, messages = before ++ [list] ∧ list.msgType = MainMsg.CHANNELS_LIST ∧
      ChannelsList.decode list.body = .ok { channels := connection.availableChannels } := by
  generalize result_ : Except.ok connection = result at heard
  induction heard with
  | @last state message items result handled =>
      subst result_
      obtain ⟨boot, effects, ran, linked⟩ := bootstrapStep_inr handled
      obtain ⟨_init, listed⟩ := connection_ok linked
      rcases bootstrapMessage_cases ran with ⟨_isInit, same, _attached⟩ |
        ⟨isList, _same, list, parsed, found⟩ | same
      · rw [same, unlisted] at listed
        cases listed
      · rw [found] at listed
        cases listed
        exact ⟨[], message, rfl, isList, parsed⟩
      · rw [same, unlisted] at listed
        cases listed
  | @more state message items next messages outs result handled _heard ih =>
      obtain ⟨_effects, _ran, _sent, unlistedNext⟩ := bootstrapStep_inl handled
      obtain ⟨before, list, rfl, isList, parsed⟩ := ih unlistedNext result_
      exact ⟨message :: before, list, rfl, isList, parsed⟩

/-- Before that list the bootstrap has read a `MAIN_INIT` and sent `ATTACH_CHANNELS`. -/
def Attached (state : Channel × Bootstrap) (messages : List Message) (outs : List UInt8)
    (connection : MainConnection) : Prop :=
  ∃ before init between list sent after middle channel,
    messages = (before ++ [init]) ++ (between ++ [list]) ∧
      outs = (sent ++ (Channel.writeMessage channel MainMsgc.ATTACH_CHANNELS []).bytes) ++ after ∧
      Hears bootstrapStep state (before ++ [init])
        (sent ++ (Channel.writeMessage channel MainMsgc.ATTACH_CHANNELS []).bytes) middle ∧
      Heard bootstrapStep middle (between ++ [list]) after (.ok connection) ∧
      init.msgType = MainMsg.INIT ∧ list.msgType = MainMsg.CHANNELS_LIST ∧
      ChannelsList.decode list.body = .ok { channels := connection.availableChannels }

theorem heard_attached (unlisted : state.2.channelsList = none) (fresh : state.2.init = none)
    (heard : Heard bootstrapStep state messages outs (.ok connection)) :
    Attached state messages outs connection := by
  generalize result_ : Except.ok connection = result at heard
  induction heard with
  | @last state message items result handled =>
      subst result_
      obtain ⟨boot, effects, ran, linked⟩ := bootstrapStep_inr handled
      obtain ⟨initialised, listed⟩ := connection_ok linked
      rcases bootstrapMessage_cases ran with ⟨_isInit, same, _attached⟩ |
        ⟨_isList, same, _list⟩ | same
      · rw [same, unlisted] at listed
        cases listed
      · rw [same, fresh] at initialised
        cases initialised
      · rw [same, unlisted] at listed
        cases listed
  | @more state message items next messages outs result handled heard ih =>
      obtain ⟨effects, ran, sent, unlistedNext⟩ := bootstrapStep_inl handled
      rcases bootstrapMessage_cases ran with ⟨isInit, _same, front, rfl⟩ |
        ⟨_isList, _same, list, _parsed, found⟩ | same
      · obtain ⟨written, channel, rfl, _accepted⟩ := sendEffects_concat sent
        subst result_
        obtain ⟨between, list, rfl, isList, parsed⟩ := heard_list unlistedNext heard
        have first := Hears.cons handled (.nil next)
        rw [List.append_nil] at first
        exact ⟨[], message, between, list, written, outs, next, channel, rfl, rfl, first, heard,
          isInit, isList, parsed⟩
      · rw [found] at unlistedNext
        cases unlistedNext
      · obtain ⟨before, init, between, list, written, after, middle, channel, rfl, rfl, hears, later,
          isInit, isList, parsed⟩ := ih unlistedNext (same ▸ fresh) result_
        have first := Hears.cons handled hears
        rw [← List.append_assoc] at first
        refine ⟨message :: before, init, between, list, items ++ written, after, middle, channel, rfl,
          ?_, first, later, isInit, isList, parsed⟩
        simp only [List.append_assoc]

/-- Whatever a server sends: a bootstrap that returns a connection has read frames, a
`MAIN_INIT` among them that it answered before it read the list. -/
theorem bootstrap_attached {channel : Channel} {ins : List UInt8}
    (trail : Trail (bootstrapAct channel) (bootstrapStart channel) ins outs
      (.ended (.ok connection))) :
    ∃ messages, channel.reader.Reads .start ins messages ∧
      Attached (channel, Bootstrap.start) messages outs connection := by
  obtain ⟨messages, reads, heard⟩ := Stage.ended_heard trail (fun impossible => by cases impossible)
  exact ⟨messages, reads, heard_attached rfl rfl heard⟩

end Heard

end Capsaicin.Client
