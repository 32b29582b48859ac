/-
What a client gives away to a server that may be anyone.
-/

import Capsaicin.Client.Connect
import Capsaicin.Net.Reached
import Capsaicin.Proto.Canonical

namespace Capsaicin.Client

open Duplex (Embeds Script Stage Trail)
open Duplex.Stage (Frugal)
open Net (Channel LinkOptions Linked Message NetError Rsa Unlinked headerSize hello linkClient)
open Proto

/-! ### How much the bootstrap writes -/

section Frugal

variable {channel : Channel} {effects : List Effect}

def Effect.cost (mini : Bool) : Effect → Nat
  | .write _ body => headerSize mini + body.length
  | .emit _ => 0

def cost (mini : Bool) (effects : List Effect) : Nat := (effects.map (Effect.cost mini)).sum

theorem writeMessage_cost (channel : Channel) (msgType : Nat) (body : List UInt8) :
    (channel.writeMessage msgType body).bytes.length ≤ headerSize channel.miniHeader + body.length := by
  unfold Channel.writeMessage
  split
  · exact Nat.zero_le _
  · split
    · exact Nat.zero_le _
    · split
      · rename_i mini
        rw [mini]
        simp [Net.MiniDataHeader.length_encode, headerSize]
      · rename_i full
        rw [Bool.eq_false_iff.mpr full]
        simp [Net.DataHeader.length_encode, headerSize]

theorem sendEffects_cost (channel : Channel) (effects : List Effect) :
    (sendEffects channel effects).1.length ≤ cost channel.miniHeader effects ∧
      ∀ last, (sendEffects channel effects).2 = .ok last → last.miniHeader = channel.miniHeader := by
  induction effects generalizing channel with
  | nil =>
      refine ⟨Nat.zero_le _, ?_⟩
      intro last same
      cases same
      rfl
  | cons effect rest ih =>
      cases effect with
      | emit event =>
          rw [sendEffects, cost, List.map_cons, List.sum_cons, Effect.cost, Nat.zero_add]
          exact ih channel
      | write msgType body =>
          rw [sendEffects, cost, List.map_cons, List.sum_cons, Effect.cost]
          cases wrote : (channel.writeMessage msgType body).result with
          | error reason =>
              refine ⟨Nat.zero_le _, ?_⟩
              intro last same
              cases same
          | ok done =>
              obtain ⟨few, keeps⟩ := ih (channel.writeMessage msgType body).channel
              have first := writeMessage_cost channel msgType body
              rw [Net.writeMessage_keeps.1] at few keeps
              refine ⟨?_, keeps⟩
              rw [List.length_append]
              exact Nat.add_le_add first few

theorem bootstrapMessage_cost {mini : Bool} {state next : Bootstrap} {msg : Message}
    (ran : bootstrapMessage state msg = .ok (next, effects)) :
    cost mini effects ≤ headerSize mini + msg.body.length := by
  have header : headerSize mini ≤ 18 := by cases mini <;> simp [headerSize, Net.MINI_DATA_HEADER_SIZE,
    Net.DATA_HEADER_SIZE]
  unfold bootstrapMessage at ran
  split at ran
  · obtain ⟨ack, parsed, done⟩ := Program.bind_eq_ok.mp ran
    cases done
    obtain ⟨_fits, rest, whole, _⟩ := (Reader.decode_canonical SetAck.canonical _ _).mp parsed
    rw [whole]
    simp [cost, Effect.cost, ackSync, AckSync.encode, SetAck.encode, writeU32]
  · split at ran
    · obtain ⟨ping, parsed, done⟩ := Program.bind_eq_ok.mp ran
      cases done
      obtain ⟨rest, read⟩ := Reader.decode_iff.mp parsed
      obtain ⟨_fits, whole, _none⟩ := Ping.reads_iff.mp read
      rw [whole]
      simp [cost, Effect.cost, pong, Pong.encode, Ping.encode, writeU32, writeU64]
      omega
    · split at ran
      · obtain ⟨init, parsed, done⟩ := Program.bind_eq_ok.mp ran
        obtain ⟨_fits, rest, whole, _⟩ := (Reader.decode_canonical Init.canonical _ _).mp parsed
        have long : 32 ≤ msg.body.length := by
          rw [whole, List.length_append]
          exact Nat.le_add_right 32 _
        dsimp only at done
        split at done
        · cases done
          simp [cost, Effect.cost, MouseModeRequest.encode, writeU32]
          omega
        · cases done
          simp [cost, Effect.cost]
      · split at ran
        · obtain ⟨list, _parsed, done⟩ := Program.bind_eq_ok.mp ran
          cases done
          exact Nat.zero_le _
        · cases ran
          exact Nat.zero_le _

theorem bootstrap_frugal (channel : Channel) :
    Frugal channel.reader bootstrapStep fun state => state.1.miniHeader = channel.miniHeader where
  answers := by
    intro state msg same
    unfold bootstrapStep
    cases ran : bootstrapMessage state.2 msg with
    | error reason => exact Nat.zero_le _
    | ok result =>
        obtain ⟨next, effects⟩ := result
        have few := (sendEffects_cost state.1 effects).1
        rw [same] at few
        exact Nat.le_trans few (bootstrapMessage_cost ran)
  keeps := by
    intro state msg next same goesOn
    obtain ⟨effects, _ran, sent, _unlisted⟩ :=
      bootstrapStep_inl (Prod.ext rfl goesOn : bootstrapStep state msg = (_, .inl next))
    rw [← same]
    exact (sendEffects_cost state.1 effects).2 next.1 (congrArg Prod.snd sent)

end Frugal

/-! ### All that a client says -/

variable {PrivateKey PublicKey Coins : Type} (rsa : Rsa PrivateKey PublicKey Coins) (coins : Coins)

/-- A client is not linked, or it has been accepted and has gone on. -/
def Reserved (opts : LinkOptions) (later : Channel → List UInt8 → List UInt8 → Prop)
    (ins outs : List UInt8) : Prop :=
  Unlinked rsa coins opts ins outs ∨
    ∃ channel before said behind told, Linked rsa coins opts channel before said ∧
      ins = before ++ behind ∧ outs = said ++ told ∧ later channel behind told

/-- What the main channel writes behind its link. -/
def Bootstraps (channel : Channel) (behind told : List UInt8) : Prop :=
  (∃ stage, Trail (bootstrapAct channel) (bootstrapStart channel) behind told stage) ∧
    told.length ≤ behind.length

section Reserved

variable {rsa coins} {password ins outs : List UInt8}

theorem linkClient_alone {opts : LinkOptions} {last : Script UInt8 NetError Channel}
    (trail : Trail Script.act (linkClient rsa coins opts) ins outs last) :
    (Unlinked rsa coins opts ins outs ∧ last.Unended) ∨
      ∃ channel, Linked rsa coins opts channel ins outs ∧ last = .done (.ok channel) := by
  rw [← Script.bind_pure (linkClient rsa coins opts)] at trail
  rcases Net.linkClient_reached trail with
    unlinked | ⟨channel, before, said, behind, told, linked, rfl, rfl, later⟩
  · exact Or.inl unlinked
  · obtain ⟨rfl, rfl, ended⟩ := Script.done_ended later
    rw [List.append_nil, List.append_nil]
    exact Or.inr ⟨channel, linked, ended⟩

theorem booting_reserved {channel : Channel} {last : Connecting}
    (trail : Trail connectAct (.booting channel (bootstrapStart channel)) ins outs last) :
    Bootstraps channel ins outs := by
  have boots {behind told : List UInt8} {stage : BootstrapStage}
      (trail : Trail (bootstrapAct channel) (bootstrapStart channel) behind told stage) :
      Bootstraps channel behind told := by
    have fine : Stage.Good (fun state => state.1.miniHeader = channel.miniHeader)
        (bootstrapStart channel) := (rfl : channel.miniHeader = channel.miniHeader)
    exact ⟨⟨stage, trail⟩, Stage.frugal_trail (bootstrap_frugal channel) fine trail⟩
  rcases (connect_boots channel).split trail with ⟨stage, _last, inside⟩ |
    ⟨stage, result, before, behind, said, told, ended, rfl, rfl, inside, rest⟩
  · exact boots inside
  · have ends : connectAct (.booting channel stage) = .done result := by
      simp only [connectAct, ended]
    obtain ⟨rfl, rfl, _last⟩ := Duplex.done_trail ends rest
    rw [List.append_nil, List.append_nil]
    exact boots inside

theorem connectMain_reserved {last : Connecting}
    (trail : Trail connectAct (connectMain rsa coins password) ins outs last) :
    Reserved rsa coins (mainOptions password) Bootstraps ins outs := by
  have start (channel : Channel) : Bootstraps channel [] [] := booting_reserved (.refl _)
  rcases connect_links.split trail with ⟨script, _last, inside⟩ |
    ⟨script, result, before, behind, said, told, ended, rfl, rfl, inside, rest⟩
  · rcases linkClient_alone inside with ⟨unlinked, _open⟩ | ⟨channel, linked, _ended⟩
    · exact Or.inl unlinked
    · exact Or.inr ⟨channel, ins, outs, [], [], linked, (List.append_nil _).symm,
        (List.append_nil _).symm, start channel⟩
  rcases linkClient_alone inside with ⟨unlinked, open_⟩ | ⟨channel, linked, rfl⟩
  · cases script with
    | write items next => cases ended
    | read next => cases ended
    | done found =>
        cases found with
        | ok channel => exact absurd rfl (open_ channel)
        | error reason =>
            obtain ⟨rfl, rfl, _last⟩ := Duplex.done_trail
              (rfl : connectAct (.linking (.done (.error reason))) = .done _) rest
            rw [List.append_nil, List.append_nil]
            exact Or.inl unlinked
  · refine Or.inr ⟨channel, before, said, behind, told, linked, rfl, rfl, ?_⟩
    cases rest with
    | refl => exact start channel
    | write does later =>
        rw [connect_linked] at does
        cases does
        exact booting_reserved later
    | read does _later =>
        rw [connect_linked] at does
        cases does

theorem sendInit_reached {salt : UInt8} {channel : Channel} {last : Script UInt8 NetError Channel}
    (trail : Trail Script.act (sendInit salt channel) ins outs last) :
    ins = [] ∧ outs <+: (channel.writeMessage DisplayMsgc.INIT (displayInit salt).encode).bytes := by
  unfold sendInit at trail
  dsimp only at trail
  cases wrote : (channel.writeMessage DisplayMsgc.INIT (displayInit salt).encode).result with
  | error reason =>
      rw [wrote] at trail
      obtain ⟨rfl, rfl, _last⟩ := Script.done_ended trail
      exact ⟨rfl, List.nil_prefix⟩
  | ok done =>
      rw [wrote] at trail
      rcases Script.send_reached trail with ⟨rfl, rfl, _open⟩ | ⟨more, rfl, later⟩
      · exact ⟨rfl, List.nil_prefix⟩
      · obtain ⟨rfl, rfl, _last⟩ := Script.done_ended later
        rw [List.append_nil]
        exact ⟨rfl, List.prefix_refl _⟩

theorem openChannel_reserved {salt : UInt8} {sessionId : UInt32} {channelType : ChannelType}
    {last : Script UInt8 NetError Channel}
    (trail : Trail Script.act (openChannel rsa coins salt sessionId password channelType) ins outs
      last) :
    Reserved rsa coins (subOptions sessionId channelType password) (fun channel behind told =>
      behind = [] ∧ told <+: (channel.writeMessage DisplayMsgc.INIT (displayInit salt).encode).bytes ∧
        (channelType ≠ .display → told = [])) ins outs := by
  by_cases display : channelType = .display
  · subst display
    change Trail Script.act (linkClient rsa coins (subOptions sessionId .display password) >>=
      sendInit salt) ins outs last at trail
    rcases Net.linkClient_reached trail with ⟨unlinked, _open⟩ |
      ⟨channel, before, said, behind, told, linked, rfl, rfl, later⟩
    · exact Or.inl unlinked
    · obtain ⟨none, part⟩ := sendInit_reached later
      exact Or.inr ⟨channel, before, said, behind, told, linked, rfl, rfl, none, part,
        fun other => absurd rfl other⟩
  · have plain : openChannel rsa coins salt sessionId password channelType =
        linkClient rsa coins (subOptions sessionId channelType password) := by
      unfold openChannel
      split
      · exact absurd rfl display
      · rfl
    rw [plain] at trail
    rcases linkClient_alone trail with ⟨unlinked, _open⟩ | ⟨channel, linked, _ended⟩
    · exact Or.inl unlinked
    · exact Or.inr ⟨channel, ins, outs, [], [], linked, (List.append_nil _).symm,
        (List.append_nil _).symm, rfl, List.nil_prefix, fun _other => rfl⟩

end Reserved

/-- Whatever a server sends, and whenever it stops: a client says nothing of its password but one
ticket, and that only to a server that has announced the key for it without an error; up to there
it reads no more than a payload and its header. It goes on only if the server accepts the ticket,
on the main channel with the answers of a bootstrap, which are never more than what it reads, and
on the others with the first message of a display at most. -/
theorem client_reserved (rsa : Rsa PrivateKey PublicKey Coins) (coins : Coins)
    (password : List UInt8) :
    (∀ ins outs last, Trail connectAct (connectMain rsa coins password) ins outs last →
      Reserved rsa coins (mainOptions password) Bootstraps ins outs) ∧
    (∀ salt sessionId channelType ins outs last,
      Trail Script.act (openChannel rsa coins salt sessionId password channelType) ins outs last →
        Reserved rsa coins (subOptions sessionId channelType password) (fun channel behind told =>
          behind = [] ∧
            told <+: (channel.writeMessage DisplayMsgc.INIT (displayInit salt).encode).bytes ∧
            (channelType ≠ .display → told = [])) ins outs) ∧
    ∀ other sessionId channelType,
      hello (mainOptions password) = hello (mainOptions other) ∧
        hello (subOptions sessionId channelType password) =
          hello (subOptions sessionId channelType other) :=
  ⟨fun _ins _outs _last trail => connectMain_reserved trail,
    fun _salt _sessionId _channelType _ins _outs _last trail => openChannel_reserved trail,
    fun _other _sessionId _channelType => ⟨rfl, rfl⟩⟩

end Capsaicin.Client
