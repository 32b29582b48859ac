/-
The server's side of the main channel, and both sides together.
-/

import Capsaicin.Client.Bootstrap

namespace Capsaicin.Server

open Client (Bootstrap MainConnection BootstrapStage bootstrapAct bootstrapStart bootstrapStep)
open Duplex (Act Ends Handler Pipe Run Stage Trail)
open Duplex.Stage (Hears hears_trail message_trail spells_trail writing_trail)
open Net (Channel Message NetError Reading channelReader numbered streamOf)
open Proto

/-- A message of the client in the loop of `serve_main_bootstrap`. -/
def serveStep (availableChannels : List ChannelId) :
    Handler UInt8 Message Channel (Except NetError Unit) :=
  fun channel msg =>
    if msg.msgType = Msgc.ACK_SYNC ∨ msg.msgType = Msgc.ACK then ([], .inl channel)
    else if msg.msgType = Msgc.PONG then ([], .inl channel)
    else if msg.msgType = MainMsgc.CLIENT_INFO then
      match ClientInfo.decode msg.body with
      | .ok _ => ([], .inl channel)
      | .error reason => ([], .inr (.error (.proto reason)))
    else if msg.msgType = MainMsgc.ATTACH_CHANNELS ∨ msg.msgType = Msgc.DISCONNECTING then
      let list := channel.writeMessage MainMsg.CHANNELS_LIST (ChannelsList.mk availableChannels).encode
      (list.bytes, .inr list.result)
    else ([], .inl channel)

def defaultInit (sessionId : Nat) : Init where
  sessionId := sessionId
  displayChannelsHint := 1
  supportedMouseModes := MouseModes.SERVER ||| MouseModes.CLIENT
  currentMouseMode := MouseModes.SERVER
  agentConnected := 0
  agentTokens := 0
  multiMediaTime := 0
  ramHint := 0

abbrev ServeStage := Stage UInt8 Reading Channel (Except NetError Unit)

def serveStart (channel : Channel) (sessionId : Nat) (initOverrides : Option Init) : ServeStage :=
  let setAck := channel.writeMessage Msg.SET_ACK (SetAck.mk 1 0).encode
  match setAck.result with
  | .error reason => .writing [] (.inr (.error reason))
  | .ok () =>
      let init := setAck.channel.writeMessage MainMsg.INIT
        (initOverrides.getD (defaultInit sessionId)).encode
      match init.result with
      | .error reason => .writing setAck.bytes (.inr (.error reason))
      | .ok () => .writing (setAck.bytes ++ init.bytes) (.inl init.channel)

def serveAct (channel : Channel) (availableChannels : List ChannelId) :
    ServeStage → Act UInt8 ServeStage (Except NetError Unit) :=
  Stage.act channel.reader (serveStep availableChannels) (.error .io)

/-! ### What both sides say -/

/-- What the server says first. -/
def opening (sessionId : Nat) : List (Nat × List UInt8) :=
  [(Msg.SET_ACK, (SetAck.mk 1 0).encode), (MainMsg.INIT, (defaultInit sessionId).encode)]

/-- What the client has to say to that before it attaches. -/
def courtesies : List (Nat × List UInt8) :=
  [(Msgc.ACK_SYNC, (AckSync.mk 1).encode),
    (MainMsgc.MOUSE_MODE_REQUEST, (MouseModeRequest.mk MouseModes.CLIENT).encode)]

def answer : List (Nat × List UInt8) := courtesies ++ [(MainMsgc.ATTACH_CHANNELS, [])]

def said (mini : Bool) (messages : List (Nat × List UInt8)) : List UInt8 :=
  streamOf ((Channel.new mini).writeAll messages)

def listBytes (mini : Bool) (sessionId : Nat) (availableChannels : List ChannelId) : List UInt8 :=
  (((Channel.new mini).after (opening sessionId)).writeMessage MainMsg.CHANNELS_LIST
    (ChannelsList.mk availableChannels).encode).bytes

def initialised (sessionId : Nat) : Bootstrap :=
  { init := some (defaultInit sessionId)
    attached := true
    channelsList := none }

section Parts

variable {mini : Bool} {sessionId : Nat} {availableChannels : List ChannelId}

private theorem length_init : (defaultInit sessionId).encode.length = 32 := rfl

private theorem init_fits : (defaultInit sessionId).encode.length ≤ Net.DEFAULT_MAX_MESSAGE_SIZE := by
  rw [length_init]
  decide

private theorem used_opening : ((Channel.new mini).after (opening sessionId)).Used mini 2 :=
  Net.used_write (Net.used_write (Net.used_new mini) (by decide)) init_fits

private theorem used_courtesies : ((Channel.new mini).after courtesies).Used mini 2 :=
  Net.used_write (Net.used_write (Net.used_new mini) (by decide)) (by decide)

private theorem used_first {msgType : Nat} {body : List UInt8}
    (fits : body.length ≤ Net.DEFAULT_MAX_MESSAGE_SIZE) :
    ((Channel.new mini).writeMessage msgType body).channel.Used mini 1 :=
  Net.used_write (Net.used_new mini) fits

theorem serveStart_opening :
    serveStart (Channel.new mini) sessionId none =
      .writing (said mini (opening sessionId))
        (.inl ((Channel.new mini).after (opening sessionId))) := by
  have setAck : ((Channel.new mini).writeMessage Msg.SET_ACK (SetAck.mk 1 0).encode).result =
      .ok () := Net.used_ok (Net.used_new mini) (by decide)
  have init : (((Channel.new mini).writeMessage Msg.SET_ACK (SetAck.mk 1 0).encode).channel.writeMessage
      MainMsg.INIT (defaultInit sessionId).encode).result = .ok () :=
    Net.used_ok (used_first (by decide)) init_fits
  unfold serveStart
  simp only [setAck, Option.getD_none, init, said, opening, Channel.writeAll, streamOf,
    List.flatMap_cons, List.flatMap_nil, List.append_nil, Channel.after]

theorem defaultInit_fits (known : sessionId < 256 ^ 4) : (defaultInit sessionId).Fits where
  sessionId := known
  displayChannelsHint := by change 1 < 256 ^ 4; decide
  supportedMouseModes := by change 3 < 256 ^ 4; decide
  currentMouseMode := by change 1 < 256 ^ 4; decide
  agentConnected := by change 0 < 256 ^ 4; decide
  agentTokens := by change 0 < 256 ^ 4; decide
  multiMediaTime := by change 0 < 256 ^ 4; decide
  ramHint := by change 0 < 256 ^ 4; decide

private theorem step_answers {channel last : Channel} {state next : Bootstrap} {msg : Message}
    {effects : List Client.Effect} {items : List UInt8}
    (ran : Client.bootstrapMessage state msg = .ok (next, effects))
    (sent : Client.sendEffects channel effects = (items, .ok last))
    (waiting : next.connection = none) :
    bootstrapStep (channel, state) msg = (items, .inl (last, next)) := by
  simp only [bootstrapStep, ran, sent, waiting]

private theorem send_cons {channel last : Channel} {msgType : Nat} {body items : List UInt8}
    {rest : List Client.Effect} (accepted : (channel.writeMessage msgType body).result = .ok ())
    (sent : Client.sendEffects (channel.writeMessage msgType body).channel rest =
      (items, .ok last)) :
    Client.sendEffects channel (.write msgType body :: rest) =
      ((channel.writeMessage msgType body).bytes ++ items, .ok last) := by
  simp only [Client.sendEffects, accepted, sent]

private theorem send_nil (channel : Channel) :
    Client.sendEffects channel [] = ([], .ok channel) := rfl

private theorem reads_setAck (serial : Option Nat) :
    Client.bootstrapMessage Bootstrap.start
      { msgType := Msg.SET_ACK, serial := serial, body := (SetAck.mk 1 0).encode } =
        .ok (Bootstrap.start, [.write Msgc.ACK_SYNC (AckSync.mk 1).encode]) := by
  rfl

private theorem reads_init (known : sessionId < 256 ^ 4) (serial : Option Nat) :
    Client.bootstrapMessage Bootstrap.start
      { msgType := MainMsg.INIT, serial := serial, body := (defaultInit sessionId).encode } =
        .ok (initialised sessionId,
          [.write MainMsgc.MOUSE_MODE_REQUEST (MouseModeRequest.mk MouseModes.CLIENT).encode,
            .write MainMsgc.ATTACH_CHANNELS []]) := by
  have offered : (defaultInit sessionId).supportedMouseModes &&& MouseModes.CLIENT ≠ 0 ∧
      (defaultInit sessionId).currentMouseMode ≠ MouseModes.CLIENT := by
    unfold defaultInit
    dsimp only
    decide
  unfold Client.bootstrapMessage
  dsimp only
  rw [if_neg (by decide), if_neg (by decide), if_pos rfl,
    Init.decode_encode (defaultInit_fits known)]
  simp only [bind, Except.bind]
  rw [if_pos offered]
  rfl

theorem client_hears (known : sessionId < 256 ^ 4) :
    Hears bootstrapStep (Channel.new mini, Bootstrap.start)
      (numbered mini 1 (opening sessionId)) (said mini answer)
      ((Channel.new mini).after answer, initialised sessionId) := by
  have sentAck := send_cons (@Net.used_ok _ _ _ (Net.used_new mini) Msgc.ACK_SYNC
    (AckSync.mk 1).encode (by decide)) (send_nil _)
  have sentAttach := send_cons (@Net.used_ok _ _ _ (@used_courtesies mini) MainMsgc.ATTACH_CHANNELS
    [] (by decide)) (send_nil _)
  have sentBoth := send_cons (@Net.used_ok _ _ _ (used_first (by decide))
    MainMsgc.MOUSE_MODE_REQUEST (MouseModeRequest.mk MouseModes.CLIENT).encode (by decide)) sentAttach
  have first := step_answers (reads_setAck (if mini then none else some 1)) sentAck rfl
  have second := step_answers (reads_init known (if mini then none else some 2)) sentBoth rfl
  have both := Hears.cons first (.cons second (.nil _))
  simp only [List.append_nil] at both
  simp only [said, streamOf, answer, courtesies, List.cons_append, List.nil_append,
    Channel.writeAll, List.flatMap_cons, List.flatMap_nil, List.append_nil]
  exact both

theorem server_hears (channel : Channel) :
    Hears (serveStep availableChannels) channel (numbered mini 1 courtesies) [] channel := by
  have first : serveStep availableChannels channel
      { msgType := Msgc.ACK_SYNC
        serial := if mini then none else some 1
        body := (AckSync.mk 1).encode } = ([], .inl channel) := rfl
  have second : serveStep availableChannels channel
      { msgType := MainMsgc.MOUSE_MODE_REQUEST
        serial := if mini then none else some 2
        body := (MouseModeRequest.mk MouseModes.CLIENT).encode } = ([], .inl channel) := rfl
  exact .cons first (.cons second (.nil channel))

theorem server_attached (channel : Channel) (serial : Option Nat) :
    serveStep availableChannels channel
      { msgType := MainMsgc.ATTACH_CHANNELS, serial := serial, body := [] } =
        ((channel.writeMessage MainMsg.CHANNELS_LIST (ChannelsList.mk availableChannels).encode).bytes,
          .inr (channel.writeMessage MainMsg.CHANNELS_LIST
            (ChannelsList.mk availableChannels).encode).result) := by
  rfl

theorem client_listed (channel : Channel) (serial : Option Nat)
    (few : availableChannels.length ≤ MAX_CHANNELS_LIST)
    (bytes : ∀ entry ∈ availableChannels, entry.Fits) :
    bootstrapStep (channel, initialised sessionId)
      { msgType := MainMsg.CHANNELS_LIST
        serial := serial
        body := (ChannelsList.mk availableChannels).encode } =
      ([], .inr (.ok
        { sessionId := sessionId
          init := defaultInit sessionId
          availableChannels := availableChannels })) := by
  have parsed : ChannelsList.decode (ChannelsList.mk availableChannels).encode =
      .ok (ChannelsList.mk availableChannels) := ChannelsList.decode_encode few bytes
  have ran : Client.bootstrapMessage (initialised sessionId)
      { msgType := MainMsg.CHANNELS_LIST
        serial := serial
        body := (ChannelsList.mk availableChannels).encode } =
      .ok ({ initialised sessionId with channelsList := some (ChannelsList.mk availableChannels) },
        []) := by
    unfold Client.bootstrapMessage
    dsimp only
    rw [if_neg (by decide), if_neg (by decide), if_neg (by decide), if_pos rfl, parsed]
    rfl
  simp only [bootstrapStep, ran, Client.sendEffects]
  rfl

end Parts

/-! ### Both sides together -/

section Together

variable {mini : Bool} {sessionId : Nat} {availableChannels : List ChannelId}

private theorem list_fits (few : availableChannels.length ≤ MAX_CHANNELS_LIST) :
    (ChannelsList.mk availableChannels).encode.length ≤ Net.DEFAULT_MAX_MESSAGE_SIZE := by
  have entries : (availableChannels.flatMap fun entry =>
      writeU8 entry.channelType ++ writeU8 entry.id).length = 2 * availableChannels.length := by
    clear few
    induction availableChannels with
    | nil => rfl
    | cons entry rest ih =>
        rw [List.flatMap_cons, List.length_append, ih, List.length_cons]
        simp only [List.length_append, writeU8, Bytes.length_toLe]
        omega
  rw [ChannelsList.encode, List.length_append, entries, writeU32, Bytes.length_toLe]
  unfold MAX_CHANNELS_LIST at few
  unfold Net.DEFAULT_MAX_MESSAGE_SIZE
  omega

def attachBytes (mini : Bool) : List UInt8 :=
  (((Channel.new mini).after courtesies).writeMessage MainMsgc.ATTACH_CHANNELS []).bytes

theorem said_answer : said mini answer = said mini courtesies ++ attachBytes mini := by
  unfold said answer
  rw [Net.writeAll_append, Net.streamOf_append]
  simp only [Channel.writeAll, streamOf, List.flatMap_cons, List.flatMap_nil, List.append_nil,
    attachBytes]

private theorem said_reads {messages : List (Nat × List UInt8)}
    (types : ∀ message ∈ messages, message.1 < 256 ^ 2)
    (fits : ∀ message ∈ messages, message.2.length ≤ Net.DEFAULT_MAX_MESSAGE_SIZE)
    (few : messages.length < 256) :
    (channelReader mini Net.DEFAULT_MAX_MESSAGE_SIZE).Reads .start (said mini messages)
      (numbered mini 1 messages) := by
  have accepted : messages.filter (Channel.new mini).accepts = messages :=
    List.filter_eq_self.mpr fun message member => decide_eq_true (fits message member)
  have reads := @Net.writeAll_reads Net.DEFAULT_MAX_MESSAGE_SIZE messages (Channel.new mini) 1
    (Nat.le_refl _) types (fun _full => rfl) (fun _full => by rw [accepted]; omega)
  rw [accepted] at reads
  exact reads

private theorem opening_reads :
    (channelReader mini Net.DEFAULT_MAX_MESSAGE_SIZE).Reads .start (said mini (opening sessionId))
      (numbered mini 1 (opening sessionId)) := by
  apply said_reads
  · simp only [opening, List.forall_mem_cons]
    exact ⟨by decide, by decide, List.forall_mem_nil _⟩
  · simp only [opening, List.forall_mem_cons]
    exact ⟨by decide, init_fits, List.forall_mem_nil _⟩
  · change 2 < 256
    decide

private theorem courtesies_read :
    (channelReader mini Net.DEFAULT_MAX_MESSAGE_SIZE).Reads .start (said mini courtesies)
      (numbered mini 1 courtesies) :=
  said_reads (by decide) (by decide) (by decide)

theorem server_before_list (few : availableChannels.length ≤ MAX_CHANNELS_LIST) :
    Trail (serveAct (Channel.new mini) availableChannels)
      (.waiting .start ((Channel.new mini).after (opening sessionId))) (said mini answer) []
      (.writing (listBytes mini sessionId availableChannels) (.inr (.ok ()))) := by
  have hears : Trail (serveAct (Channel.new mini) availableChannels)
      (.waiting .start ((Channel.new mini).after (opening sessionId))) (said mini courtesies) []
      (.waiting .start ((Channel.new mini).after (opening sessionId))) :=
    hears_trail courtesies_read (server_hears _)
  have spells := @Net.used_spells _ _ _ (@used_courtesies mini) MainMsgc.ATTACH_CHANNELS []
    (by decide) (by decide) (by decide)
  have reads : Trail (serveAct (Channel.new mini) availableChannels)
      (.waiting .start ((Channel.new mini).after (opening sessionId))) (attachBytes mini) [] _ :=
    spells_trail spells
  rw [server_attached, Net.used_ok used_opening (list_fits few)] at reads
  rw [said_answer]
  exact hears.trans reads

/-- The client's end is the session and its list, the server's is good, and both have read
all that there was. -/
structure Bootstrapped (sessionId : Nat) (availableChannels : List ChannelId)
    (pipe : Pipe UInt8 BootstrapStage ServeStage) : Prop where
  client : pipe.left = .ended (.ok
    { sessionId := sessionId
      init := defaultInit sessionId
      availableChannels := availableChannels })
  server : pipe.right = .ended (.ok ())
  leftRead : pipe.leftGot = pipe.rightSent.length
  rightRead : pipe.rightGot = pipe.leftSent.length

theorem Bootstrapped.stuck {pipe : Pipe UInt8 BootstrapStage ServeStage}
    (ended : Bootstrapped sessionId availableChannels pipe) :
    Duplex.Stuck (bootstrapAct (Channel.new mini))
      (serveAct (Channel.new mini) availableChannels) pipe where
  left := by
    rw [Duplex.leftStep, ended.client]
    rfl
  right := by
    rw [Duplex.rightStep, ended.server]
    rfl

def together (mini : Bool) (sessionId : Nat) : Pipe UInt8 BootstrapStage ServeStage :=
  Pipe.start (bootstrapStart (Channel.new mini)) (serveStart (Channel.new mini) sessionId none)

theorem server_opens : Trail (serveAct (Channel.new mini) availableChannels)
    (serveStart (Channel.new mini) sessionId none) [] (said mini (opening sessionId))
    (.waiting .start ((Channel.new mini).after (opening sessionId))) := by
  rw [serveStart_opening]
  exact writing_trail _ _

/-- One schedule that ends, with all that both sides have said. -/
theorem together_leads (known : sessionId < 256 ^ 4)
    (few : availableChannels.length ≤ MAX_CHANNELS_LIST)
    (bytes : ∀ entry ∈ availableChannels, entry.Fits) :
    ∃ last, Duplex.Leads (bootstrapAct (Channel.new mini))
        (serveAct (Channel.new mini) availableChannels) (together mini sessionId) last ∧
      Bootstrapped sessionId availableChannels last ∧ last.leftSent = said mini answer := by
  have proves : Trail (bootstrapAct (Channel.new mini)) (bootstrapStart (Channel.new mini))
      (said mini (opening sessionId)) (said mini answer)
      (.waiting .start ((Channel.new mini).after answer, initialised sessionId)) :=
    hears_trail opening_reads (client_hears known)
  have judges : Trail (serveAct (Channel.new mini) availableChannels)
      (.waiting .start ((Channel.new mini).after (opening sessionId))) (said mini answer)
      (listBytes mini sessionId availableChannels) (.ended (.ok ())) := by
    have lists : Trail (serveAct (Channel.new mini) availableChannels)
        (.writing (listBytes mini sessionId availableChannels) (.inr (.ok ()))) []
        (listBytes mini sessionId availableChannels) (.ended (.ok ())) := writing_trail _ _
    have whole := (server_before_list few).trans lists
    rw [List.append_nil, List.nil_append] at whole
    exact whole
  have reads : Trail (bootstrapAct (Channel.new mini))
      (.waiting .start ((Channel.new mini).after answer, initialised sessionId))
      (listBytes mini sessionId availableChannels) [] (.ended (.ok
        { sessionId := sessionId
          init := defaultInit sessionId
          availableChannels := availableChannels })) := by
    have spells := @Net.used_spells _ _ _ (@used_opening mini sessionId) MainMsg.CHANNELS_LIST
      (ChannelsList.mk availableChannels).encode (list_fits few) (by decide) (by decide)
    have listed : Trail (bootstrapAct (Channel.new mini))
        (.waiting .start ((Channel.new mini).after answer, initialised sessionId))
        (listBytes mini sessionId availableChannels) _ _ := message_trail spells
    rw [client_listed _ _ few bytes] at listed
    exact listed
  exact ⟨_, Duplex.exchange (.refl _) server_opens proves judges reads,
    ⟨rfl, rfl, rfl, rfl⟩, List.nil_append _⟩

/-- The server's list follows the client's last message. -/
theorem attach_before_list {steps : Nat} {pipe : Pipe UInt8 BootstrapStage ServeStage}
    (known : sessionId < 256 ^ 4) (few : availableChannels.length ≤ MAX_CHANNELS_LIST)
    (bytes : ∀ entry ∈ availableChannels, entry.Fits)
    (run : Run (bootstrapAct (Channel.new mini)) (serveAct (Channel.new mini) availableChannels)
      steps (together mini sessionId) pipe)
    (listed : (said mini (opening sessionId)).length < pipe.rightSent.length) :
    pipe.leftSent = said mini answer ∧ pipe.rightGot = pipe.leftSent.length := by
  obtain ⟨last, ⟨total, whole⟩, ended, sent⟩ := @together_leads mini _ _ known few bytes
  obtain ⟨_rest, _total, behind⟩ := Duplex.run_confluent whole ended.stuck run
  have front : pipe.leftSent <+: said mini answer := sent ▸ (Duplex.sent_prefix behind).1
  have traced : Duplex.Traced (bootstrapAct (Channel.new mini))
      (serveAct (Channel.new mini) availableChannels) _ _ pipe :=
    (Duplex.traced_start _ _ _ _).run run
  have early := server_opens.trans (@server_before_list mini sessionId _ few)
  rw [List.append_nil, List.nil_append] at early
  obtain ⟨extra, all⟩ := (List.take_prefix pipe.rightGot pipe.leftSent).trans front
  rw [← all] at early
  have none : extra = [] := by
    by_contra more
    have within := (traced.right.outs_prefix early more).length_le
    omega
  rw [none, List.append_nil] at all
  have same : pipe.leftSent = said mini answer :=
    List.IsPrefix.eq_of_length_le front (all ▸ (List.take_prefix _ _).length_le)
  refine ⟨same, Nat.le_antisymm traced.rightGot_le ?_⟩
  have most := congrArg List.length (all.trans same.symm)
  rw [List.length_take] at most
  omega

end Together

/-- The two sides of the bootstrap compose: every schedule ends, with both sides in
agreement and nothing left to read, and the list comes behind the client's
`ATTACH_CHANNELS`. Whatever server a client meets, its bootstrap takes no list before it
has read a `MAIN_INIT` and attached. -/
theorem bootstrap_composes (mini : Bool) {sessionId : Nat} {availableChannels : List ChannelId}
    (known : sessionId < 2 ^ 32) (few : availableChannels.length ≤ MAX_CHANNELS_LIST)
    (bytes : ∀ entry ∈ availableChannels, entry.Fits) :
    Ends (bootstrapAct (Channel.new mini)) (serveAct (Channel.new mini) availableChannels)
        (together mini sessionId) (Bootstrapped sessionId availableChannels) ∧
      (∀ steps pipe,
        Run (bootstrapAct (Channel.new mini)) (serveAct (Channel.new mini) availableChannels)
            steps (together mini sessionId) pipe →
          (said mini (opening sessionId)).length < pipe.rightSent.length →
            pipe.leftSent = said mini courtesies ++ attachBytes mini ∧
              pipe.rightGot = pipe.leftSent.length) ∧
      ∀ (channel : Channel) (ins outs : List UInt8) (connection : MainConnection),
        Trail (bootstrapAct channel) (bootstrapStart channel) ins outs
            (.ended (.ok connection)) →
          ∃ messages, channel.reader.Reads .start ins messages ∧
            Client.Attached (channel, Bootstrap.start) messages outs connection := by
  refine ⟨?_, fun steps pipe run listed => ?_, fun channel ins outs connection trail => ?_⟩
  · obtain ⟨last, ⟨steps, run⟩, ended, _sent⟩ := @together_leads mini _ _ known few bytes
    exact Duplex.ends_of_run run ended.stuck ended
  · rw [← said_answer]
    exact attach_before_list known few bytes run listed
  · exact Client.bootstrap_attached trail

/-- A display and an inputs channel. -/
theorem bootstrap_composes_two :
    Ends (bootstrapAct (Channel.new true))
      (serveAct (Channel.new true) [⟨2, 0⟩, ⟨3, 0⟩]) (together true 77)
      (Bootstrapped 77 [⟨2, 0⟩, ⟨3, 0⟩]) :=
  (bootstrap_composes true (by decide) (by decide) (by
    intro entry member
    rcases List.mem_pair.mp member with rfl | rfl
    · exact ⟨by decide, by decide⟩
    · exact ⟨by decide, by decide⟩)).1

end Capsaicin.Server
