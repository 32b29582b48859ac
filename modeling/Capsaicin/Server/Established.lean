/-
A client connects to the command line's server: the link and the bootstrap of the main channel
as one conversation, and the sub-channels that follow.
-/

import Capsaicin.Client.Connect
import Capsaicin.Server.Capacity

namespace Capsaicin.Server

open Client (Bootstrap BootstrapStage Connecting MainConnection SpiceClientBuilder bootstrapAct
  bootstrapStart connectAct)
open Duplex (Act Embeds Ends Leads Meets Pipe Script Stuck Trail)
open Framing (FrameReader)
open Net (AcceptedLink Channel LinkOptions Message NetError Reading Rsa ServerLinkOptions linkClient
  linkServer)
open Proto

variable {PrivateKey PublicKey Coins : Type}

/-! ### The server as a program on its stream -/

def Conn.waits : Conn → Bool
  | .linking script =>
      match script.act with
      | .read _ => true
      | _ => false
  | .booting _ channel stage =>
      match serveAct channel defaultChannels stage with
      | .read _ => true
      | _ => false
  | .idling _ _ _ => true
  | .attached _ _ _ => true
  | _ => false

/-- A connection by itself, with the sessions and the draw that it finds when it asks for
them. -/
def connAct (live : Finset Nat) (draw : UInt32) (conn : Conn) : Act UInt8 Conn Unit :=
  if conn.over then .done ()
  else if conn.waits then .read fun byte => (conn.step live (.byte byte)).2
  else .write (conn.gives (.go draw)) (conn.step live (.go draw)).2

section Phases

variable {live : Finset Nat} {draw : UInt32} {id : Nat} {channel : Channel}

theorem conn_links : Embeds Script.act (connAct live draw) Conn.linking where
  write := by
    intro script items next does
    simp [connAct, Conn.over, Conn.waits, Conn.gives, Conn.step, does]
  read := by
    intro script next does
    simp [connAct, Conn.over, Conn.waits, Conn.step, does]

theorem conn_boots : Embeds (serveAct channel defaultChannels) (connAct live draw)
    (Conn.booting id channel) where
  write := by
    intro stage items next does
    simp [connAct, Conn.over, Conn.waits, Conn.gives, Conn.step, does]
  read := by
    intro stage next does
    simp [connAct, Conn.over, Conn.waits, Conn.step, does]

theorem conn_linked {accepted : AcceptedLink} :
    connAct live draw (.linking (.done (.ok accepted))) = .write [] (Conn.linked live accepted) :=
  rfl

theorem conn_registered {accepted : AcceptedLink} (drawn : newSessionId live draw = some id) :
    connAct live draw (.registering accepted) =
      .write [] (.booting id accepted.channel (serveStart accepted.channel id none)) := by
  simp [connAct, Conn.over, Conn.waits, Conn.gives, Conn.step, drawn]

theorem conn_booted :
    connAct live draw (.booting id channel (.ended (.ok ()))) = .write [] (.idling id channel .start) :=
  rfl

theorem attached_reads {connectionId : UInt32} {reading : Reading} {bytes : List UInt8}
    {message : Message} (spells : channel.reader.Spells reading bytes message) :
    Trail (connAct live draw) (.attached connectionId channel reading) bytes []
      (.attached connectionId channel .start) := by
  induction spells with
  | @more reading byte next bytes message fedMore _spells ih =>
      refine .read rfl ?_
      rw [Conn.step, fedMore]
      exact ih
  | @done reading byte message fedDone =>
      refine .read rfl ?_
      rw [Conn.step, fedDone]
      exact .refl _

end Phases

/-! ### What both sides come to -/

/-- The client has its main channel, and the server has the session and waits. -/
structure MainEstablished (sessionId : Nat) (pipe : Pipe UInt8 Connecting Conn) : Prop where
  client : pipe.left = .booting (Channel.new true) (.ended (.ok
    { sessionId := sessionId
      init := defaultInit sessionId
      availableChannels := defaultChannels }))
  server : pipe.right = .idling sessionId (Channel.new true) .start
  drained : pipe.Drained

/-- The client has its sub-channel, and the server has attached it to the session and waits. -/
structure SubEstablished (sessionId : UInt32)
    (pipe : Pipe UInt8 (Script UInt8 NetError Channel) Conn) : Prop where
  client : ∃ channel, pipe.left = .done (.ok channel)
  server : pipe.right = .attached sessionId (Channel.new true) .start
  drained : pipe.Drained

/-- Both sides have given up. -/
structure Turned (pipe : Pipe UInt8 Connecting Conn) : Prop where
  client : pipe.left = .linking (.done (.error (.link .permissionDenied)))
  server : pipe.right = .ended

section Established

variable {rsa : Rsa PrivateKey PublicKey Coins} {coins : Coins} {privKey : PrivateKey}
  {der password expected : List UInt8} {live : Finset Nat} {draw : UInt32} {sessionId : Nat}

private theorem own_caps :
    (CapSet.withCaps [Caps.AUTH_SPICE, Caps.MINI_HEADER]).words.length ≤ MAX_CAPS_ENTRIES := by
  decide

theorem handshake_leads {options : LinkOptions} (serves : rsa.Serves privKey der)
    (short : options.password.length ≤ SPICE_MAX_PASSWORD_LENGTH)
    (common : options.commonCaps = CapSet.withCaps [Caps.AUTH_SPICE, Caps.MINI_HEADER])
    (channel : options.channelCaps = CapSet.new) :
    ∃ last, Leads Script.act Script.act
        (Pipe.start (linkClient rsa coins options)
          (linkServer rsa (ServerLinkOptions.new privKey expected))) last ∧
      Net.Agreed options (ServerLinkOptions.new privKey expected) last := by
  have few : options.commonCaps.words.length ≤ MAX_CAPS_ENTRIES := by
    rw [common]
    exact own_caps
  have none : options.channelCaps.words.length ≤ MAX_CAPS_ENTRIES := by
    rw [channel]
    exact Nat.zero_le _
  have ends := @Net.handshake_runs _ _ _ rsa coins options (ServerLinkOptions.new privKey expected)
    der serves short few none own_caps (Nat.zero_le _)
  obtain ⟨last, leads, _stuck, agreed⟩ := ends.leads
  exact ⟨last, leads, agreed⟩

def acceptedFrom (options : LinkOptions) : AcceptedLink where
  channel := Channel.new true
  connectionId := options.connectionId
  channelType := options.channelType
  channelId := options.channelId
  clientCommonCaps := options.commonCaps
  clientChannelCaps := options.channelCaps

theorem handshake_accepts {options : LinkOptions} (serves : rsa.Serves privKey der)
    (short : options.password.length ≤ SPICE_MAX_PASSWORD_LENGTH)
    (common : options.commonCaps = CapSet.withCaps [Caps.AUTH_SPICE, Caps.MINI_HEADER])
    (channel : options.channelCaps = CapSet.new) :
    ∃ last, Leads Script.act Script.act
        (Pipe.start (linkClient rsa coins options)
          (linkServer rsa (ServerLinkOptions.new privKey options.password))) last ∧
      last.left = .done (.ok (Channel.new true)) ∧
        last.right = .done (.ok (acceptedFrom options)) ∧ last.Drained := by
  obtain ⟨last, leads, agreed⟩ := @handshake_leads _ _ _ rsa coins privKey der options.password options
    serves short common channel
  have mini : Net.bothMini options (ServerLinkOptions.new privKey options.password) = true := by
    rw [Net.bothMini, common]
    rfl
  have same : options.password = (ServerLinkOptions.new privKey options.password).expectedPassword :=
    rfl
  unfold Net.Agreed at agreed
  rw [mini, if_pos same] at agreed
  obtain ⟨client, server, read, read'⟩ := agreed
  exact ⟨last, leads, client, server, read, read'⟩

theorem handshake_refuses {options : LinkOptions} (serves : rsa.Serves privKey der)
    (short : options.password.length ≤ SPICE_MAX_PASSWORD_LENGTH)
    (common : options.commonCaps = CapSet.withCaps [Caps.AUTH_SPICE, Caps.MINI_HEADER])
    (channel : options.channelCaps = CapSet.new) (other : options.password ≠ expected) :
    ∃ last, Leads Script.act Script.act
        (Pipe.start (linkClient rsa coins options)
          (linkServer rsa (ServerLinkOptions.new privKey expected))) last ∧
      last.left = .done (.error (.link .permissionDenied)) ∧
        last.right = .done (.error (.link .permissionDenied)) := by
  obtain ⟨last, leads, agreed⟩ := @handshake_leads _ _ _ rsa coins privKey der expected options
    serves short common channel
  unfold Net.Agreed at agreed
  have different : ¬ options.password = (ServerLinkOptions.new privKey expected).expectedPassword :=
    other
  rw [if_neg different] at agreed
  exact ⟨last, leads, agreed⟩

theorem newSessionId_range {id : Nat} (drawn : newSessionId live draw = some id) :
    id ≠ 0 ∧ id < 256 ^ 4 := by
  unfold newSessionId at drawn
  split at drawn
  · cases drawn
  · rename_i positive
    split at drawn
    · cases drawn
    · cases drawn
      exact ⟨positive, draw.toNat_lt⟩

private theorem default_fits : ∀ entry ∈ defaultChannels, entry.Fits := by
  simp only [defaultChannels, List.forall_mem_cons]
  exact ⟨⟨by decide, by decide⟩, ⟨by decide, by decide⟩, ⟨by decide, by decide⟩,
    List.forall_mem_nil _⟩

variable (rsa privKey) in
def incoming (expected : List UInt8) : Conn :=
  .linking (linkServer rsa (ServerLinkOptions.new privKey expected))

/-- The main channel, phase after phase. -/
theorem main_meets (serves : rsa.Serves privKey der)
    (short : password.length ≤ SPICE_MAX_PASSWORD_LENGTH)
    (drawn : newSessionId live draw = some sessionId) :
    Meets connectAct (connAct live draw) (Client.connectMain rsa coins password)
      (incoming rsa privKey password)
      (.booting (Channel.new true) (.ended (.ok
        { sessionId := sessionId
          init := defaultInit sessionId
          availableChannels := defaultChannels })))
      (.idling sessionId (Channel.new true) .start) := by
  obtain ⟨linked, shake, client, server, read⟩ := @handshake_accepts _ _ _ rsa coins privKey der
    (Client.mainOptions password) serves short rfl rfl
  obtain ⟨booted, boot, ended, _sent⟩ := @together_leads true sessionId defaultChannels
    (newSessionId_range drawn).2 (by decide) default_fits
  have links := Meets.phase Client.connect_links (@conn_links live draw) shake read
  have boots := Meets.phase (Client.connect_boots (Channel.new true))
    (@conn_boots live draw sessionId (Channel.new true)) boot ⟨ended.leftRead, ended.rightRead⟩
  rw [client, server] at links
  rw [ended.client, ended.server] at boots
  apply links.trans
  apply Meets.trans (Meets.left Client.connect_linked)
  apply Meets.trans (Meets.right (@conn_linked live draw (acceptedFrom (Client.mainOptions password))))
  apply Meets.trans (Meets.right (conn_registered drawn))
  exact boots.trans (Meets.right conn_booted)

theorem main_stops {pipe : Pipe UInt8 Connecting Conn} {channel : Channel}
    {result : Except NetError MainConnection} (client : pipe.left = .booting channel (.ended result))
    (server : pipe.right = .idling sessionId channel .start) (drained : pipe.Drained) :
    Stuck connectAct (connAct live draw) pipe where
  left := by
    rw [Duplex.leftStep, client]
    rfl
  right := by
    have waits : connAct live draw pipe.right = .read fun byte =>
        ((Conn.idling sessionId channel .start).step live (.byte byte)).2 := by
      rw [server]
      rfl
    exact Duplex.rightStep_waits waits drained

theorem refused_ends (serves : rsa.Serves privKey der)
    (short : password.length ≤ SPICE_MAX_PASSWORD_LENGTH) (other : password ≠ expected) :
    Ends connectAct (connAct live draw)
      (Pipe.start (Client.connectMain rsa coins password) (incoming rsa privKey expected)) Turned := by
  obtain ⟨linked, shake, client, server⟩ := @handshake_refuses _ _ _ rsa coins privKey der expected
    (Client.mainOptions password) serves short rfl rfl other
  have begun : (Pipe.start (Client.connectMain rsa coins password) (incoming rsa privKey expected) :
      Pipe UInt8 Connecting Conn) = (Pipe.start _ _).within Connecting.linking Conn.linking [] [] := rfl
  have refused : connAct live draw (linked.within Connecting.linking Conn.linking [] []).right =
      .write [] .ended := by
    change connAct live draw (.linking linked.right) = _
    rw [server]
    rfl
  rw [begun]
  obtain ⟨steps, run⟩ := (shake.within Client.connect_links (@conn_links live draw) [] []).trans
    (Duplex.leads_right refused)
  have client' : Connecting.linking linked.left =
      .linking (.done (.error (.link .permissionDenied))) := congrArg _ client
  apply Duplex.ends_of_run run _ ⟨client', rfl⟩
  constructor
  · unfold Duplex.leftStep Pipe.within
    dsimp only
    rw [client']
    rfl
  · rfl

theorem sub_links {channelType : ChannelType} {session : UInt32} (serves : rsa.Serves privKey der)
    (short : password.length ≤ SPICE_MAX_PASSWORD_LENGTH) (sub : channelType ≠ .main)
    (honoured : isLiveSession live session.toNat = true)
    {place : Script UInt8 NetError Channel → Script UInt8 NetError Channel}
    (embeds : Embeds Script.act Script.act place) :
    Meets Script.act (connAct live draw)
      (place (linkClient rsa coins (Client.subOptions session channelType password)))
      (incoming rsa privKey password) (place (.done (.ok (Channel.new true))))
      (.attached session (Channel.new true) .start) := by
  obtain ⟨linked, shake, client, server, read⟩ := @handshake_accepts _ _ _ rsa coins privKey der
    (Client.subOptions session channelType password) serves short rfl rfl
  have links := Meets.phase embeds (@conn_links live draw) shake read
  rw [client, server] at links
  have attaches : Conn.linked live (acceptedFrom (Client.subOptions session channelType password)) =
      .attached session (Channel.new true) .start := by
    have asked : (acceptedFrom (Client.subOptions session channelType password)).channelType =
        channelType := rfl
    unfold Conn.linked
    rw [asked]
    cases channelType with
    | main => exact absurd rfl sub
    | _ => exact if_pos honoured
  exact links.trans (Meets.right (attaches ▸ conn_linked))

theorem init_told {session : UInt32} (salt : UInt8) :
    ∃ channel, Meets Script.act (connAct live draw) (Client.sendInit salt (Channel.new true))
      (.attached session (Channel.new true) .start) (.done (.ok channel))
      (.attached session (Channel.new true) .start) := by
  have fits : (Client.displayInit salt).encode.length ≤ Net.DEFAULT_MAX_MESSAGE_SIZE := by
    simp [Client.displayInit, DisplayInit.encode, Net.DEFAULT_MAX_MESSAGE_SIZE, writeU8, writeU32,
      writeU64]
  have wrote := @Net.used_ok _ _ _ (Net.used_new true) DisplayMsgc.INIT _ fits
  have spells := @Net.used_spells _ _ _ (Net.used_new true) DisplayMsgc.INIT _ fits (by decide) (by decide)
  have tells : Client.sendInit salt (Channel.new true) =
      Script.send ((Channel.new true).writeMessage DisplayMsgc.INIT
        (Client.displayInit salt).encode).bytes >>= fun _ => pure ((Channel.new true).writeMessage
          DisplayMsgc.INIT (Client.displayInit salt).encode).channel := by
    unfold Client.sendInit
    dsimp only
    rw [wrote]
  rw [tells]
  exact ⟨_, Meets.tell (Script.send_trail _ _) (attached_reads spells)⟩

theorem sub_meets {channelType : ChannelType} {session : UInt32} (salt : UInt8)
    (serves : rsa.Serves privKey der) (short : password.length ≤ SPICE_MAX_PASSWORD_LENGTH)
    (sub : channelType ≠ .main) (honoured : isLiveSession live session.toNat = true) :
    ∃ channel, Meets Script.act (connAct live draw)
      (Client.openChannel rsa coins salt session password channelType)
      (incoming rsa privKey password) (.done (.ok channel))
      (.attached session (Channel.new true) .start) := by
  have plain := @sub_links _ _ _ rsa coins _ _ _ _ draw channelType session serves short sub honoured id
    ⟨id, id⟩
  cases channelType with
  | display =>
      obtain ⟨channel, told⟩ := @init_told live draw session salt
      have links := @sub_links _ _ _ rsa coins _ _ _ _ draw .display session serves short sub honoured _
        (Client.bind_embeds (Client.sendInit salt))
      exact ⟨channel, links.trans told⟩
  | _ => exact ⟨_, plain⟩

theorem sub_stops {session : UInt32} {channel : Channel}
    {pipe : Pipe UInt8 (Script UInt8 NetError Channel) Conn} (client : pipe.left = .done (.ok channel))
    (server : pipe.right = .attached session (Channel.new true) .start) (drained : pipe.Drained) :
    Stuck Script.act (connAct live draw) pipe where
  left := by
    rw [Duplex.leftStep, client]
    rfl
  right := by
    have waits : connAct live draw pipe.right = .read fun byte =>
        ((Conn.attached session (Channel.new true) .start).step live (.byte byte)).2 := by
      rw [server]
      rfl
    exact Duplex.rightStep_waits waits drained

theorem main_established (serves : rsa.Serves privKey der)
    (short : password.length ≤ SPICE_MAX_PASSWORD_LENGTH)
    (drawn : newSessionId live draw = some sessionId) :
    Ends connectAct (connAct live draw)
      (Pipe.start (Client.connectMain rsa coins password) (incoming rsa privKey password))
      (MainEstablished sessionId) := by
  obtain ⟨bound, all⟩ := (main_meets serves short drawn).ends fun _pipe left right drained =>
    main_stops left right drained
  refine ⟨bound, fun steps last run => ⟨(all steps last run).1, fun stuck => ?_⟩⟩
  obtain ⟨client, server, drained⟩ := (all steps last run).2 stuck
  exact ⟨client, server, drained⟩

theorem sub_established {channelType : ChannelType} {session : UInt32} (salt : UInt8)
    (serves : rsa.Serves privKey der) (short : password.length ≤ SPICE_MAX_PASSWORD_LENGTH)
    (sub : channelType ≠ .main) (honoured : isLiveSession live session.toNat = true) :
    Ends Script.act (connAct live draw)
      (Pipe.start (Client.openChannel rsa coins salt session password channelType)
        (incoming rsa privKey password)) (SubEstablished session) := by
  obtain ⟨channel, meets⟩ := @sub_meets _ _ _ rsa coins privKey der password live draw channelType
    session salt serves short sub honoured
  obtain ⟨bound, all⟩ := meets.ends fun _pipe left right drained => sub_stops left right drained
  refine ⟨bound, fun steps last run => ⟨(all steps last run).1, fun stuck => ?_⟩⟩
  obtain ⟨client, server, drained⟩ := (all steps last run).2 stuck
  exact ⟨⟨channel, client⟩, server, drained⟩

theorem subChannels_main {cfg : SpiceClientBuilder} {available : List ChannelId}
    {types : List ChannelType} (chosen : cfg.subChannels available = .ok types) :
    ∀ channelType ∈ types, channelType ≠ .main := by
  unfold SpiceClientBuilder.subChannels at chosen
  split at chosen
  · cases chosen
  · split at chosen
    · cases chosen
    · cases chosen
      intro channelType member
      rintro rfl
      simp only [List.mem_append] at member
      rcases member with (display | inputs) | cursor
      · split at display <;> simp at display
      · split at inputs <;> simp at inputs
      · split at cursor <;> simp at cursor

end Established

/-- A client connects to the command line's server. With its password every schedule of the
main connection ends with a new session on both sides; the client finds all that it wants on
the list, and every schedule of each sub-channel that it opens ends with the server attached to
that session, as long as it is live, and with nothing unread. With another password every
schedule ends with a refusal. -/
theorem session_established {PrivateKey PublicKey Coins : Type}
    (rsa : Rsa PrivateKey PublicKey Coins) (coins : Coins) {privKey : PrivateKey}
    {der password : List UInt8} (serves : rsa.Serves privKey der)
    (short : password.length ≤ SPICE_MAX_PASSWORD_LENGTH) {live : Finset Nat} {draw : UInt32}
    {sessionId : Nat} (drawn : newSessionId live draw = some sessionId) (cfg : SpiceClientBuilder) :
    Ends connectAct (connAct live draw)
        (Pipe.start (Client.connectMain rsa coins password) (incoming rsa privKey password))
        (MainEstablished sessionId) ∧
      (∃ types, cfg.subChannels defaultChannels = .ok types ∧
        ∀ channelType ∈ types, ∀ coins' salt live' draw', sessionId ∈ live' →
          Ends Script.act (connAct live' draw')
            (Pipe.start
              (Client.openChannel rsa coins' salt (UInt32.ofNat sessionId) password channelType)
              (incoming rsa privKey password))
            (SubEstablished (UInt32.ofNat sessionId))) ∧
      ∀ expected, password ≠ expected →
        Ends connectAct (connAct live draw)
          (Pipe.start (Client.connectMain rsa coins password) (incoming rsa privKey expected))
          Turned := by
  refine ⟨main_established serves short drawn, ?_, fun expected other => refused_ends serves short other⟩
  have found : ∃ types, cfg.subChannels defaultChannels = .ok types := by
    obtain ⟨display, inputs, cursor⟩ := cfg
    cases display <;> cases inputs <;> cases cursor <;> exact ⟨_, rfl⟩
  obtain ⟨types, chosen⟩ := found
  refine ⟨types, chosen, fun channelType member coins' salt live' draw' honoured => ?_⟩
  obtain ⟨positive, small⟩ := newSessionId_range drawn
  have same : (UInt32.ofNat sessionId).toNat = sessionId := UInt32.toNat_ofNat_of_lt' small
  have known : isLiveSession live' (UInt32.ofNat sessionId).toNat = true := by
    rw [same, isLiveSession, if_neg positive]
    exact decide_eq_true honoured
  exact sub_established salt serves short (subChannels_main chosen channelType member) known

/-- A client that wants everything, on a server with another session. -/
theorem session_established_seven :
    Ends connectAct (connAct {3} 7)
      (Pipe.start (Client.connectMain Net.plainRsa () [115, 51]) (incoming Net.plainRsa () [115, 51]))
      (MainEstablished 7) :=
  (session_established Net.plainRsa () Net.plainRsa_serves (by decide) (by decide)
    ⟨true, true, true⟩).1

end Capsaicin.Server
