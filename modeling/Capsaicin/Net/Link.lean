/-
The link handshake, as its two ends drive it.
-/

import Capsaicin.Library.Script
import Capsaicin.Net.Delivery

namespace Capsaicin.Net

open Duplex (Act Trail Script Pipe Stuck Ends)
open Proto

/-! ### Keys -/

/-- What the handshake uses of the RSA library. Encryption draws coins. -/
structure Rsa (PrivateKey PublicKey Coins : Type) where
  publicKey : PrivateKey → PublicKey
  toPublicKeyDer : PublicKey → Option (List UInt8)
  fromPublicKeyDer : List UInt8 → Option PublicKey
  encrypt : PublicKey → Coins → List UInt8 → Except String (List UInt8)
  decrypt : PrivateKey → List UInt8 → Option (List UInt8)

variable {PrivateKey PublicKey Coins : Type} {α : Type}

def encryptTicket (rsa : Rsa PrivateKey PublicKey Coins) (coins : Coins) (pubKeyDer : List UInt8)
    (password : List UInt8) : Except NetError (List UInt8) :=
  if password.length > SPICE_MAX_PASSWORD_LENGTH then .error (.passwordTooLong password.length)
  else
    match rsa.fromPublicKeyDer pubKeyDer with
    | none => .error .badServerKey
    | some key => (rsa.encrypt key coins (password ++ [0])).mapError .rsaEncrypt

/-! ### Both drivers -/

structure LinkOptions where
  connectionId : UInt32
  channelType : ChannelType
  channelId : UInt8
  password : List UInt8
  commonCaps : CapSet
  channelCaps : CapSet

structure ServerLinkOptions (PrivateKey : Type) where
  privKey : PrivateKey
  expectedPassword : List UInt8
  serverCommonCaps : CapSet
  serverChannelCaps : CapSet

structure AcceptedLink where
  channel : Channel
  connectionId : UInt32
  channelType : ChannelType
  channelId : UInt8
  clientCommonCaps : CapSet
  clientChannelCaps : CapSet

def proto (result : Except ProtoError α) : Script UInt8 NetError α :=
  .lift (result.mapError .proto)

def receivePayload : Script UInt8 NetError (List UInt8) := do
  let hdrBuf ← Script.receive LINK_HEADER_SIZE
  let hdr ← proto (LinkHeader.decode hdrBuf)
  let size ← proto ((boundedSize hdr.size MAX_LINK_PAYLOAD).decode hdrBuf)
  Script.receive size

def withHeader (len : Nat) (payload : List UInt8) : List UInt8 :=
  (LinkHeader.new (len % 2 ^ 32)).encode ++ payload

/-! ### The client -/

def LinkOptions.mess (opts : LinkOptions) : LinkMess where
  connectionId := opts.connectionId
  channelType := opts.channelType
  channelId := opts.channelId
  commonCaps := opts.commonCaps.words
  channelCaps := opts.channelCaps.words

/-- The steps 5 and 6 of `link_client`. -/
def awaitResult (opts : LinkOptions) (reply : LinkReply) : Script UInt8 NetError Channel := do
  let resultBuf ← Script.receive LINK_RESULT_SIZE
  let result ← proto (LinkResult.decode resultBuf)
  if result ≠ .ok then .lift (.error (.link result))
  else
    pure (Channel.new
      (opts.commonCaps.has Caps.MINI_HEADER && (CapSet.mk reply.commonCaps).has Caps.MINI_HEADER))

/-- The step 4, and what follows. -/
def sendTicket (rsa : Rsa PrivateKey PublicKey Coins) (coins : Coins) (opts : LinkOptions)
    (reply : LinkReply) : Script UInt8 NetError Channel := do
  let ticket ← .lift (encryptTicket rsa coins reply.pubKey opts.password)
  Script.send ticket
  awaitResult opts reply

/-- The steps 2 and 3, and what follows. -/
def awaitReply (rsa : Rsa PrivateKey PublicKey Coins) (coins : Coins) (opts : LinkOptions) :
    Script UInt8 NetError Channel := do
  let replyBuf ← receivePayload
  let reply ← proto (LinkReply.decode replyBuf)
  if reply.error ≠ .ok then .lift (.error (.link reply.error))
  else sendTicket rsa coins opts reply

def linkClient (rsa : Rsa PrivateKey PublicKey Coins) (coins : Coins) (opts : LinkOptions) :
    Script UInt8 NetError Channel := do
  Script.send (withHeader opts.mess.encodedLen opts.mess.encode)
  awaitReply rsa coins opts

/-! ### The server -/

/-- The password of a ticket, without the trailing null that is expected. -/
def stripNul (pt : List UInt8) : List UInt8 := if pt.getLast? = some 0 then pt.dropLast else pt

def ticketResult (rsa : Rsa PrivateKey PublicKey Coins) (opts : ServerLinkOptions PrivateKey)
    (ct : List UInt8) : LinkError :=
  match rsa.decrypt opts.privKey ct with
  | some pt => if stripNul pt = opts.expectedPassword then .ok else .permissionDenied
  | none => .permissionDenied

def ServerLinkOptions.accepted (opts : ServerLinkOptions PrivateKey) (mess : LinkMess) :
    AcceptedLink where
  channel := Channel.new
    ((CapSet.mk mess.commonCaps).has Caps.MINI_HEADER &&
      opts.serverCommonCaps.has Caps.MINI_HEADER)
  connectionId := mess.connectionId
  channelType := mess.channelType
  channelId := mess.channelId
  clientCommonCaps := CapSet.mk mess.commonCaps
  clientChannelCaps := CapSet.mk mess.channelCaps

/-- The steps 4 to 6 of `link_server`. -/
def awaitTicket (rsa : Rsa PrivateKey PublicKey Coins) (opts : ServerLinkOptions PrivateKey)
    (mess : LinkMess) : Script UInt8 NetError AcceptedLink := do
  let ct ← Script.receive ENCRYPTED_TICKET_SIZE
  Script.send (LinkResult.encode (ticketResult rsa opts ct))
  if ticketResult rsa opts ct ≠ .ok then .lift (.error (.link (ticketResult rsa opts ct)))
  else pure (opts.accepted mess)

def ServerLinkOptions.reply (opts : ServerLinkOptions PrivateKey) (der : List UInt8) :
    LinkReply where
  error := .ok
  pubKey := der
  commonCaps := opts.serverCommonCaps.words
  channelCaps := opts.serverChannelCaps.words

/-- The steps 2 and 3, and what follows. -/
def sendReply (rsa : Rsa PrivateKey PublicKey Coins) (opts : ServerLinkOptions PrivateKey)
    (mess : LinkMess) : Script UInt8 NetError AcceptedLink :=
  match rsa.toPublicKeyDer (rsa.publicKey opts.privKey) with
  | none => .lift (.error .badServerKey)
  | some der =>
      if der.length ≠ SPICE_TICKET_PUBKEY_BYTES then .lift (.error .badServerKey)
      else do
        Script.send (withHeader (opts.reply der).encodedLen (opts.reply der).encode)
        awaitTicket rsa opts mess

def linkServer (rsa : Rsa PrivateKey PublicKey Coins) (opts : ServerLinkOptions PrivateKey) :
    Script UInt8 NetError AcceptedLink := do
  let messBuf ← receivePayload
  let mess ← proto (LinkMess.decode messBuf)
  sendReply rsa opts mess

/-! ### The way of each driver -/

section Trails

variable {rsa : Rsa PrivateKey PublicKey Coins} {coins : Coins} {opts : LinkOptions}
  {serverOpts : ServerLinkOptions PrivateKey} {reply : LinkReply} {mess : LinkMess}
  {der ticket : List UInt8}

theorem receivePayload_trail {payload : List UInt8} (small : payload.length ≤ MAX_LINK_PAYLOAD)
    (after : List UInt8 → Script UInt8 NetError α) :
    Trail Script.act (receivePayload >>= after) (withHeader payload.length payload) []
      (after payload) := by
  have fits : payload.length < 256 ^ 4 := Nat.lt_of_le_of_lt small (by decide)
  have same : payload.length % 2 ^ 32 = payload.length := Nat.mod_eq_of_lt fits
  let header := LinkHeader.new payload.length
  let behind (hdrBuf : List UInt8) : Script UInt8 NetError (List UInt8) := do
    let hdr ← proto (LinkHeader.decode hdrBuf)
    let size ← proto ((boundedSize hdr.size MAX_LINK_PAYLOAD).decode hdrBuf)
    Script.receive size
  have whole : receivePayload >>= after =
      Script.receive header.encode.length >>= fun hdrBuf => behind hdrBuf >>= after := by
    rw [LinkHeader.length_encode]
    exact Script.bind_assoc _ behind after
  have known : behind header.encode = Script.receive payload.length := by
    simp only [behind, header, LinkHeader.decode_encode fits]
    change Script.bind (proto ((boundedSize payload.length MAX_LINK_PAYLOAD).decode _)) _ = _
    rw [← boundedCount, boundedCount_ok _ small]
    rfl
  have first := Script.receive_trail header.encode fun hdrBuf => behind hdrBuf >>= after
  rw [← whole, known] at first
  have both := first.trans (Script.receive_trail payload after)
  rw [withHeader, same]
  exact both

theorem linkClient_trail :
    Trail Script.act (linkClient rsa coins opts) []
      (withHeader opts.mess.encodedLen opts.mess.encode) (awaitReply rsa coins opts) :=
  Script.send_trail _ _

theorem encodedLen_le {fixed common channel : Nat} (room : fixed ≤ 1024)
    (few : common ≤ MAX_CAPS_ENTRIES) (few' : channel ≤ MAX_CAPS_ENTRIES) :
    fixed + 4 * (common + channel) ≤ MAX_LINK_PAYLOAD := by
  unfold MAX_CAPS_ENTRIES at few few'
  unfold MAX_LINK_PAYLOAD
  omega

theorem awaitReply_trail (good : reply.error = .ok)
    (key : reply.pubKey.length = SPICE_TICKET_PUBKEY_BYTES)
    (common : reply.commonCaps.length ≤ MAX_CAPS_ENTRIES)
    (channel : reply.channelCaps.length ≤ MAX_CAPS_ENTRIES)
    (encrypted : encryptTicket rsa coins reply.pubKey opts.password = .ok ticket) :
    Trail Script.act (awaitReply rsa coins opts) (withHeader reply.encodedLen reply.encode) ticket
      (awaitResult opts reply) := by
  have length := LinkReply.length_encode key
  have small : reply.encode.length ≤ MAX_LINK_PAYLOAD := by
    rw [length]
    exact encodedLen_le (by decide) common channel
  let after (replyBuf : List UInt8) : Script UInt8 NetError Channel := do
    let reply ← proto (LinkReply.decode replyBuf)
    if reply.error ≠ .ok then .lift (.error (.link reply.error))
    else sendTicket rsa coins opts reply
  have known : after reply.encode = Script.send ticket >>= fun _ => awaitResult opts reply := by
    simp only [after, LinkReply.decode_encode key common channel]
    change (if reply.error ≠ .ok then _ else sendTicket rsa coins opts reply) = _
    rw [if_neg (not_not.mpr good), sendTicket, encrypted]
    rfl
  have read := receivePayload_trail small after
  rw [known, length] at read
  have both := read.trans (Script.send_trail ticket fun _ => awaitResult opts reply)
  rw [List.append_nil, List.nil_append] at both
  exact both

theorem awaitResult_trail (result : LinkError) :
    Trail Script.act (awaitResult opts reply) (LinkResult.encode result) []
      (if result ≠ .ok then .done (.error (.link result)) else
        .done (.ok (Channel.new (opts.commonCaps.has Caps.MINI_HEADER &&
          (CapSet.mk reply.commonCaps).has Caps.MINI_HEADER)))) := by
  let after (resultBuf : List UInt8) : Script UInt8 NetError Channel := do
    let result ← proto (LinkResult.decode resultBuf)
    if result ≠ .ok then .lift (.error (.link result))
    else
      pure (Channel.new (opts.commonCaps.has Caps.MINI_HEADER &&
        (CapSet.mk reply.commonCaps).has Caps.MINI_HEADER))
  have read := Script.receive_trail (LinkResult.encode result) after
  have known : after (LinkResult.encode result) =
      if result ≠ .ok then .done (.error (.link result)) else
        .done (.ok (Channel.new (opts.commonCaps.has Caps.MINI_HEADER &&
          (CapSet.mk reply.commonCaps).has Caps.MINI_HEADER))) := by
    simp only [after, LinkResult.decode_encode result]
    rfl
  rw [known] at read
  exact read

theorem linkServer_trail (common : mess.commonCaps.length ≤ MAX_CAPS_ENTRIES)
    (channel : mess.channelCaps.length ≤ MAX_CAPS_ENTRIES)
    (key : rsa.toPublicKeyDer (rsa.publicKey serverOpts.privKey) = some der)
    (size : der.length = SPICE_TICKET_PUBKEY_BYTES) :
    Trail Script.act (linkServer rsa serverOpts) (withHeader mess.encodedLen mess.encode)
      (withHeader (serverOpts.reply der).encodedLen (serverOpts.reply der).encode)
      (awaitTicket rsa serverOpts mess) := by
  have length := mess.length_encode
  have small : mess.encode.length ≤ MAX_LINK_PAYLOAD := by
    rw [length]
    exact encodedLen_le (by decide) common channel
  let after (messBuf : List UInt8) : Script UInt8 NetError AcceptedLink := do
    let mess ← proto (LinkMess.decode messBuf)
    sendReply rsa serverOpts mess
  have known : after mess.encode =
      Script.send (withHeader (serverOpts.reply der).encodedLen (serverOpts.reply der).encode) >>=
        fun _ => awaitTicket rsa serverOpts mess := by
    simp only [after, LinkMess.decode_encode common channel]
    change sendReply rsa serverOpts mess = _
    rw [sendReply, key]
    exact if_neg (not_not.mpr size)
  have read := receivePayload_trail small after
  rw [known, length] at read
  have both := read.trans (Script.send_trail _ fun _ => awaitTicket rsa serverOpts mess)
  rw [List.append_nil, List.nil_append] at both
  exact both

theorem awaitTicket_trail (size : ticket.length = ENCRYPTED_TICKET_SIZE) :
    Trail Script.act (awaitTicket rsa serverOpts mess) ticket
      (LinkResult.encode (ticketResult rsa serverOpts ticket))
      (if ticketResult rsa serverOpts ticket ≠ .ok then
        .done (.error (.link (ticketResult rsa serverOpts ticket)))
      else .done (.ok (serverOpts.accepted mess))) := by
  let after (ct : List UInt8) : Script UInt8 NetError AcceptedLink := do
    Script.send (LinkResult.encode (ticketResult rsa serverOpts ct))
    if ticketResult rsa serverOpts ct ≠ .ok then
      .lift (.error (.link (ticketResult rsa serverOpts ct)))
    else pure (serverOpts.accepted mess)
  have read := Script.receive_trail ticket after
  rw [size] at read
  have both := read.trans (Script.send_trail _ _)
  rw [List.append_nil, List.nil_append] at both
  exact both

end Trails

/-! ### Both drivers together -/

/-- The key is good, and what it encrypts it decrypts. -/
structure Rsa.Serves (rsa : Rsa PrivateKey PublicKey Coins) (privKey : PrivateKey)
    (der : List UInt8) : Prop where
  exports : rsa.toPublicKeyDer (rsa.publicKey privKey) = some der
  size : der.length = SPICE_TICKET_PUBKEY_BYTES
  imports : rsa.fromPublicKeyDer der = some (rsa.publicKey privKey)
  decrypts : ∀ coins pt, pt.length ≤ SPICE_MAX_PASSWORD_LENGTH + 1 →
    ∃ ct, rsa.encrypt (rsa.publicKey privKey) coins pt = .ok ct ∧
      ct.length = ENCRYPTED_TICKET_SIZE ∧ rsa.decrypt privKey ct = some pt

/-- The kind of header that both sides advertise. -/
def bothMini (opts : LinkOptions) (serverOpts : ServerLinkOptions PrivateKey) : Bool :=
  opts.commonCaps.has Caps.MINI_HEADER && serverOpts.serverCommonCaps.has Caps.MINI_HEADER

/-- Both sides have linked alike and read everything, or neither has. -/
def Agreed (opts : LinkOptions) (serverOpts : ServerLinkOptions PrivateKey)
    (pipe : Pipe UInt8 (Script UInt8 NetError Channel) (Script UInt8 NetError AcceptedLink)) :
    Prop :=
  if opts.password = serverOpts.expectedPassword then
    pipe.left = .done (.ok (Channel.new (bothMini opts serverOpts))) ∧
      pipe.right = .done (.ok
        { channel := Channel.new (bothMini opts serverOpts)
          connectionId := opts.connectionId
          channelType := opts.channelType
          channelId := opts.channelId
          clientCommonCaps := opts.commonCaps
          clientChannelCaps := opts.channelCaps }) ∧
      pipe.leftGot = pipe.rightSent.length ∧ pipe.rightGot = pipe.leftSent.length
  else
    pipe.left = .done (.error (.link .permissionDenied)) ∧
      pipe.right = .done (.error (.link .permissionDenied))

theorem stripNul_ticket (password : List UInt8) : stripNul (password ++ [0]) = password := by
  rw [stripNul, List.getLast?_concat, if_pos rfl, List.dropLast_concat]

theorem ticketResult_eq {rsa : Rsa PrivateKey PublicKey Coins}
    {serverOpts : ServerLinkOptions PrivateKey} {ticket password : List UInt8}
    (decrypted : rsa.decrypt serverOpts.privKey ticket = some (password ++ [0])) :
    ticketResult rsa serverOpts ticket =
      if password = serverOpts.expectedPassword then .ok else .permissionDenied := by
  rw [ticketResult, decrypted]
  dsimp only
  rw [stripNul_ticket]

theorem encryptTicket_ok {rsa : Rsa PrivateKey PublicKey Coins} {coins : Coins}
    {privKey : PrivateKey} {der password : List UInt8} (serves : rsa.Serves privKey der)
    (short : password.length ≤ SPICE_MAX_PASSWORD_LENGTH) :
    ∃ ticket, encryptTicket rsa coins der password = .ok ticket ∧
      ticket.length = ENCRYPTED_TICKET_SIZE ∧
      rsa.decrypt privKey ticket = some (password ++ [0]) := by
  have fits : (password ++ [0]).length ≤ SPICE_MAX_PASSWORD_LENGTH + 1 := by
    rw [List.length_append]
    exact Nat.add_le_add_right short 1
  obtain ⟨ticket, encrypted, size, decrypted⟩ := serves.decrypts coins _ fits
  refine ⟨ticket, ?_, size, decrypted⟩
  rw [encryptTicket, if_neg (Nat.not_lt.mpr short), serves.imports]
  dsimp only
  rw [encrypted]
  rfl

theorem handshake_runs {rsa : Rsa PrivateKey PublicKey Coins} {coins : Coins} {opts : LinkOptions}
    {serverOpts : ServerLinkOptions PrivateKey} {der : List UInt8}
    (serves : rsa.Serves serverOpts.privKey der)
    (short : opts.password.length ≤ SPICE_MAX_PASSWORD_LENGTH)
    (common : opts.commonCaps.words.length ≤ MAX_CAPS_ENTRIES)
    (channel : opts.channelCaps.words.length ≤ MAX_CAPS_ENTRIES)
    (serverCommon : serverOpts.serverCommonCaps.words.length ≤ MAX_CAPS_ENTRIES)
    (serverChannel : serverOpts.serverChannelCaps.words.length ≤ MAX_CAPS_ENTRIES) :
    Ends Script.act Script.act (Pipe.start (linkClient rsa coins opts) (linkServer rsa serverOpts))
      (Agreed opts serverOpts) := by
  obtain ⟨ticket, encrypted, size, decrypted⟩ := encryptTicket_ok serves short
  have answers : Trail Script.act (linkServer rsa serverOpts) _ _ (awaitTicket rsa serverOpts opts.mess) :=
    linkServer_trail common channel serves.exports serves.size
  have proves : Trail Script.act (awaitReply rsa coins opts) _ ticket
      (awaitResult opts (serverOpts.reply der)) :=
    awaitReply_trail rfl serves.size serverCommon serverChannel encrypted
  obtain ⟨steps, run⟩ := Duplex.exchange linkClient_trail answers proves (awaitTicket_trail size)
    (awaitResult_trail _)
  rw [ticketResult_eq decrypted] at run
  by_cases same : opts.password = serverOpts.expectedPassword
  · rw [if_pos same, if_neg (not_not.mpr rfl), if_neg (not_not.mpr rfl)] at run
    apply Duplex.ends_of_run run (Duplex.stuck_of_done rfl rfl)
    rw [Agreed, if_pos same]
    exact ⟨rfl, rfl, rfl, rfl⟩
  · rw [if_neg same] at run
    apply Duplex.ends_of_run run (Duplex.stuck_of_done rfl rfl)
    rw [Agreed, if_neg same]
    exact ⟨rfl, rfl⟩

/-! ### An arbitrary peer -/

theorem receivePayload_ended {after : List UInt8 → Script UInt8 NetError α} {ins outs : List UInt8}
    {value : α} (trail : Trail Script.act (receivePayload >>= after) ins outs (.done (.ok value))) :
    ∃ read payload rest, ins = read ++ rest ∧
      Trail Script.act (after payload) rest outs (.done (.ok value)) := by
  let behind (hdrBuf : List UInt8) : Script UInt8 NetError (List UInt8) := do
    let hdr ← proto (LinkHeader.decode hdrBuf)
    let size ← proto ((boundedSize hdr.size MAX_LINK_PAYLOAD).decode hdrBuf)
    Script.receive size
  have whole : receivePayload >>= after =
      Script.receive LINK_HEADER_SIZE >>= fun hdrBuf => behind hdrBuf >>= after :=
    Script.bind_assoc _ behind after
  rw [whole] at trail
  obtain ⟨hdrBuf, rest, _size, rfl, headed⟩ := Script.receive_ended trail
  have sized : behind hdrBuf >>= after = proto (LinkHeader.decode hdrBuf) >>= fun hdr =>
      (proto ((boundedSize hdr.size MAX_LINK_PAYLOAD).decode hdrBuf) >>= Script.receive) >>=
        after := Script.bind_assoc _ _ after
  rw [sized] at headed
  obtain ⟨hdr, _decoded, announced⟩ := Script.lift_ended headed
  have bounded : (proto ((boundedSize hdr.size MAX_LINK_PAYLOAD).decode hdrBuf) >>=
      Script.receive) >>= after = proto ((boundedSize hdr.size MAX_LINK_PAYLOAD).decode hdrBuf) >>=
        fun size => Script.receive size >>= after := Script.bind_assoc _ _ after
  rw [bounded] at announced
  obtain ⟨size, _bounded, allowed⟩ := Script.lift_ended announced
  obtain ⟨payload, rest, _length, rfl, later⟩ := Script.receive_ended allowed
  exact ⟨hdrBuf ++ payload, payload, rest, (List.append_assoc _ _ _).symm, later⟩

/-- Whoever the peer is, its ticket holds the password where the link is accepted. -/
theorem linkServer_accepts {rsa : Rsa PrivateKey PublicKey Coins}
    {serverOpts : ServerLinkOptions PrivateKey} {ins outs : List UInt8} {accepted : AcceptedLink}
    (trail : Trail Script.act (linkServer rsa serverOpts) ins outs (.done (.ok accepted))) :
    ∃ before ticket pt, ins = before ++ ticket ∧ ticket.length = ENCRYPTED_TICKET_SIZE ∧
      rsa.decrypt serverOpts.privKey ticket = some pt ∧
      stripNul pt = serverOpts.expectedPassword := by
  obtain ⟨before, messBuf, rest, rfl, received⟩ := receivePayload_ended trail
  obtain ⟨mess, _decoded, replied⟩ := Script.lift_ended received
  rw [sendReply] at replied
  cases key : rsa.toPublicKeyDer (rsa.publicKey serverOpts.privKey) with
  | none =>
      rw [key] at replied
      cases (Script.done_ended replied).2.2
  | some der =>
      rw [key] at replied
      dsimp only at replied
      split at replied
      · cases (Script.done_ended replied).2.2
      · obtain ⟨_outs, _written, waited⟩ := Script.send_ended replied
        obtain ⟨ticket, rest, size, rfl, judged⟩ := Script.receive_ended waited
        obtain ⟨_outs, _written, verdict⟩ := Script.send_ended judged
        split at verdict
        · cases (Script.done_ended verdict).2.2
        · rename_i good
          rw [(Script.done_ended verdict).1, List.append_nil]
          unfold ticketResult at good
          split at good
          · rename_i pt decrypted
            split at good
            · rename_i same
              exact ⟨before, ticket, pt, rfl, size, decrypted, same⟩
            · exact absurd LinkError.noConfusion good
          · exact absurd LinkError.noConfusion good

/-- The two drivers agree. Where the key serves and nothing is too long, every schedule
ends with both linked alike or with both refused; and a link is never accepted without
the password. -/
theorem handshake_agrees (rsa : Rsa PrivateKey PublicKey Coins)
    (serverOpts : ServerLinkOptions PrivateKey) :
    (∀ coins opts der, rsa.Serves serverOpts.privKey der →
      opts.password.length ≤ SPICE_MAX_PASSWORD_LENGTH →
      opts.commonCaps.words.length ≤ MAX_CAPS_ENTRIES →
      opts.channelCaps.words.length ≤ MAX_CAPS_ENTRIES →
      serverOpts.serverCommonCaps.words.length ≤ MAX_CAPS_ENTRIES →
      serverOpts.serverChannelCaps.words.length ≤ MAX_CAPS_ENTRIES →
        Ends Script.act Script.act
          (Pipe.start (linkClient rsa coins opts) (linkServer rsa serverOpts))
          (Agreed opts serverOpts)) ∧
      ∀ ins outs accepted,
        Trail Script.act (linkServer rsa serverOpts) ins outs (.done (.ok accepted)) →
          ∃ before ticket pt, ins = before ++ ticket ∧ ticket.length = ENCRYPTED_TICKET_SIZE ∧
            rsa.decrypt serverOpts.privKey ticket = some pt ∧
            stripNul pt = serverOpts.expectedPassword := by
  constructor
  · intro coins opts der serves short common channel serverCommon serverChannel
    exact handshake_runs serves short common channel serverCommon serverChannel
  · intro ins outs accepted trail
    exact linkServer_accepts trail

/-- A key whose ciphertext is the plaintext behind its length. -/
def plainRsa : Rsa Unit Unit Unit where
  publicKey := id
  toPublicKeyDer _ := some (List.replicate 162 0)
  fromPublicKeyDer _ := some ()
  encrypt _ _ pt :=
    if pt.length ≤ 86 then
      .ok (UInt8.ofNat pt.length :: (pt ++ List.replicate (127 - pt.length) 0))
    else .error "message too long"
  decrypt _ ct := some ((ct.drop 1).take (ct.headD 0).toNat)

theorem plainRsa_serves : plainRsa.Serves () (List.replicate 162 0) where
  exports := rfl
  size := rfl
  imports := rfl
  decrypts := by
    intro coins pt short
    have few : pt.length ≤ 61 := short
    refine ⟨UInt8.ofNat pt.length :: (pt ++ List.replicate (127 - pt.length) 0),
      if_pos (Nat.le_trans few (by decide)), ?_, ?_⟩
    · rw [List.length_cons, List.length_append, List.length_replicate, ENCRYPTED_TICKET_SIZE]
      omega
    · have length : (UInt8.ofNat pt.length).toNat = pt.length := by
        rw [Bytes.toNat_ofNat]
        omega
      change some ((pt ++ List.replicate (127 - pt.length) 0).take (UInt8.ofNat pt.length).toNat) =
        some pt
      rw [length, List.take_left]

def sampleOptions : LinkOptions where
  connectionId := 7
  channelType := .inputs
  channelId := 0
  password := [115, 51]
  commonCaps := ⟨[10]⟩
  channelCaps := ⟨[]⟩

def sampleServer : ServerLinkOptions Unit where
  privKey := ()
  expectedPassword := [115, 51]
  serverCommonCaps := ⟨[10]⟩
  serverChannelCaps := ⟨[]⟩

theorem handshake_agrees_sample :
    Ends Script.act Script.act
      (Pipe.start (linkClient plainRsa () sampleOptions) (linkServer plainRsa sampleServer))
      (Agreed sampleOptions sampleServer) :=
  (handshake_agrees plainRsa sampleServer).1 () sampleOptions (List.replicate 162 0)
    plainRsa_serves (by decide) (by decide) (by decide) (by decide) (by decide)

end Capsaicin.Net
