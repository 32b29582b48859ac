/-
How far a handshake has come, whatever the other side sends.
-/

import Capsaicin.Net.Link

namespace Capsaicin.Net

open Duplex (Script Trail)
open Proto

variable {PrivateKey PublicKey Coins : Type} {α : Type}

/-! ### A payload -/

/-- A payload as it was announced and read. -/
structure Announced (read payload : List UInt8) : Prop where
  header : ∃ hdrBuf hdr, read = hdrBuf ++ payload ∧ hdrBuf.length = LINK_HEADER_SIZE ∧
    LinkHeader.decode hdrBuf = .ok hdr ∧ hdr.size = payload.length
  small : payload.length ≤ MAX_LINK_PAYLOAD

theorem Announced.length_le {read payload : List UInt8} (announced : Announced read payload) :
    read.length ≤ LINK_HEADER_SIZE + MAX_LINK_PAYLOAD := by
  obtain ⟨hdrBuf, _hdr, rfl, size, _decoded, _same⟩ := announced.header
  have small := announced.small
  rw [List.length_append]
  omega

theorem boundedSize_same {size cap found : Nat} {buf : List UInt8}
    (decoded : (boundedSize size cap).decode buf = .ok found) : found = size ∧ found ≤ cap := by
  obtain ⟨rest, ran⟩ := Reader.decode_eq_ok decoded
  by_cases small : size ≤ cap
  · rw [boundedSize_ok small] at ran
    cases ran
    exact ⟨rfl, small⟩
  · have stopped : boundedSize size cap buf = _ := if_pos (Nat.lt_of_not_le small)
    rw [stopped] at ran
    cases ran

theorem proto_ok {found : Except ProtoError α} {good : α}
    (same : found.mapError NetError.proto = .ok good) : found = .ok good := by
  cases found with
  | error reason => cases same
  | ok value =>
      cases same
      rfl

theorem receivePayload_reached {after : List UInt8 → Script UInt8 NetError α}
    {last : Script UInt8 NetError α} {ins outs : List UInt8}
    (trail : Trail Script.act (receivePayload >>= after) ins outs last) :
    (ins.length ≤ LINK_HEADER_SIZE + MAX_LINK_PAYLOAD ∧ outs = [] ∧ Script.Unended last) ∨
      ∃ read payload rest, Announced read payload ∧ ins = read ++ rest ∧
        Trail Script.act (after payload) rest outs last := by
  let behind (hdrBuf : List UInt8) : Script UInt8 NetError (List UInt8) := do
    let hdr ← proto (LinkHeader.decode hdrBuf)
    let size ← proto ((boundedSize hdr.size MAX_LINK_PAYLOAD).decode hdrBuf)
    Script.receive size
  have whole : receivePayload >>= after =
      Script.receive LINK_HEADER_SIZE >>= fun hdrBuf => behind hdrBuf >>= after :=
    Script.bind_assoc _ behind after
  rw [whole] at trail
  rcases Script.receive_reached trail with ⟨waits, none, open_⟩ | ⟨hdrBuf, rest, length, rfl, headed⟩
  · exact Or.inl ⟨by omega, none, open_⟩
  have sized : behind hdrBuf >>= after = proto (LinkHeader.decode hdrBuf) >>= fun hdr =>
      (proto ((boundedSize hdr.size MAX_LINK_PAYLOAD).decode hdrBuf) >>= Script.receive) >>=
        after := Script.bind_assoc _ _ after
  rw [sized] at headed
  rcases Script.lift_reached headed with ⟨rfl, none, open_⟩ | ⟨hdr, decoded, announced⟩
  · refine Or.inl ⟨?_, none, open_⟩
    rw [List.append_nil, length]
    exact Nat.le_add_right _ _
  have bounded : (proto ((boundedSize hdr.size MAX_LINK_PAYLOAD).decode hdrBuf) >>=
      Script.receive) >>= after =
        proto ((boundedSize hdr.size MAX_LINK_PAYLOAD).decode hdrBuf) >>=
          fun size => Script.receive size >>= after := Script.bind_assoc _ _ after
  rw [bounded] at announced
  rcases Script.lift_reached announced with ⟨rfl, none, open_⟩ | ⟨size, allowed, received⟩
  · refine Or.inl ⟨?_, none, open_⟩
    rw [List.append_nil, length]
    exact Nat.le_add_right _ _
  obtain ⟨same, small⟩ := boundedSize_same (proto_ok allowed)
  rcases Script.receive_reached received with ⟨waits, none, open_⟩ | ⟨payload, rest, size', rfl, later⟩
  · refine Or.inl ⟨?_, none, open_⟩
    rw [List.length_append, length]
    omega
  · refine Or.inr ⟨hdrBuf ++ payload, payload, rest, ?_, (List.append_assoc _ _ _).symm, later⟩
    exact ⟨⟨hdrBuf, hdr, rfl, length, proto_ok decoded, same.symm.trans size'.symm⟩, size' ▸ small⟩

/-! ### The client -/

variable (rsa : Rsa PrivateKey PublicKey Coins) (coins : Coins) (opts : LinkOptions)

def hello : List UInt8 := withHeader opts.mess.encodedLen opts.mess.encode

/-- The server has announced a key without an error, and that is the password's ticket for it. -/
structure Offered (read ticket : List UInt8) : Prop where
  reply : ∃ payload reply, Announced read payload ∧ LinkReply.decode payload = .ok reply ∧
    reply.error = .ok ∧ encryptTicket rsa coins reply.pubKey opts.password = .ok ticket
  short : opts.password.length ≤ SPICE_MAX_PASSWORD_LENGTH

/-- What a client that is not linked has said to a server that has said this. -/
inductive Unlinked : List UInt8 → List UInt8 → Prop where
  | greeting {ins outs} : ins.length ≤ LINK_HEADER_SIZE + MAX_LINK_PAYLOAD → outs <+: hello opts →
      Unlinked ins outs
  | ticket {read ticket ins} : Offered rsa coins opts read ticket → ins.length ≤ LINK_RESULT_SIZE →
      Unlinked (read ++ ins) (hello opts ++ ticket)

/-- What a client has said to a server that has just accepted it. -/
inductive Linked : Channel → List UInt8 → List UInt8 → Prop where
  | mk {read ticket result} (mini : Bool) : Offered rsa coins opts read ticket →
      result.length = LINK_RESULT_SIZE → LinkResult.decode result = .ok .ok →
      Linked (Channel.new mini) (read ++ result) (hello opts ++ ticket)

section Client

variable {rsa coins opts} {ins outs : List UInt8}

theorem encryptTicket_short {pubKeyDer password ticket : List UInt8}
    (encrypted : encryptTicket rsa coins pubKeyDer password = .ok ticket) :
    password.length ≤ SPICE_MAX_PASSWORD_LENGTH := by
  unfold encryptTicket at encrypted
  split at encrypted
  · cases encrypted
  · rename_i small
    exact Nat.le_of_not_lt small

theorem awaitResult_reached {after : Channel → Script UInt8 NetError α}
    {last : Script UInt8 NetError α} {reply : LinkReply} {read ticket : List UInt8}
    (offered : Offered rsa coins opts read ticket)
    (trail : Trail Script.act (awaitResult opts reply >>= after) ins outs last) :
    (Unlinked rsa coins opts (read ++ ins) (hello opts ++ (ticket ++ outs)) ∧ Script.Unended last) ∨
      ∃ channel result behind, Linked rsa coins opts channel (read ++ result) (hello opts ++ ticket) ∧
        ins = result ++ behind ∧ Trail Script.act (after channel) behind outs last := by
  let behind (resultBuf : List UInt8) : Script UInt8 NetError Channel := do
    let result ← proto (LinkResult.decode resultBuf)
    if result ≠ .ok then .lift (.error (.link result))
    else
      pure (Channel.new
        (opts.commonCaps.has Caps.MINI_HEADER && (CapSet.mk reply.commonCaps).has Caps.MINI_HEADER))
  have whole : awaitResult opts reply >>= after =
      Script.receive LINK_RESULT_SIZE >>= fun resultBuf => behind resultBuf >>= after :=
    Script.bind_assoc _ behind after
  have unlinked (small : ins.length ≤ LINK_RESULT_SIZE) (none : outs = []) :
      Unlinked rsa coins opts (read ++ ins) (hello opts ++ (ticket ++ outs)) := by
    rw [none, List.append_nil]
    exact .ticket offered small
  rw [whole] at trail
  rcases Script.receive_reached trail with ⟨waits, none, open_⟩ | ⟨result, rest, size, rfl, judged⟩
  · exact Or.inl ⟨unlinked (Nat.le_of_lt waits) none, open_⟩
  have parsed : behind result >>= after = proto (LinkResult.decode result) >>= fun found =>
      (if found ≠ .ok then Script.lift (.error (.link found)) else pure (Channel.new
        (opts.commonCaps.has Caps.MINI_HEADER && (CapSet.mk reply.commonCaps).has Caps.MINI_HEADER)))
          >>= after := Script.bind_assoc _ _ after
  rw [parsed] at judged
  rcases Script.lift_reached judged with ⟨rfl, none, open_⟩ | ⟨found, decoded, verdict⟩
  · refine Or.inl ⟨unlinked ?_ none, open_⟩
    rw [List.append_nil, size]
  by_cases good : found = .ok
  · subst good
    rw [if_neg (not_not.mpr rfl)] at verdict
    exact Or.inr ⟨_, result, rest, .mk _ offered size (proto_ok decoded), rfl, verdict⟩
  · rw [if_pos good] at verdict
    obtain ⟨rfl, none, open_⟩ := Script.failed_reached verdict
    refine Or.inl ⟨unlinked ?_ none, open_⟩
    rw [List.append_nil, size]

theorem linkClient_reached {after : Channel → Script UInt8 NetError α}
    {last : Script UInt8 NetError α}
    (trail : Trail Script.act (linkClient rsa coins opts >>= after) ins outs last) :
    (Unlinked rsa coins opts ins outs ∧ Script.Unended last) ∨
      ∃ channel before said behind told, Linked rsa coins opts channel before said ∧
        ins = before ++ behind ∧ outs = said ++ told ∧
        Trail Script.act (after channel) behind told last := by
  have greeted : linkClient rsa coins opts >>= after =
      Script.send (hello opts) >>= fun _ => awaitReply rsa coins opts >>= after :=
    Script.bind_assoc _ _ after
  rw [greeted] at trail
  rcases Script.send_reached trail with ⟨rfl, rfl, open_⟩ | ⟨said, rfl, waited⟩
  · exact Or.inl ⟨.greeting (Nat.zero_le _) List.nil_prefix, open_⟩
  have early {got : List UInt8} (small : got.length ≤ LINK_HEADER_SIZE + MAX_LINK_PAYLOAD)
      (none : said = []) : Unlinked rsa coins opts got (hello opts ++ said) := by
    rw [none, List.append_nil]
    exact .greeting small (List.prefix_refl _)
  let behind (replyBuf : List UInt8) : Script UInt8 NetError Channel := do
    let reply ← proto (LinkReply.decode replyBuf)
    if reply.error ≠ .ok then .lift (.error (.link reply.error))
    else sendTicket rsa coins opts reply
  have replied : awaitReply rsa coins opts >>= after =
      receivePayload >>= fun replyBuf => behind replyBuf >>= after :=
    Script.bind_assoc _ behind after
  rw [replied] at waited
  rcases receivePayload_reached waited with
    ⟨small, none, open_⟩ | ⟨read, payload, rest, announced, rfl, judged⟩
  · exact Or.inl ⟨early small none, open_⟩
  have answeredSo (ended : rest = [] ∧ said = [] ∧ Script.Unended last) :
      Unlinked rsa coins opts (read ++ rest) (hello opts ++ said) ∧ Script.Unended last := by
    rw [ended.1, List.append_nil]
    exact ⟨early announced.length_le ended.2.1, ended.2.2⟩
  have parsed : behind payload >>= after = proto (LinkReply.decode payload) >>= fun reply =>
      (if reply.error ≠ .ok then Script.lift (.error (.link reply.error))
        else sendTicket rsa coins opts reply) >>= after := Script.bind_assoc _ _ after
  rw [parsed] at judged
  rcases Script.lift_reached judged with ended | ⟨reply, decoded, answered⟩
  · exact Or.inl (answeredSo ended)
  by_cases good : reply.error = .ok
  · rw [if_neg (not_not.mpr good)] at answered
    have ticketed : sendTicket rsa coins opts reply >>= after =
        Script.lift (encryptTicket rsa coins reply.pubKey opts.password) >>= fun ticket =>
          (Script.send ticket >>= fun _ => awaitResult opts reply) >>= after :=
      Script.bind_assoc _ _ after
    rw [ticketed] at answered
    rcases Script.lift_reached answered with ended | ⟨ticket, encrypted, sent⟩
    · exact Or.inl (answeredSo ended)
    have offered : Offered rsa coins opts read ticket :=
      ⟨⟨payload, reply, announced, proto_ok decoded, good, encrypted⟩,
        encryptTicket_short encrypted⟩
    have told : (Script.send ticket >>= fun _ => awaitResult opts reply) >>= after =
        Script.send ticket >>= fun _ => awaitResult opts reply >>= after :=
      Script.bind_assoc _ _ after
    rw [told] at sent
    rcases Script.send_reached sent with ended | ⟨more, rfl, waits⟩
    · exact Or.inl (answeredSo ended)
    rcases awaitResult_reached offered waits with unlinked | ⟨channel, result, left, linked, rfl, later⟩
    · exact Or.inl unlinked
    · exact Or.inr ⟨channel, read ++ result, hello opts ++ ticket, left, more, linked,
        (List.append_assoc _ _ _).symm, (List.append_assoc _ _ _).symm, later⟩
  · rw [if_pos good] at answered
    exact Or.inl (answeredSo (Script.failed_reached answered))

end Client

end Capsaicin.Net
