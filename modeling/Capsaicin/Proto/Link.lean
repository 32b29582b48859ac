/-
Messages of the link handshake.
-/

import Capsaicin.Proto.Types

namespace Capsaicin.Proto

open Bytes (ofLe toLe slice)

/-! ### Enumerations -/

def SPICE_MAGIC : Nat := 0x51444552
def SPICE_VERSION_MAJOR : Nat := 2
def SPICE_VERSION_MINOR : Nat := 2
def SPICE_TICKET_PUBKEY_BYTES : Nat := 162
def SPICE_MAX_PASSWORD_LENGTH : Nat := 60

inductive ChannelType where
  | main
  | display
  | inputs
  | cursor
  | playback
  | record
  | tunnel
  | smartcard
  | usbRedir
  | port
  | webDav
  deriving DecidableEq, Repr

def ChannelType.toU8 : ChannelType → Nat
  | .main => 1
  | .display => 2
  | .inputs => 3
  | .cursor => 4
  | .playback => 5
  | .record => 6
  | .tunnel => 7
  | .smartcard => 8
  | .usbRedir => 9
  | .port => 10
  | .webDav => 11

def ChannelType.fromU8 : Nat → Except ProtoError ChannelType
  | 1 => .ok .main
  | 2 => .ok .display
  | 3 => .ok .inputs
  | 4 => .ok .cursor
  | 5 => .ok .playback
  | 6 => .ok .record
  | 7 => .ok .tunnel
  | 8 => .ok .smartcard
  | 9 => .ok .usbRedir
  | 10 => .ok .port
  | 11 => .ok .webDav
  | value => .error (.badChannelType value)

inductive LinkError where
  | ok
  | error
  | invalidMagic
  | invalidData
  | versionMismatch
  | needSecured
  | needUnsecured
  | permissionDenied
  | badConnectionId
  | channelNotAvailable
  deriving DecidableEq, Repr

def LinkError.toU32 : LinkError → Nat
  | .ok => 0
  | .error => 1
  | .invalidMagic => 2
  | .invalidData => 3
  | .versionMismatch => 4
  | .needSecured => 5
  | .needUnsecured => 6
  | .permissionDenied => 7
  | .badConnectionId => 8
  | .channelNotAvailable => 9

def LinkError.fromU32 : Nat → Except ProtoError LinkError
  | 0 => .ok .ok
  | 1 => .ok .error
  | 2 => .ok .invalidMagic
  | 3 => .ok .invalidData
  | 4 => .ok .versionMismatch
  | 5 => .ok .needSecured
  | 6 => .ok .needUnsecured
  | 7 => .ok .permissionDenied
  | 8 => .ok .badConnectionId
  | 9 => .ok .channelNotAvailable
  | value => .error (.badLinkError value)

theorem ChannelType.fromU8_toU8 (channelType : ChannelType) :
    fromU8 channelType.toU8 = .ok channelType := by
  cases channelType <;> rfl

theorem LinkError.fromU32_toU32 (code : LinkError) : fromU32 code.toU32 = .ok code := by
  cases code <;> rfl

theorem ChannelType.toU8_lt (channelType : ChannelType) : channelType.toU8 < 256 ^ 1 := by
  cases channelType <;> decide

theorem LinkError.toU32_lt (code : LinkError) : code.toU32 < 256 ^ 4 := by
  cases code <;> decide

/-! ### Capabilities -/

structure CapSet where
  words : List UInt32
  deriving DecidableEq, Repr

namespace Caps

def AUTH_SPICE : Nat := 1
def MINI_HEADER : Nat := 3

end Caps

def CapSet.has (caps : CapSet) (cap : Nat) : Bool :=
  match caps.words[cap / 32]? with
  | some word => word.toNat.testBit (cap % 32)
  | none => false

def MAX_LINK_PAYLOAD : Nat := 4 * 1024
def MAX_CAPS_ENTRIES : Nat := 64

def capsFrom (buf : List UInt8) (base : Nat) : Nat → List UInt32
  | 0 => []
  | count + 1 => UInt32.ofNat (ofLe (slice buf base (base + 4))) :: capsFrom buf (base + 4) count

/-- The end of the capabilities fits an address of 64 bits. -/
def readCaps (buf : List UInt8) (offset count : Nat) : Except ProtoError (List UInt32) :=
  if offset + 4 * count > buf.length then .error (.badCapsOffset (offset % 2 ^ 32) buf.length)
  else .ok (capsFrom buf offset count)

def writeCaps (caps : List UInt32) : List UInt8 := caps.flatMap fun cap => toLe 4 cap.toNat

/-! ### Messages -/

def LINK_HEADER_SIZE : Nat := 16
def LINK_MESS_FIXED_SIZE : Nat := 18
def LINK_REPLY_FIXED_SIZE : Nat := 4 + SPICE_TICKET_PUBKEY_BYTES + 4 + 4 + 4
def LINK_RESULT_SIZE : Nat := 4
def ENCRYPTED_TICKET_SIZE : Nat := 128

structure LinkHeader where
  magic : Nat
  majorVersion : Nat
  minorVersion : Nat
  size : Nat
  deriving DecidableEq, Repr

def LinkHeader.new (size : Nat) : LinkHeader where
  magic := SPICE_MAGIC
  majorVersion := SPICE_VERSION_MAJOR
  minorVersion := SPICE_VERSION_MINOR
  size := size

def LinkHeader.decode (buf : List UInt8) : Except ProtoError LinkHeader :=
  if buf.length < LINK_HEADER_SIZE then .error (.short LINK_HEADER_SIZE buf.length)
  else
    let magic := ofLe (slice buf 0 4)
    if magic ≠ SPICE_MAGIC then .error (.badMagic SPICE_MAGIC magic)
    else
      let majorVersion := ofLe (slice buf 4 8)
      let minorVersion := ofLe (slice buf 8 12)
      if majorVersion ≠ SPICE_VERSION_MAJOR then .error (.badVersion majorVersion minorVersion)
      else
        .ok
          { magic := magic
            majorVersion := majorVersion
            minorVersion := minorVersion
            size := ofLe (slice buf 12 16) }

def LinkHeader.encode (header : LinkHeader) : List UInt8 :=
  toLe 4 header.magic ++ (toLe 4 header.majorVersion ++
    (toLe 4 header.minorVersion ++ toLe 4 header.size))

structure LinkMess where
  connectionId : UInt32
  channelType : ChannelType
  channelId : UInt8
  commonCaps : List UInt32
  channelCaps : List UInt32
  deriving DecidableEq, Repr

def LinkMess.encodedLen (mess : LinkMess) : Nat :=
  LINK_MESS_FIXED_SIZE + 4 * (mess.commonCaps.length + mess.channelCaps.length)

def LinkMess.decode (buf : List UInt8) : Except ProtoError LinkMess :=
  if buf.length < LINK_MESS_FIXED_SIZE then .error (.short LINK_MESS_FIXED_SIZE buf.length)
  else do
    let channelType ← ChannelType.fromU8 (ofLe (slice buf 4 5))
    let numCommonCaps ←
      (boundedCount (ofLe (slice buf 6 10)) MAX_CAPS_ENTRIES).decode buf
    let numChannelCaps ←
      (boundedCount (ofLe (slice buf 10 14)) MAX_CAPS_ENTRIES).decode buf
    let capsOffset := ofLe (slice buf 14 18)
    let commonCaps ← readCaps buf capsOffset numCommonCaps
    let channelCaps ← readCaps buf (capsOffset + 4 * numCommonCaps) numChannelCaps
    .ok
      { connectionId := UInt32.ofNat (ofLe (slice buf 0 4))
        channelType := channelType
        channelId := UInt8.ofNat (ofLe (slice buf 5 6))
        commonCaps := commonCaps
        channelCaps := channelCaps }

def LinkMess.encode (mess : LinkMess) : List UInt8 :=
  toLe 4 mess.connectionId.toNat ++ (toLe 1 mess.channelType.toU8 ++
    (toLe 1 mess.channelId.toNat ++ (toLe 4 mess.commonCaps.length ++
      (toLe 4 mess.channelCaps.length ++ (toLe 4 LINK_MESS_FIXED_SIZE ++
        (writeCaps mess.commonCaps ++ writeCaps mess.channelCaps))))))

structure LinkReply where
  error : LinkError
  pubKey : List UInt8
  commonCaps : List UInt32
  channelCaps : List UInt32
  deriving DecidableEq, Repr

def LinkReply.encodedLen (reply : LinkReply) : Nat :=
  LINK_REPLY_FIXED_SIZE + 4 * (reply.commonCaps.length + reply.channelCaps.length)

def LinkReply.decode (buf : List UInt8) : Except ProtoError LinkReply :=
  if buf.length < LINK_REPLY_FIXED_SIZE then .error (.short LINK_REPLY_FIXED_SIZE buf.length)
  else do
    let code ← LinkError.fromU32 (ofLe (slice buf 0 4))
    let pkEnd := 4 + SPICE_TICKET_PUBKEY_BYTES
    let pubKey := slice buf 4 pkEnd
    let numCommonCaps ←
      (boundedCount (ofLe (slice buf pkEnd (pkEnd + 4))) MAX_CAPS_ENTRIES).decode buf
    let numChannelCaps ←
      (boundedCount (ofLe (slice buf (pkEnd + 4) (pkEnd + 8))) MAX_CAPS_ENTRIES).decode buf
    let capsOffset := ofLe (slice buf (pkEnd + 8) (pkEnd + 12))
    let commonCaps ← readCaps buf capsOffset numCommonCaps
    let channelCaps ← readCaps buf (capsOffset + 4 * numCommonCaps) numChannelCaps
    .ok
      { error := code
        pubKey := pubKey
        commonCaps := commonCaps
        channelCaps := channelCaps }

def LinkReply.encode (reply : LinkReply) : List UInt8 :=
  toLe 4 reply.error.toU32 ++ (reply.pubKey ++ (toLe 4 reply.commonCaps.length ++
    (toLe 4 reply.channelCaps.length ++ (toLe 4 LINK_REPLY_FIXED_SIZE ++
      (writeCaps reply.commonCaps ++ writeCaps reply.channelCaps)))))

def LinkResult.decode (buf : List UInt8) : Except ProtoError LinkError :=
  if buf.length < LINK_RESULT_SIZE then .error (.short LINK_RESULT_SIZE buf.length)
  else LinkError.fromU32 (ofLe (slice buf 0 4))

def LinkResult.encode (result : LinkError) : List UInt8 := toLe 4 result.toU32

/-! ### Round trips -/

theorem LinkHeader.length_encode (header : LinkHeader) :
    header.encode.length = LINK_HEADER_SIZE := by
  simp [LinkHeader.encode, LINK_HEADER_SIZE]

theorem LinkHeader.decode_encode {size : Nat} (fits : size < 256 ^ 4) :
    LinkHeader.decode (LinkHeader.new size).encode = .ok (LinkHeader.new size) := by
  have long : ¬ (LinkHeader.new size).encode.length < LINK_HEADER_SIZE := by
    rw [LinkHeader.length_encode]
    exact Nat.lt_irrefl _
  have magicAt : slice (LinkHeader.new size).encode 0 4 = toLe 4 SPICE_MAGIC :=
    Bytes.slice_toLe 4 SPICE_MAGIC _
  have majorAt : slice (LinkHeader.new size).encode 4 8 = toLe 4 SPICE_VERSION_MAJOR := by
    simp [LinkHeader.encode, LinkHeader.new]
  have minorAt : slice (LinkHeader.new size).encode 8 12 = toLe 4 SPICE_VERSION_MINOR := by
    simp [LinkHeader.encode, LinkHeader.new]
  have sizeAt : slice (LinkHeader.new size).encode 12 16 = toLe 4 size := by
    simp [LinkHeader.encode, LinkHeader.new]
  rw [LinkHeader.decode, if_neg long, magicAt, majorAt, minorAt, sizeAt, Bytes.ofLe_toLe fits]
  rfl

theorem length_writeCaps (caps : List UInt32) : (writeCaps caps).length = 4 * caps.length := by
  induction caps with
  | nil => rfl
  | cons cap rest ih =>
      rw [writeCaps, List.flatMap_cons, List.length_append, Bytes.length_toLe, List.length_cons]
      rw [writeCaps] at ih
      omega

theorem capsFrom_writeCaps {before behind : List UInt8} {caps : List UInt32} :
    capsFrom (before ++ (writeCaps caps ++ behind)) before.length caps.length = caps := by
  induction caps generalizing before with
  | nil => rfl
  | cons cap rest ih =>
      have word : slice (before ++ (writeCaps (cap :: rest) ++ behind)) before.length
          (before.length + 4) = toLe 4 cap.toNat := by
        rw [Bytes.slice_skip (Nat.le_refl _), Nat.sub_self, Nat.add_sub_cancel_left, writeCaps,
          List.flatMap_cons, List.append_assoc]
        exact Bytes.slice_toLe 4 cap.toNat _
      have shifted : before ++ (writeCaps (cap :: rest) ++ behind) =
          (before ++ toLe 4 cap.toNat) ++ (writeCaps rest ++ behind) := by
        simp [writeCaps]
      have later := @ih (before ++ toLe 4 cap.toNat)
      rw [List.length_append, Bytes.length_toLe, ← shifted] at later
      rw [List.length_cons, capsFrom, word, later, Bytes.ofLe_word]
      simp

theorem readCaps_writeCaps {buf before behind : List UInt8} {caps : List UInt32} {offset : Nat}
    (starts : before.length = offset) (whole : buf = before ++ (writeCaps caps ++ behind)) :
    readCaps buf offset caps.length = .ok caps := by
  subst starts whole
  have inside : ¬ before.length + 4 * caps.length >
      (before ++ (writeCaps caps ++ behind)).length := by
    rw [List.length_append, List.length_append, length_writeCaps]
    omega
  rw [readCaps, if_neg inside, capsFrom_writeCaps]

theorem readCaps_both {buf front : List UInt8} {common channel : List UInt32} {offset : Nat}
    (starts : front.length = offset) (whole : buf = front ++ (writeCaps common ++ writeCaps channel)) :
    readCaps buf offset common.length = .ok common ∧
      readCaps buf (offset + 4 * common.length) channel.length = .ok channel := by
  constructor
  · exact readCaps_writeCaps starts whole
  · have starts' : (front ++ writeCaps common).length = offset + 4 * common.length := by
      rw [List.length_append, starts, length_writeCaps]
    have whole' : buf = (front ++ writeCaps common) ++ (writeCaps channel ++ []) := by
      rw [whole, List.append_nil, List.append_assoc]
    exact readCaps_writeCaps starts' whole'

theorem boundedCount_ok {claimed limit : Nat} (buf : List UInt8) (small : claimed ≤ limit) :
    (boundedCount claimed limit).decode buf = .ok claimed := by
  exact Reader.decode_ok (boundedSize_ok small)

theorem LinkMess.length_encode (mess : LinkMess) : mess.encode.length = mess.encodedLen := by
  simp only [LinkMess.encode, LinkMess.encodedLen, List.length_append, Bytes.length_toLe,
    length_writeCaps, LINK_MESS_FIXED_SIZE]
  omega

theorem LinkMess.decode_encode {mess : LinkMess}
    (common : mess.commonCaps.length ≤ MAX_CAPS_ENTRIES)
    (channel : mess.channelCaps.length ≤ MAX_CAPS_ENTRIES) : decode mess.encode = .ok mess := by
  have long : ¬ mess.encode.length < LINK_MESS_FIXED_SIZE := by
    rw [LinkMess.length_encode, LinkMess.encodedLen]
    omega
  have idAt : slice mess.encode 0 4 = toLe 4 mess.connectionId.toNat := Bytes.slice_toLe 4 _ _
  have typeAt : slice mess.encode 4 5 = toLe 1 mess.channelType.toU8 := by
    simp [LinkMess.encode]
  have channelAt : slice mess.encode 5 6 = toLe 1 mess.channelId.toNat := by
    simp [LinkMess.encode]
  have commonAt : slice mess.encode 6 10 = toLe 4 mess.commonCaps.length := by
    simp [LinkMess.encode]
  have channelsAt : slice mess.encode 10 14 = toLe 4 mess.channelCaps.length := by
    simp [LinkMess.encode]
  have offsetAt : slice mess.encode 14 18 = toLe 4 LINK_MESS_FIXED_SIZE := by
    simp [LinkMess.encode]
  have fewCommon : mess.commonCaps.length < 256 ^ 4 := Nat.lt_of_le_of_lt common (by decide)
  have fewChannel : mess.channelCaps.length < 256 ^ 4 := Nat.lt_of_le_of_lt channel (by decide)
  have fixed : LINK_MESS_FIXED_SIZE < 256 ^ 4 := by decide
  let front := toLe 4 mess.connectionId.toNat ++ (toLe 1 mess.channelType.toU8 ++
    (toLe 1 mess.channelId.toNat ++ (toLe 4 mess.commonCaps.length ++
      (toLe 4 mess.channelCaps.length ++ toLe 4 LINK_MESS_FIXED_SIZE))))
  have starts : front.length = LINK_MESS_FIXED_SIZE := by simp [front, LINK_MESS_FIXED_SIZE]
  have whole : mess.encode = front ++ (writeCaps mess.commonCaps ++ writeCaps mess.channelCaps) := by
    simp [front, LinkMess.encode]
  obtain ⟨commonRead, channelRead⟩ := readCaps_both starts whole
  have id : UInt32.ofNat mess.connectionId.toNat = mess.connectionId := by simp
  have channelId : UInt8.ofNat mess.channelId.toNat = mess.channelId := by simp
  simp only [decode, if_neg long, idAt, typeAt, channelAt, commonAt, channelsAt, offsetAt,
    Bytes.ofLe_word, Bytes.ofLe_toLe mess.channelType.toU8_lt, Bytes.ofLe_byte,
    Bytes.ofLe_toLe fewCommon, Bytes.ofLe_toLe fewChannel, Bytes.ofLe_toLe fixed,
    ChannelType.fromU8_toU8, boundedCount_ok _ common, boundedCount_ok _ channel, bind, Except.bind,
    commonRead, channelRead, id, channelId]

theorem LinkReply.length_encode {reply : LinkReply}
    (key : reply.pubKey.length = SPICE_TICKET_PUBKEY_BYTES) :
    reply.encode.length = reply.encodedLen := by
  simp only [LinkReply.encode, LinkReply.encodedLen, List.length_append, Bytes.length_toLe,
    length_writeCaps, key, LINK_REPLY_FIXED_SIZE]
  omega

theorem LinkReply.decode_encode {reply : LinkReply}
    (key : reply.pubKey.length = SPICE_TICKET_PUBKEY_BYTES)
    (common : reply.commonCaps.length ≤ MAX_CAPS_ENTRIES)
    (channel : reply.channelCaps.length ≤ MAX_CAPS_ENTRIES) : decode reply.encode = .ok reply := by
  have size : reply.pubKey.length = 162 := key
  have long : ¬ reply.encode.length < LINK_REPLY_FIXED_SIZE := by
    rw [LinkReply.length_encode key, LinkReply.encodedLen]
    omega
  have codeAt : slice reply.encode 0 4 = toLe 4 reply.error.toU32 := Bytes.slice_toLe 4 _ _
  have keyAt : slice reply.encode 4 166 = reply.pubKey := by
    rw [LinkReply.encode, Bytes.slice_skip (by simp), slice]
    exact List.take_left' (by simp [size])
  have commonAt : slice reply.encode 166 170 = toLe 4 reply.commonCaps.length := by
    simp [LinkReply.encode, size]
  have channelsAt : slice reply.encode 170 174 = toLe 4 reply.channelCaps.length := by
    simp [LinkReply.encode, size]
  have offsetAt : slice reply.encode 174 178 = toLe 4 LINK_REPLY_FIXED_SIZE := by
    simp [LinkReply.encode, size]
  have fewCommon : reply.commonCaps.length < 256 ^ 4 := Nat.lt_of_le_of_lt common (by decide)
  have fewChannel : reply.channelCaps.length < 256 ^ 4 := Nat.lt_of_le_of_lt channel (by decide)
  have fixed : LINK_REPLY_FIXED_SIZE < 256 ^ 4 := by decide
  let front := toLe 4 reply.error.toU32 ++ (reply.pubKey ++ (toLe 4 reply.commonCaps.length ++
    (toLe 4 reply.channelCaps.length ++ toLe 4 LINK_REPLY_FIXED_SIZE)))
  have starts : front.length = LINK_REPLY_FIXED_SIZE := by
    simp [front, size, LINK_REPLY_FIXED_SIZE, SPICE_TICKET_PUBKEY_BYTES]
  have whole : reply.encode =
      front ++ (writeCaps reply.commonCaps ++ writeCaps reply.channelCaps) := by
    simp [front, LinkReply.encode]
  obtain ⟨commonRead, channelRead⟩ := readCaps_both starts whole
  simp only [decode, if_neg long, SPICE_TICKET_PUBKEY_BYTES, Nat.reduceAdd, codeAt, keyAt, commonAt,
    channelsAt, offsetAt, Bytes.ofLe_toLe reply.error.toU32_lt, Bytes.ofLe_toLe fewCommon,
    Bytes.ofLe_toLe fewChannel, Bytes.ofLe_toLe fixed, LinkError.fromU32_toU32,
    boundedCount_ok _ common, boundedCount_ok _ channel, bind, Except.bind, commonRead, channelRead]

theorem LinkResult.decode_encode (result : LinkError) :
    LinkResult.decode (LinkResult.encode result) = .ok result := by
  have long : ¬ (LinkResult.encode result).length < LINK_RESULT_SIZE := by
    simp [LinkResult.encode, LINK_RESULT_SIZE]
  rw [LinkResult.decode, if_neg long, LinkResult.encode, Bytes.slice_toLe_all,
    Bytes.ofLe_toLe result.toU32_lt,
    LinkError.fromU32_toU32]

end Capsaicin.Proto
