/-
How a client connects: the main channel, and then each sub-channel that it wants.
-/

import Capsaicin.Client.Bootstrap
import Capsaicin.Library.Phases
import Capsaicin.Net.Link

namespace Capsaicin

namespace Proto

/-! ### Sets of capabilities -/

def CapSet.new : CapSet where
  words := []

def CapSet.set (caps : CapSet) (cap : Nat) : CapSet where
  words := (caps.words ++ List.replicate (cap / 32 + 1 - caps.words.length) 0).modify (cap / 32)
    fun word => word ||| UInt32.ofNat (1 <<< (cap % 32))

def CapSet.withCaps (caps : List Nat) : CapSet := caps.foldl CapSet.set CapSet.new

/-- What a client of the display channel says first. The clock gives the salt. -/
def DisplayMsgc.INIT : Nat := 101

end Proto

namespace Net

open Proto

def LinkOptions.new (channelType : ChannelType) : LinkOptions where
  connectionId := 0
  channelType := channelType
  channelId := 0
  password := []
  commonCaps := CapSet.withCaps [Caps.AUTH_SPICE, Caps.MINI_HEADER]
  channelCaps := CapSet.new

def ServerLinkOptions.new {PrivateKey : Type} (privKey : PrivateKey) (expectedPassword : List UInt8) :
    ServerLinkOptions PrivateKey where
  privKey := privKey
  expectedPassword := expectedPassword
  serverCommonCaps := CapSet.withCaps [Caps.AUTH_SPICE, Caps.MINI_HEADER]
  serverChannelCaps := CapSet.new

end Net

namespace Client

open Duplex (Act Embeds Script Stage Trail)
open Net (Channel LinkOptions NetError Rsa linkClient)
open Proto

variable {PrivateKey PublicKey Coins : Type} (rsa : Rsa PrivateKey PublicKey Coins) (coins : Coins)

/-! ### The main channel -/

inductive Connecting where
  | linking (script : Script UInt8 NetError Channel)
  | booting (channel : Channel) (stage : BootstrapStage)

def connectAct : Connecting → Act UInt8 Connecting (Except NetError MainConnection)
  | .linking script =>
      match script.act with
      | .read next => .read fun byte => .linking (next byte)
      | .write items next => .write items (.linking next)
      | .done (.ok channel) => .write [] (.booting channel (bootstrapStart channel))
      | .done (.error reason) => .done (.error reason)
  | .booting channel stage =>
      match bootstrapAct channel stage with
      | .read next => .read fun byte => .booting channel (next byte)
      | .write items next => .write items (.booting channel next)
      | .done result => .done result

def mainOptions (password : List UInt8) : LinkOptions :=
  { LinkOptions.new .main with password := password }

def connectMain (password : List UInt8) : Connecting :=
  .linking (linkClient rsa coins (mainOptions password))

/-! ### The sub-channels -/

def subOptions (sessionId : UInt32) (channelType : ChannelType) (password : List UInt8) :
    LinkOptions :=
  { LinkOptions.new channelType with
    connectionId := sessionId
    password := password }

def displayInit (salt : UInt8) : DisplayInit where
  pixmapCacheId := salt.toNat
  pixmapCacheSize := 128 * 1024 * 1024
  glzDictionaryId := salt.toNat
  glzDictionaryWindowSize := 16 * 1024 * 1024

def sendInit (salt : UInt8) (channel : Channel) : Script UInt8 NetError Channel :=
  let wrote := channel.writeMessage DisplayMsgc.INIT (displayInit salt).encode
  match wrote.result with
  | .error reason => .lift (.error reason)
  | .ok () => do
      Script.send wrote.bytes
      pure wrote.channel

def openChannel (salt : UInt8) (sessionId : UInt32) (password : List UInt8)
    (channelType : ChannelType) : Script UInt8 NetError Channel :=
  match channelType with
  | .display => linkClient rsa coins (subOptions sessionId channelType password) >>= sendInit salt
  | _ => linkClient rsa coins (subOptions sessionId channelType password)

structure SpiceClientBuilder where
  attachDisplay : Bool
  attachInputs : Bool
  attachCursor : Bool

inductive ClientError where
  | net (reason : NetError)
  | proto (reason : ProtoError)
  | missingChannel (name : String)
  | closed
  deriving DecidableEq, Repr

def advertises (available : List ChannelId) (channelType : ChannelType) : Bool :=
  (available.map ChannelId.channelType).contains channelType.toU8

/-- The sub-channels that `connect_with` opens, in their order, once it knows the list. A
cursor channel is left out where there is none. -/
def SpiceClientBuilder.subChannels (cfg : SpiceClientBuilder) (available : List ChannelId) :
    Except ClientError (List ChannelType) :=
  if cfg.attachDisplay && !advertises available .display then .error (.missingChannel "display")
  else if cfg.attachInputs && !advertises available .inputs then .error (.missingChannel "inputs")
  else
    .ok ((if cfg.attachDisplay then [.display] else []) ++
      (if cfg.attachInputs then [.inputs] else []) ++
      if cfg.attachCursor && advertises available .cursor then [.cursor] else [])

/-! ### The phases of a connection -/

theorem connect_links : Embeds Script.act connectAct Connecting.linking where
  write := by
    intro script items next does
    simp only [connectAct, does]
  read := by
    intro script next does
    simp only [connectAct, does]

theorem connect_boots (channel : Channel) :
    Embeds (bootstrapAct channel) connectAct (Connecting.booting channel) where
  write := by
    intro stage items next does
    simp only [connectAct, does]
  read := by
    intro stage next does
    simp only [connectAct, does]

theorem connect_linked {channel : Channel} :
    connectAct (.linking (.done (.ok channel))) = .write [] (.booting channel (bootstrapStart channel)) :=
  rfl

theorem bind_embeds {α γ : Type} (after : α → Script UInt8 NetError γ) :
    Embeds Script.act Script.act fun script => script.bind after where
  write := by
    intro script items next does
    cases script with
    | write items' next' =>
        cases does
        rfl
    | read next' => cases does
    | done result => cases does
  read := by
    intro script next does
    cases script with
    | read next' =>
        cases does
        rfl
    | write items' next' => cases does
    | done result => cases does

end Client

end Capsaicin
