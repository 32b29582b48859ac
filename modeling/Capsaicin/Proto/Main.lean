/-
Bodies of the main channel.
-/

import Capsaicin.Proto.Common

namespace Capsaicin.Proto

open Codec (Exact)

structure Init where
  sessionId : Nat
  displayChannelsHint : Nat
  supportedMouseModes : Nat
  currentMouseMode : Nat
  agentConnected : Nat
  agentTokens : Nat
  multiMediaTime : Nat
  ramHint : Nat
  deriving DecidableEq, Repr

def Init.reader : Reader Init := do
  let sessionId ← Reader.u32
  let displayChannelsHint ← Reader.u32
  let supportedMouseModes ← Reader.u32
  let currentMouseMode ← Reader.u32
  let agentConnected ← Reader.u32
  let agentTokens ← Reader.u32
  let multiMediaTime ← Reader.u32
  let ramHint ← Reader.u32
  pure
    { sessionId := sessionId
      displayChannelsHint := displayChannelsHint
      supportedMouseModes := supportedMouseModes
      currentMouseMode := currentMouseMode
      agentConnected := agentConnected
      agentTokens := agentTokens
      multiMediaTime := multiMediaTime
      ramHint := ramHint }

def Init.decode (buf : List UInt8) : Except ProtoError Init := Init.reader.decode buf

def Init.encode (init : Init) : List UInt8 :=
  writeU32 init.sessionId ++ writeU32 init.displayChannelsHint ++
    writeU32 init.supportedMouseModes ++ writeU32 init.currentMouseMode ++
    writeU32 init.agentConnected ++ writeU32 init.agentTokens ++ writeU32 init.multiMediaTime ++
    writeU32 init.ramHint

def ChannelId.reader : Reader ChannelId := do
  let channelType ← Reader.u8
  let id ← Reader.u8
  pure { channelType := channelType, id := id }

structure ChannelsList where
  channels : List ChannelId
  deriving DecidableEq, Repr

def Reader.repeated {α : Type} (entry : Reader α) : Nat → Reader (List α)
  | 0 => pure []
  | count + 1 => do
      let first ← entry
      let rest ← Reader.repeated entry count
      pure (first :: rest)

def ChannelsList.reader : Reader ChannelsList := do
  let claimed ← Reader.u32
  let n ← boundedCount claimed MAX_CHANNELS_LIST
  let channels ← Reader.repeated ChannelId.reader n
  pure { channels := channels }

def ChannelsList.decode (buf : List UInt8) : Except ProtoError ChannelsList :=
  ChannelsList.reader.decode buf

def ChannelsList.encode (list : ChannelsList) : List UInt8 :=
  writeU32 list.channels.length ++
    list.channels.flatMap fun entry => writeU8 entry.channelType ++ writeU8 entry.id

structure ClientInfo where
  cacheSize : Nat
  deriving DecidableEq, Repr

def ClientInfo.reader : Reader ClientInfo := do
  let cacheSize ← Reader.u64
  pure { cacheSize := cacheSize }

def ClientInfo.decode (buf : List UInt8) : Except ProtoError ClientInfo :=
  ClientInfo.reader.decode buf

def ClientInfo.encode (info : ClientInfo) : List UInt8 := writeU64 info.cacheSize

structure MouseModeBody where
  supportedModes : Nat
  currentMode : Nat
  deriving DecidableEq, Repr

def MouseModeBody.reader : Reader MouseModeBody := do
  let supportedModes ← Reader.u32
  let currentMode ← Reader.u32
  pure { supportedModes := supportedModes, currentMode := currentMode }

def MouseModeBody.decode (buf : List UInt8) : Except ProtoError MouseModeBody :=
  MouseModeBody.reader.decode buf

def MouseModeBody.encode (body : MouseModeBody) : List UInt8 :=
  writeU32 body.supportedModes ++ writeU32 body.currentMode

structure MouseModeRequest where
  mode : Nat
  deriving DecidableEq, Repr

def MouseModeRequest.reader : Reader MouseModeRequest := do
  let mode ← Reader.u32
  pure { mode := mode }

def MouseModeRequest.decode (buf : List UInt8) : Except ProtoError MouseModeRequest :=
  MouseModeRequest.reader.decode buf

def MouseModeRequest.encode (request : MouseModeRequest) : List UInt8 := writeU32 request.mode

structure MultiMediaTime where
  time : Nat
  deriving DecidableEq, Repr

def MultiMediaTime.reader : Reader MultiMediaTime := do
  let time ← Reader.u32
  pure { time := time }

def MultiMediaTime.decode (buf : List UInt8) : Except ProtoError MultiMediaTime :=
  MultiMediaTime.reader.decode buf

def MultiMediaTime.encode (message : MultiMediaTime) : List UInt8 := writeU32 message.time

namespace MouseModes

def SERVER : Nat := 1
def CLIENT : Nat := 2

end MouseModes

/-! ### Round trips -/

structure Init.Fits (init : Init) : Prop where
  sessionId : init.sessionId < 256 ^ 4
  displayChannelsHint : init.displayChannelsHint < 256 ^ 4
  supportedMouseModes : init.supportedMouseModes < 256 ^ 4
  currentMouseMode : init.currentMouseMode < 256 ^ 4
  agentConnected : init.agentConnected < 256 ^ 4
  agentTokens : init.agentTokens < 256 ^ 4
  multiMediaTime : init.multiMediaTime < 256 ^ 4
  ramHint : init.ramHint < 256 ^ 4

theorem Init.exact {init : Init} (fits : init.Fits) : Exact Init.reader init.encode init := by
  unfold Init.reader Init.encode
  simp only [List.append_assoc]
  apply (Reader.u32_exact fits.sessionId).bind
  apply (Reader.u32_exact fits.displayChannelsHint).bind
  apply (Reader.u32_exact fits.supportedMouseModes).bind
  apply (Reader.u32_exact fits.currentMouseMode).bind
  apply (Reader.u32_exact fits.agentConnected).bind
  apply (Reader.u32_exact fits.agentTokens).bind
  apply (Reader.u32_exact fits.multiMediaTime).bind
  exact (Reader.u32_exact fits.ramHint).map _

theorem Init.decode_encode {init : Init} (fits : init.Fits) : Init.decode init.encode = .ok init :=
  Reader.decode_exact (Init.exact fits)

theorem Reader.repeated_exact {α : Type} {entry : Reader α} {encode : α → List UInt8}
    {items : List α} (each : ∀ item ∈ items, Exact entry (encode item) item) :
    Exact (Reader.repeated entry items.length) (items.flatMap encode) items := by
  induction items with
  | nil => exact Exact.pure []
  | cons item rest ih =>
      have later := ih fun other member => each other (List.mem_cons_of_mem item member)
      rw [List.length_cons, Reader.repeated, List.flatMap_cons]
      apply (each item List.mem_cons_self).bind
      exact later.map _

structure ChannelId.Fits (entry : ChannelId) : Prop where
  channelType : entry.channelType < 256 ^ 1
  id : entry.id < 256 ^ 1

structure ChannelsList.Fits (list : ChannelsList) : Prop where
  count : list.channels.length ≤ MAX_CHANNELS_LIST
  channels : ∀ entry ∈ list.channels, entry.Fits

theorem ChannelId.exact {entry : ChannelId} (fits : entry.Fits) :
    Exact ChannelId.reader (writeU8 entry.channelType ++ writeU8 entry.id) entry :=
  (Reader.u8_exact fits.channelType).bind ((Reader.u8_exact fits.id).map _)

theorem ChannelsList.exact {list : ChannelsList} (fits : list.Fits) :
    Exact ChannelsList.reader list.encode list := by
  have count : list.channels.length < 256 ^ 4 := Nat.lt_of_le_of_lt fits.count (by decide)
  unfold ChannelsList.reader ChannelsList.encode
  apply (Reader.u32_exact count).bind
  apply (boundedSize_exact fits.count).skip
  exact (Reader.repeated_exact fun entry member => ChannelId.exact (fits.channels entry member)).map _

theorem ChannelsList.decode_encode {list : ChannelsList}
    (few : list.channels.length ≤ MAX_CHANNELS_LIST) (fits : ∀ entry ∈ list.channels, entry.Fits) :
    ChannelsList.decode list.encode = .ok list :=
  Reader.decode_exact (ChannelsList.exact ⟨few, fits⟩)

/-! ### Bodies of two fields -/

theorem MouseModeBody.decode_ok {buf : List UInt8} (enough : 8 ≤ buf.length) :
    ∃ mode, MouseModeBody.decode buf = .ok mode :=
  ⟨_, Reader.words_ok (fun supported current => MouseModeBody.mk supported current) enough⟩

theorem MouseModeBody.decode_short {buf : List UInt8} (short : buf.length < 8) :
    ∃ reason, MouseModeBody.decode buf = .error reason :=
  Reader.words_error (fun supported current => MouseModeBody.mk supported current) short

end Capsaicin.Proto
