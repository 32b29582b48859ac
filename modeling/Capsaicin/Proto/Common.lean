/-
The messages that every channel knows, with the message types of the common and the
main channel.
-/

import Capsaicin.Proto.Types

namespace Capsaicin.Proto

/-! ### Message types -/

namespace Msg

def MIGRATE : Nat := 1
def MIGRATE_DATA : Nat := 2
def SET_ACK : Nat := 3
def PING : Nat := 4
def WAIT_FOR_CHANNELS : Nat := 5
def DISCONNECTING : Nat := 6
def NOTIFY : Nat := 7
def LIST : Nat := 8

end Msg

namespace Msgc

def ACK_SYNC : Nat := 1
def ACK : Nat := 2
def PONG : Nat := 3
def MIGRATE_FLUSH_MARK : Nat := 4
def MIGRATE_DATA : Nat := 5
def DISCONNECTING : Nat := 6

end Msgc

namespace MainMsg

def INIT : Nat := 103
def CHANNELS_LIST : Nat := 104
def MOUSE_MODE : Nat := 105
def MULTI_MEDIA_TIME : Nat := 106
def AGENT_CONNECTED : Nat := 107
def AGENT_DISCONNECTED : Nat := 108
def AGENT_DATA : Nat := 109
def AGENT_TOKEN : Nat := 110
def NAME : Nat := 113
def UUID : Nat := 114
def AGENT_CONNECTED_TOKENS : Nat := 115

end MainMsg

namespace MainMsgc

def CLIENT_INFO : Nat := 101
def ATTACH_CHANNELS : Nat := 104
def MOUSE_MODE_REQUEST : Nat := 105

end MainMsgc

/-! ### Bodies -/

structure SetAck where
  generation : Nat
  window : Nat
  deriving DecidableEq, Repr

def SetAck.reader : Reader SetAck := do
  let generation ← Reader.u32
  let window ← Reader.u32
  pure { generation := generation, window := window }

def SetAck.decode (buf : List UInt8) : Except ProtoError SetAck := SetAck.reader.decode buf

def SetAck.encode (ack : SetAck) : List UInt8 := writeU32 ack.generation ++ writeU32 ack.window

structure AckSync where
  generation : Nat
  deriving DecidableEq, Repr

def AckSync.reader : Reader AckSync := do
  let generation ← Reader.u32
  pure { generation := generation }

def AckSync.decode (buf : List UInt8) : Except ProtoError AckSync := AckSync.reader.decode buf

def AckSync.encode (sync : AckSync) : List UInt8 := writeU32 sync.generation

structure Ping where
  id : Nat
  timestamp : Nat
  data : List UInt8
  deriving DecidableEq, Repr

def Ping.reader : Reader Ping := do
  let id ← Reader.u32
  let timestamp ← Reader.u64
  let rem ← Reader.remaining
  let data ← Reader.bytes rem
  pure { id := id, timestamp := timestamp, data := data }

def Ping.decode (buf : List UInt8) : Except ProtoError Ping := Ping.reader.decode buf

def Ping.encode (ping : Ping) : List UInt8 :=
  writeU32 ping.id ++ writeU64 ping.timestamp ++ ping.data

structure Pong where
  id : Nat
  timestamp : Nat
  deriving DecidableEq, Repr

def Pong.fromPing (ping : Ping) : Pong := { id := ping.id, timestamp := ping.timestamp }

def Pong.reader : Reader Pong := do
  let id ← Reader.u32
  let timestamp ← Reader.u64
  pure { id := id, timestamp := timestamp }

def Pong.decode (buf : List UInt8) : Except ProtoError Pong := Pong.reader.decode buf

def Pong.encode (pong : Pong) : List UInt8 := writeU32 pong.id ++ writeU64 pong.timestamp

structure Disconnecting where
  timeStamp : Nat
  reason : Nat
  deriving DecidableEq, Repr

def Disconnecting.reader : Reader Disconnecting := do
  let timeStamp ← Reader.u64
  let reason ← Reader.u32
  pure { timeStamp := timeStamp, reason := reason }

def Disconnecting.decode (buf : List UInt8) : Except ProtoError Disconnecting :=
  Disconnecting.reader.decode buf

def Disconnecting.encode (message : Disconnecting) : List UInt8 :=
  writeU64 message.timeStamp ++ writeU32 message.reason

end Capsaicin.Proto
