/-
Messages of a linked channel, with the headers that frame them.
-/

import Capsaicin.Proto.Link

namespace Capsaicin.Net

open Bytes (ofLe toLe slice)
open Proto (ProtoError LinkError)

inductive NetError where
  | io
  | proto (reason : ProtoError)
  | link (code : LinkError)
  | messageTooLarge (size max : Nat)
  | badServerKey
  | passwordTooLong (len : Nat)
  | rsaEncrypt (text : String)
  deriving DecidableEq, Repr

def DATA_HEADER_SIZE : Nat := 18
def MINI_DATA_HEADER_SIZE : Nat := 6
def DEFAULT_MAX_MESSAGE_SIZE : Nat := 32 * 1024 * 1024

/-- A message body with the header fields that were on the wire. -/
structure Message where
  msgType : Nat
  serial : Option Nat
  body : List UInt8
  deriving DecidableEq, Repr

def Message.mini (msgType : Nat) (body : List UInt8) : Message :=
  { msgType := msgType, serial := none, body := body }

/-! ### Headers -/

structure DataHeader where
  serial : Nat
  msgType : Nat
  size : Nat
  subList : Nat
  deriving DecidableEq, Repr

def DataHeader.decode (buf : List UInt8) : Except ProtoError DataHeader :=
  if buf.length < DATA_HEADER_SIZE then .error (.short DATA_HEADER_SIZE buf.length)
  else
    .ok
      { serial := ofLe (slice buf 0 8)
        msgType := ofLe (slice buf 8 10)
        size := ofLe (slice buf 10 14)
        subList := ofLe (slice buf 14 18) }

def DataHeader.encode (header : DataHeader) : List UInt8 :=
  toLe 8 header.serial ++ (toLe 2 header.msgType ++ (toLe 4 header.size ++ toLe 4 header.subList))

structure MiniDataHeader where
  msgType : Nat
  size : Nat
  deriving DecidableEq, Repr

def MiniDataHeader.decode (buf : List UInt8) : Except ProtoError MiniDataHeader :=
  if buf.length < MINI_DATA_HEADER_SIZE then .error (.short MINI_DATA_HEADER_SIZE buf.length)
  else .ok { msgType := ofLe (slice buf 0 2), size := ofLe (slice buf 2 6) }

def MiniDataHeader.encode (header : MiniDataHeader) : List UInt8 :=
  toLe 2 header.msgType ++ toLe 4 header.size

theorem DataHeader.length_encode (header : DataHeader) :
    header.encode.length = DATA_HEADER_SIZE := by
  simp only [DataHeader.encode, List.length_append, Bytes.length_toLe]
  rfl

theorem MiniDataHeader.length_encode (header : MiniDataHeader) :
    header.encode.length = MINI_DATA_HEADER_SIZE := by
  simp only [MiniDataHeader.encode, List.length_append, Bytes.length_toLe]
  rfl

theorem DataHeader.decode_encode {header : DataHeader} (serial : header.serial < 256 ^ 8)
    (msgType : header.msgType < 256 ^ 2) (size : header.size < 256 ^ 4)
    (subList : header.subList < 256 ^ 4) : decode header.encode = .ok header := by
  have serialAt : slice header.encode 0 8 = toLe 8 header.serial := Bytes.slice_toLe 8 _ _
  have msgTypeAt : slice header.encode 8 10 = toLe 2 header.msgType := by
    simp [DataHeader.encode]
  have sizeAt : slice header.encode 10 14 = toLe 4 header.size := by
    simp [DataHeader.encode]
  have subListAt : slice header.encode 14 18 = toLe 4 header.subList := by
    simp [DataHeader.encode]
  rw [DataHeader.decode, if_neg (Nat.not_lt.mpr (Nat.le_of_eq header.length_encode.symm)),
    serialAt, msgTypeAt, sizeAt, subListAt, Bytes.ofLe_toLe serial, Bytes.ofLe_toLe msgType,
    Bytes.ofLe_toLe size, Bytes.ofLe_toLe subList]

theorem MiniDataHeader.decode_encode {header : MiniDataHeader} (msgType : header.msgType < 256 ^ 2)
    (size : header.size < 256 ^ 4) : decode header.encode = .ok header := by
  have msgTypeAt : slice header.encode 0 2 = toLe 2 header.msgType := Bytes.slice_toLe 2 _ _
  have sizeAt : slice header.encode 2 6 = toLe 4 header.size := by
    simp [MiniDataHeader.encode]
  rw [MiniDataHeader.decode, if_neg (Nat.not_lt.mpr (Nat.le_of_eq header.length_encode.symm)),
    msgTypeAt, sizeAt, Bytes.ofLe_toLe msgType, Bytes.ofLe_toLe size]

end Capsaicin.Net
