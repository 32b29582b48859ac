/-
Reading messages from a channel. A read in flight holds the bytes that it has taken
from the stream, in a buffer of its own that goes away with it.
-/

import Capsaicin.Library.Framing
import Capsaicin.Net.Message

namespace Capsaicin.Net

open Framing (Fed FrameReader)
open Proto (ProtoError)

/-! ### Headers of either kind -/

inductive Header where
  | mini (header : MiniDataHeader)
  | full (header : DataHeader)
  deriving DecidableEq, Repr

def headerSize (mini : Bool) : Nat := if mini then MINI_DATA_HEADER_SIZE else DATA_HEADER_SIZE

def Header.decode (mini : Bool) (hdr : List UInt8) : Except ProtoError Header :=
  if mini then (MiniDataHeader.decode hdr).map .mini else (DataHeader.decode hdr).map .full

def Header.encode : Header → List UInt8
  | .mini header => header.encode
  | .full header => header.encode

def Header.size : Header → Nat
  | .mini header => header.size
  | .full header => header.size

def Header.message (header : Header) (body : List UInt8) : Message :=
  match header with
  | .mini header => { msgType := header.msgType, serial := none, body := body }
  | .full header => { msgType := header.msgType, serial := some header.serial, body := body }

/-! ### The read in flight -/

/-- Where a read stands: in the header, or behind it in the body. -/
inductive Reading where
  | header (hdr : List UInt8)
  | body (header : Header) (got : List UInt8)
  deriving DecidableEq, Repr

def Reading.start : Reading := .header []

/-- The start of the body, where an empty one is read at once. -/
def readBody (maxMessageSize : Nat) (header : Header) : Fed Reading Message :=
  if header.size > maxMessageSize then .failed
  else if header.size = 0 then .done (header.message [])
  else .more (.body header [])

/-- One byte for `read_message`, whose two reads wait until they are complete. -/
def readMessage (mini : Bool) (maxMessageSize : Nat) (reading : Reading) (byte : UInt8) :
    Fed Reading Message :=
  match reading with
  | .header hdr =>
      if (hdr ++ [byte]).length < headerSize mini then .more (.header (hdr ++ [byte]))
      else
        match Header.decode mini (hdr ++ [byte]) with
        | .ok header => readBody maxMessageSize header
        | .error _ => .failed
  | .body header got =>
      if (got ++ [byte]).length < header.size then .more (.body header (got ++ [byte]))
      else .done (header.message (got ++ [byte]))

def Reading.taken (mini : Bool) : Reading → Nat
  | .header hdr => hdr.length
  | .body _ got => headerSize mini + got.length

theorem headerSize_pos (mini : Bool) : 0 < headerSize mini := by
  cases mini with
  | false => decide
  | true => decide

theorem Header.body_message (header : Header) (body : List UInt8) :
    (header.message body).body = body := by
  cases header with
  | mini header => rfl
  | full header => rfl

theorem Reading.taken_zero {mini : Bool} {reading : Reading} :
    reading.taken mini = 0 ↔ reading = .start := by
  cases reading with
  | header hdr =>
      rw [Reading.taken, Reading.start, List.length_eq_zero_iff]
      exact ⟨congrArg Reading.header, fun same => Reading.header.inj same⟩
  | body header got =>
      have some := headerSize_pos mini
      constructor
      · intro none
        rw [Reading.taken] at none
        omega
      · intro impossible
        cases impossible

section Fed

variable {mini : Bool} {maxMessageSize : Nat} {header : Header} {reading next : Reading}
  {byte : UInt8} {message : Message}

theorem readBody_more (fed : readBody maxMessageSize header = .more next) :
    next = .body header [] := by
  unfold readBody at fed
  split at fed
  · cases fed
  · split at fed
    · cases fed
    · cases fed
      rfl

theorem readBody_done (fed : readBody maxMessageSize header = .done message) :
    message.body = [] := by
  unfold readBody at fed
  split at fed
  · cases fed
  · split at fed
    · cases fed
      exact header.body_message []
    · cases fed

theorem readMessage_header {hdr : List UInt8} {result : Fed Reading Message}
    (fed : readMessage mini maxMessageSize (.header hdr) byte = result) :
    result = .more (.header (hdr ++ [byte])) ∨
      headerSize mini ≤ hdr.length + 1 ∧
        (result = .failed ∨ ∃ header, readBody maxMessageSize header = result) := by
  rw [readMessage] at fed
  split at fed
  · exact Or.inl fed.symm
  · rename_i whole
    rw [List.length_append, List.length_singleton, Nat.not_lt] at whole
    refine Or.inr ⟨whole, ?_⟩
    split at fed
    · exact Or.inr ⟨_, fed⟩
    · exact Or.inl fed.symm

theorem readMessage_more (fed : readMessage mini maxMessageSize reading byte = .more next) :
    next.taken mini ≤ reading.taken mini + 1 := by
  cases reading with
  | header hdr =>
      rcases readMessage_header fed with again | ⟨whole, refused | ⟨header, read⟩⟩
      · cases again
        simp [Reading.taken]
      · cases refused
      · rw [readBody_more read]
        simp only [Reading.taken, List.length_nil]
        omega
  | body header got =>
      rw [readMessage] at fed
      split at fed
      · cases fed
        simp [Reading.taken, Nat.add_assoc]
      · cases fed

theorem readMessage_done (fed : readMessage mini maxMessageSize reading byte = .done message) :
    headerSize mini + message.body.length ≤ reading.taken mini + 1 := by
  cases reading with
  | header hdr =>
      rcases readMessage_header fed with again | ⟨whole, refused | ⟨header, read⟩⟩
      · cases again
      · cases refused
      · rw [readBody_done read]
        simp only [Reading.taken, List.length_nil]
        omega
  | body header got =>
      rw [readMessage] at fed
      split at fed
      · cases fed
      · cases fed
        rw [Header.body_message]
        simp [Reading.taken, Nat.add_assoc]

end Fed

def channelReader (mini : Bool) (maxMessageSize : Nat) : FrameReader UInt8 Reading Message where
  start := .start
  feed := readMessage mini maxMessageSize
  taken := Reading.taken mini
  weight := fun message => headerSize mini + message.body.length
  taken_zero := Reading.taken_zero
  taken_more := readMessage_more
  weight_done := readMessage_done

/-- The body of a read in flight is within the limit, and not complete. -/
def Reading.Fits (maxMessageSize : Nat) : Reading → Prop
  | .header _ => True
  | .body announced got => announced.size ≤ maxMessageSize ∧ got.length < announced.size

theorem channelReader_admits (mini : Bool) (maxMessageSize : Nat) :
    (channelReader mini maxMessageSize).Admits (Reading.Fits maxMessageSize)
      fun message => message.body.length ≤ maxMessageSize where
  start := True.intro
  more := by
    intro reading byte next fits fed
    change readMessage mini maxMessageSize reading byte = .more next at fed
    cases reading with
    | header hdr =>
        rcases readMessage_header fed with again | ⟨_whole, refused | ⟨header, read⟩⟩
        · cases again
          exact True.intro
        · cases refused
        · unfold readBody at read
          split at read
          · cases read
          · split at read
            · cases read
            · cases read
              exact ⟨by omega, by rw [List.length_nil]; omega⟩
    | body header got =>
        rw [readMessage] at fed
        split at fed
        · rename_i short
          cases fed
          exact ⟨fits.1, short⟩
        · cases fed
  done := by
    intro reading byte message fits fed
    change readMessage mini maxMessageSize reading byte = .done message at fed
    cases reading with
    | header hdr =>
        rcases readMessage_header fed with again | ⟨_whole, refused | ⟨header, read⟩⟩
        · cases again
        · cases refused
        · rw [readBody_done read]
          exact Nat.zero_le _
    | body header got =>
        rw [readMessage] at fed
        split at fed
        · cases fed
        · rename_i whole
          cases fed
          rcases fits with ⟨limited, short⟩
          rw [List.length_append, List.length_singleton] at whole
          rw [Header.body_message, List.length_append, List.length_singleton]
          omega

/-! ### Frames -/

/-- What a peer puts on the wire as one message, for a reader that takes bodies up to
some size. The list of sub-messages is only part of a full header. -/
structure Frame (maxMessageSize : Nat) where
  serial : Nat
  msgType : Nat
  subList : Nat
  body : List UInt8
  serial_lt : serial < 256 ^ 8
  msgType_lt : msgType < 256 ^ 2
  subList_lt : subList < 256 ^ 4
  body_lt : body.length < 256 ^ 4
  body_le : body.length ≤ maxMessageSize

variable {maxMessageSize : Nat}

def Frame.header (frame : Frame maxMessageSize) (mini : Bool) : Header :=
  if mini then .mini { msgType := frame.msgType, size := frame.body.length }
  else
    .full
      { serial := frame.serial
        msgType := frame.msgType
        size := frame.body.length
        subList := frame.subList }

def Frame.encode (mini : Bool) (frame : Frame maxMessageSize) : List UInt8 :=
  (frame.header mini).encode ++ frame.body

def Frame.message (mini : Bool) (frame : Frame maxMessageSize) : Message :=
  { msgType := frame.msgType
    serial := if mini then none else some frame.serial
    body := frame.body }

theorem Frame.message_header (frame : Frame maxMessageSize) (mini : Bool) :
    (frame.header mini).message frame.body = frame.message mini := by
  cases mini with
  | false => rfl
  | true => rfl

theorem Frame.size_header (frame : Frame maxMessageSize) (mini : Bool) :
    (frame.header mini).size = frame.body.length := by
  cases mini with
  | false => rfl
  | true => rfl

theorem Frame.length_header (frame : Frame maxMessageSize) (mini : Bool) :
    (frame.header mini).encode.length = headerSize mini := by
  cases mini with
  | false => exact DataHeader.length_encode _
  | true => exact MiniDataHeader.length_encode _

theorem Frame.decode_header (frame : Frame maxMessageSize) (mini : Bool) :
    Header.decode mini (frame.header mini).encode = .ok (frame.header mini) := by
  cases mini with
  | false =>
      have decoded := @DataHeader.decode_encode
        ⟨frame.serial, frame.msgType, frame.body.length, frame.subList⟩
        frame.serial_lt frame.msgType_lt frame.body_lt frame.subList_lt
      exact congrArg (Except.map Header.full) decoded
  | true =>
      have decoded := @MiniDataHeader.decode_encode ⟨frame.msgType, frame.body.length⟩
        frame.msgType_lt frame.body_lt
      exact congrArg (Except.map Header.mini) decoded

section Spells

variable {mini : Bool}

theorem body_spells {header : Header} {got body : List UInt8} (some : body ≠ [])
    (size : got.length + body.length = header.size) :
    (channelReader mini maxMessageSize).Spells (.body header got) body
      (header.message (got ++ body)) := by
  induction body generalizing got with
  | nil => exact absurd rfl some
  | cons byte body ih =>
      have whole : (got ++ [byte]).length + body.length = header.size := by
        simp only [List.length_append, List.length_cons, List.length_nil] at size ⊢
        omega
      cases body with
      | nil => exact .done (if_neg (Nat.not_lt.mpr (Nat.le_of_eq whole.symm)))
      | cons second body =>
          have short : (got ++ [byte]).length < header.size := by
            rw [List.length_cons] at whole
            omega
          rw [List.append_cons got byte]
          exact .more (if_pos short) (ih (List.cons_ne_nil _ _) whole)

theorem header_spells {header : Header} {hdr bytes body : List UInt8} (some : bytes ≠ [])
    (size : hdr.length + bytes.length = headerSize mini)
    (decoded : Header.decode mini (hdr ++ bytes) = .ok header)
    (announced : header.size = body.length) (fits : body.length ≤ maxMessageSize) :
    (channelReader mini maxMessageSize).Spells (.header hdr) (bytes ++ body)
      (header.message body) := by
  induction bytes generalizing hdr with
  | nil => exact absurd rfl some
  | cons byte bytes ih =>
      have whole : (hdr ++ [byte]).length + bytes.length = headerSize mini := by
        simp only [List.length_append, List.length_cons, List.length_nil] at size ⊢
        omega
      rw [List.append_cons hdr byte] at decoded
      cases bytes with
      | cons second bytes =>
          have short : (hdr ++ [byte]).length < headerSize mini := by
            rw [List.length_cons] at whole
            omega
          exact .more (if_pos short) (ih (List.cons_ne_nil _ _) whole decoded)
      | nil =>
          rw [List.append_nil] at decoded
          have full : ¬ (hdr ++ [byte]).length < headerSize mini :=
            Nat.not_lt.mpr (Nat.le_of_eq whole.symm)
          have fed : (channelReader mini maxMessageSize).feed (.header hdr) byte =
              readBody maxMessageSize header := by
            change readMessage mini maxMessageSize (.header hdr) byte = _
            rw [readMessage, if_neg full, decoded]
          rw [readBody, announced, if_neg (Nat.not_lt.mpr fits)] at fed
          cases body with
          | nil => exact .done fed
          | cons first body =>
              refine .more fed (body_spells (List.cons_ne_nil first body) ?_)
              rw [announced, List.length_nil, Nat.zero_add]
              rfl

theorem frame_spells {limit : Nat} (mini : Bool) {frame : Frame maxMessageSize}
    (small : frame.body.length ≤ limit) :
    (channelReader mini limit).Spells .start (frame.encode mini) (frame.message mini) := by
  have size := frame.length_header mini
  have some : (frame.header mini).encode ≠ [] := by
    intro empty
    rw [empty] at size
    exact absurd size (Nat.ne_of_lt (headerSize_pos mini))
  rw [Frame.encode, ← frame.message_header mini]
  exact header_spells some (Nat.zero_add _ ▸ size) (frame.decode_header mini)
    (frame.size_header mini) small

theorem frames_reads {limit : Nat} (mini : Bool) {frames : List (Frame maxMessageSize)}
    (small : ∀ frame ∈ frames, frame.body.length ≤ limit) :
    (channelReader mini limit).Reads .start (frames.flatMap (Frame.encode mini))
      (frames.map (Frame.message mini)) := by
  induction frames with
  | nil => exact .nil
  | cons frame rest ih =>
      rw [List.flatMap_cons, List.map_cons]
      exact FrameReader.spells_reads (frame_spells mini (small frame List.mem_cons_self))
        (ih fun other member => small other (List.mem_cons_of_mem frame member))

end Spells

end Capsaicin.Net
