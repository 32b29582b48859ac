/-
Writing messages to a channel, and what a reader makes of all the bytes.
-/

import Capsaicin.Net.Channel

namespace Capsaicin.Net

open Framing (FrameReader Wake Task Input selectLoop turns received events arrived)
open Reactive (Machine final)

/-! ### Writing -/

/-- What both directions of a channel share. The limit is an unsigned word of 32 bits. -/
structure Channel where
  miniHeader : Bool
  sendSerial : Nat
  maxMessageSize : Nat
  maxMessageSize_lt : maxMessageSize < 256 ^ 4

def Channel.new (miniHeader : Bool) : Channel where
  miniHeader := miniHeader
  sendSerial := 1
  maxMessageSize := DEFAULT_MAX_MESSAGE_SIZE
  maxMessageSize_lt := by decide

/-- The outcome of a write with the bytes that it put on the stream and the channel
behind it. -/
structure Written where
  result : Except NetError Unit
  bytes : List UInt8
  channel : Channel

def Channel.writeMessage (channel : Channel) (msgType : Nat) (body : List UInt8) : Written :=
  if body.length > 2 ^ 32 - 1 then
    { result := .error (.messageTooLarge (2 ^ 32 - 1) channel.maxMessageSize)
      bytes := []
      channel := channel }
  else if body.length > channel.maxMessageSize then
    { result := .error (.messageTooLarge body.length channel.maxMessageSize)
      bytes := []
      channel := channel }
  else if channel.miniHeader then
    { result := .ok ()
      bytes := (MiniDataHeader.mk msgType body.length).encode ++ body
      channel := channel }
  else
    { result := .ok ()
      bytes := (DataHeader.mk channel.sendSerial msgType body.length 0).encode ++ body
      channel := { channel with sendSerial := (channel.sendSerial + 1) % 2 ^ 64 } }

def Channel.writeAll (channel : Channel) : List (Nat × List UInt8) → List Written
  | [] => []
  | (msgType, body) :: rest =>
      channel.writeMessage msgType body ::
        (channel.writeMessage msgType body).channel.writeAll rest

def Channel.after (channel : Channel) : List (Nat × List UInt8) → Channel
  | [] => channel
  | (msgType, body) :: rest => (channel.writeMessage msgType body).channel.after rest

def streamOf (writes : List Written) : List UInt8 := writes.flatMap Written.bytes

def Channel.accepts (channel : Channel) (message : Nat × List UInt8) : Bool :=
  message.2.length ≤ channel.maxMessageSize

def numbered (mini : Bool) : Nat → List (Nat × List UInt8) → List Message
  | _, [] => []
  | serial, (msgType, body) :: rest =>
      { msgType := msgType, serial := if mini then none else some serial, body := body } ::
        numbered mini (serial + 1) rest

section Write

variable {channel : Channel} {msgType : Nat} {body : List UInt8}

/-- A refused message leaves no trace. -/
theorem writeMessage_refused (long : channel.maxMessageSize < body.length) :
    (∃ reason, (channel.writeMessage msgType body).result = .error reason) ∧
      (channel.writeMessage msgType body).bytes = [] ∧
      (channel.writeMessage msgType body).channel = channel := by
  unfold Channel.writeMessage
  split
  · exact ⟨⟨_, rfl⟩, rfl, rfl⟩
  · exact ⟨⟨_, rfl⟩, rfl, rfl⟩

private theorem writeMessage_eq (fits : body.length ≤ channel.maxMessageSize) :
    channel.writeMessage msgType body =
      if channel.miniHeader then
        { result := .ok ()
          bytes := (MiniDataHeader.mk msgType body.length).encode ++ body
          channel := channel }
      else
        { result := .ok ()
          bytes := (DataHeader.mk channel.sendSerial msgType body.length 0).encode ++ body
          channel := { channel with sendSerial := (channel.sendSerial + 1) % 2 ^ 64 } } := by
  have small := channel.maxMessageSize_lt
  unfold Channel.writeMessage
  rw [if_neg (by omega), if_neg (Nat.not_lt.mpr fits)]

theorem writeMessage_accepted (fits : body.length ≤ channel.maxMessageSize)
    {maxMessageSize : Nat} {frame : Frame maxMessageSize} (typed : frame.msgType = msgType)
    (same : frame.body = body) (plain : frame.subList = 0)
    (serial : channel.miniHeader = false → frame.serial = channel.sendSerial) :
    (channel.writeMessage msgType body).result = .ok () ∧
      (channel.writeMessage msgType body).bytes = frame.encode channel.miniHeader := by
  subst typed same
  rw [writeMessage_eq fits]
  cases mini : channel.miniHeader with
  | true => exact ⟨rfl, rfl⟩
  | false =>
      refine ⟨rfl, ?_⟩
      rw [if_neg Bool.false_ne_true, ← serial mini, ← plain]
      rfl

theorem writeMessage_keeps :
    (channel.writeMessage msgType body).channel.miniHeader = channel.miniHeader ∧
      (channel.writeMessage msgType body).channel.maxMessageSize = channel.maxMessageSize := by
  unfold Channel.writeMessage
  split
  · exact ⟨rfl, rfl⟩
  · split
    · exact ⟨rfl, rfl⟩
    · split
      · exact ⟨rfl, rfl⟩
      · exact ⟨rfl, rfl⟩

theorem writeMessage_serial (fits : body.length ≤ channel.maxMessageSize)
    (full : channel.miniHeader = false) :
    (channel.writeMessage msgType body).channel.sendSerial =
      (channel.sendSerial + 1) % 2 ^ 64 := by
  rw [writeMessage_eq fits, full]
  rfl

end Write

/-! ### Reading it back -/

theorem writeMessage_spells {limit serial : Nat} {channel : Channel} {msgType : Nat}
    {body : List UInt8} (room : channel.maxMessageSize ≤ limit)
    (typed : msgType < 256 ^ 2) (fits : body.length ≤ channel.maxMessageSize)
    (current : channel.miniHeader = false → channel.sendSerial = serial % 256 ^ 8)
    (fewer : channel.miniHeader = false → serial < 256 ^ 8) :
    (channelReader channel.miniHeader limit).Spells .start
      (channel.writeMessage msgType body).bytes
      { msgType := msgType
        serial := if channel.miniHeader then none else some serial
        body := body } := by
  let frame : Frame limit :=
    { serial := serial % 256 ^ 8
      msgType := msgType
      subList := 0
      body := body
      serial_lt := Nat.mod_lt serial (by decide)
      msgType_lt := typed
      subList_lt := by decide
      body_lt := Nat.lt_of_le_of_lt fits channel.maxMessageSize_lt
      body_le := Nat.le_trans fits room }
  have wrote := (writeMessage_accepted fits (rfl : frame.msgType = msgType) rfl rfl
    fun full => (current full).symm).2
  have spells := frame_spells channel.miniHeader frame.body_le
  rw [← wrote] at spells
  cases mini : channel.miniHeader with
  | true =>
      rw [mini] at spells
      exact spells
  | false =>
      have number : serial % 256 ^ 8 = serial := Nat.mod_eq_of_lt (fewer mini)
      rw [mini, Frame.message, if_neg Bool.false_ne_true] at spells
      rw [← number]
      exact spells

/-- All that is written reads as the accepted messages, numbered on. -/
theorem writeAll_reads {limit : Nat} {messages : List (Nat × List UInt8)} {channel : Channel}
    {serial : Nat} (room : channel.maxMessageSize ≤ limit)
    (types : ∀ message ∈ messages, message.1 < 256 ^ 2)
    (current : channel.miniHeader = false → channel.sendSerial = serial % 256 ^ 8)
    (fewer : channel.miniHeader = false →
      serial + (messages.filter channel.accepts).length ≤ 256 ^ 8) :
    (channelReader channel.miniHeader limit).Reads .start (streamOf (channel.writeAll messages))
      (numbered channel.miniHeader serial (messages.filter channel.accepts)) := by
  induction messages generalizing channel serial with
  | nil => exact .nil
  | cons message rest ih =>
      obtain ⟨msgType, body⟩ := message
      have first : streamOf (channel.writeAll ((msgType, body) :: rest)) =
          (channel.writeMessage msgType body).bytes ++
            streamOf ((channel.writeMessage msgType body).channel.writeAll rest) := rfl
      have typesRest : ∀ message ∈ rest, message.1 < 256 ^ 2 :=
        fun message member => types message (List.mem_cons_of_mem _ member)
      rw [first]
      by_cases fits : body.length ≤ channel.maxMessageSize
      · have accepted : channel.accepts (msgType, body) = true := decide_eq_true fits
        rw [List.filter_cons_of_pos accepted] at fewer ⊢
        rw [List.length_cons] at fewer
        have now : channel.miniHeader = false → serial < 256 ^ 8 := fun full =>
          Nat.lt_of_lt_of_le (by omega) (fewer full)
        refine FrameReader.spells_reads
          (writeMessage_spells room (types _ List.mem_cons_self) fits current now) ?_
        obtain ⟨sameMini, sameMax⟩ := @writeMessage_keeps channel msgType body
        have sameAccepts :
            (channel.writeMessage msgType body).channel.accepts = channel.accepts := by
          unfold Channel.accepts
          rw [sameMax]
        have later := @ih (channel.writeMessage msgType body).channel (serial + 1) (sameMax ▸ room)
          typesRest
        rw [sameMini, sameAccepts] at later
        apply later
        · intro full
          rw [writeMessage_serial fits full, current full]
          exact Nat.mod_add_mod serial (256 ^ 8) 1
        · intro full
          have most := fewer full
          omega
      · have refused : ¬ channel.accepts (msgType, body) = true := by
          rw [Channel.accepts, decide_eq_true_eq]
          exact fits
        obtain ⟨_failed, none, same⟩ := @writeMessage_refused channel msgType body (Nat.not_le.mp fits)
        rw [List.filter_cons_of_neg refused] at fewer ⊢
        rw [none, same, List.nil_append]
        exact ih room typesRest current fewer

theorem writeAll_results (channel : Channel) (messages : List (Nat × List UInt8)) :
    (channel.writeAll messages).map (fun write => write.result.isOk) =
      messages.map channel.accepts := by
  induction messages generalizing channel with
  | nil => rfl
  | cons message rest ih =>
      obtain ⟨msgType, body⟩ := message
      have sameAccepts :
          (channel.writeMessage msgType body).channel.accepts = channel.accepts := by
        unfold Channel.accepts
        rw [writeMessage_keeps.2]
      have here : (channel.writeMessage msgType body).result.isOk =
          channel.accepts (msgType, body) := by
        rw [Channel.accepts]
        by_cases fits : body.length ≤ channel.maxMessageSize
        · rw [decide_eq_true fits, writeMessage_eq fits]
          split
          · rfl
          · rfl
        · obtain ⟨⟨reason, failed⟩, _none, _same⟩ :=
            @writeMessage_refused channel msgType body (Nat.not_le.mp fits)
          rw [decide_eq_false fits, failed]
          rfl
      rw [Channel.writeAll, List.map_cons, List.map_cons, here, ih, sameAccepts]

/-! ### Channels in use -/

theorem writeAll_append {channel : Channel} {messages more : List (Nat × List UInt8)} :
    channel.writeAll (messages ++ more) =
      channel.writeAll messages ++ (channel.after messages).writeAll more := by
  induction messages generalizing channel with
  | nil => rfl
  | cons message rest ih =>
      obtain ⟨msgType, body⟩ := message
      rw [List.cons_append, Channel.writeAll, Channel.writeAll, ih, Channel.after, List.cons_append]

theorem streamOf_append {writes more : List Written} :
    streamOf (writes ++ more) = streamOf writes ++ streamOf more := List.flatMap_append

/-- A channel that has written so many messages since it was new. -/
structure Channel.Used (channel : Channel) (mini : Bool) (count : Nat) : Prop where
  miniHeader : channel.miniHeader = mini
  maxMessageSize : channel.maxMessageSize = DEFAULT_MAX_MESSAGE_SIZE
  sendSerial : mini = false → channel.sendSerial = (1 + count) % 256 ^ 8

theorem used_new (mini : Bool) : (Channel.new mini).Used mini 0 where
  miniHeader := rfl
  maxMessageSize := rfl
  sendSerial := fun _full => rfl

section Used

variable {channel : Channel} {mini : Bool} {count : Nat} (used : channel.Used mini count)
  {msgType : Nat} {body : List UInt8} (fits : body.length ≤ DEFAULT_MAX_MESSAGE_SIZE)

include used fits

theorem used_write : (channel.writeMessage msgType body).channel.Used mini (count + 1) where
  miniHeader := writeMessage_keeps.1.trans used.miniHeader
  maxMessageSize := writeMessage_keeps.2.trans used.maxMessageSize
  sendSerial := by
    intro full
    rw [writeMessage_serial (used.maxMessageSize ▸ fits) (used.miniHeader.trans full),
      used.sendSerial full]
    exact Nat.mod_add_mod (1 + count) (256 ^ 8) 1

theorem used_ok : (channel.writeMessage msgType body).result = .ok () := by
  rw [writeMessage_eq (used.maxMessageSize ▸ fits)]
  split
  · rfl
  · rfl

theorem used_spells (typed : msgType < 256 ^ 2) (fewer : count < 256 ^ 8 - 1) :
    (channelReader mini DEFAULT_MAX_MESSAGE_SIZE).Spells .start
      (channel.writeMessage msgType body).bytes
      { msgType := msgType
        serial := if mini then none else some (1 + count)
        body := body } := by
  have spells := @writeMessage_spells DEFAULT_MAX_MESSAGE_SIZE (1 + count) channel msgType body
    (Nat.le_of_eq used.maxMessageSize) typed (used.maxMessageSize ▸ fits)
    (fun full => used.sendSerial (used.miniHeader ▸ full)) (fun _full => by omega)
  rw [used.miniHeader] at spells
  exact spells

end Used

/-! ### A whole stream -/

def readOn : Machine Unit (Input Message Empty) Unit := fun _ _ => ([], some ())

def Channel.reader (channel : Channel) : FrameReader UInt8 Reading Message :=
  channelReader channel.miniHeader channel.maxMessageSize

def readMessages (channel : Channel) (wakes : List (Wake UInt8 Empty)) : List Message :=
  received (turns channel.reader readOn (Task.start channel.reader ()) wakes)

def unread (channel : Channel) (wakes : List (Wake UInt8 Empty)) :
    Option (Task UInt8 Reading Unit) :=
  final (selectLoop channel.reader readOn) (Task.start channel.reader ()) wakes

/-- A sequence of messages is delivered without those that are too long, which leave no
trace, and nothing else is in the stream. -/
theorem messages_delivered {writer reader : Channel} {messages : List (Nat × List UInt8)}
    {wakes : List (Wake UInt8 Empty)} (fresh : writer.sendSerial = 1)
    (types : ∀ message ∈ messages, message.1 < 2 ^ 16)
    (fewer : writer.miniHeader = false → (messages.filter writer.accepts).length < 2 ^ 64)
    (mode : reader.miniHeader = writer.miniHeader)
    (room : writer.maxMessageSize ≤ reader.maxMessageSize)
    (arrives : arrived wakes = streamOf (writer.writeAll messages))
    (finished : ∀ task, unread reader wakes = some task → task.pending = []) :
    ((writer.writeAll messages).map fun write => write.result.isOk) =
        messages.map writer.accepts ∧
      (∀ (channel : Channel) (msgType : Nat) (body : List UInt8),
        channel.maxMessageSize < body.length →
          (channel.writeMessage msgType body).bytes = [] ∧
            (channel.writeMessage msgType body).channel = channel) ∧
      readMessages reader wakes =
        numbered writer.miniHeader 1 (messages.filter writer.accepts) ∧
      unread reader wakes = some (Task.start reader.reader ()) := by
  have few : writer.miniHeader = false →
      1 + (messages.filter writer.accepts).length ≤ 256 ^ 8 := by
    intro full
    have most := fewer full
    omega
  have reads := writeAll_reads room types (fun _full => fresh) few
  rw [← mode, ← arrives] at reads
  have undisturbed : Framing.Undisturbed reader.reader readOn (Task.start reader.reader ()) wakes :=
    Reactive.always_of (fun _task _wake evt => evt.elim) _ wakes
  obtain ⟨_state, ended, read, _saw⟩ := Framing.undisturbed_reads_all undisturbed reads
    (fun _message _member _state => Option.some_ne_none ())
    (fun evt _member _state => evt.elim) finished
  refine ⟨writeAll_results writer messages, ?_, mode ▸ read, ended⟩
  intro channel msgType body long
  exact (writeMessage_refused long).2

/-- A writer that takes two bytes at most, with a message between two that are longer. -/
def terse : Channel where
  miniHeader := false
  sendSerial := 1
  maxMessageSize := 2
  maxMessageSize_lt := by decide

def mixed : List (Nat × List UInt8) := [(9, [1, 2, 3]), (7, [1, 2]), (8, [4, 5, 6])]

def pieces : List (Wake UInt8 Empty) :=
  [.arrive ((streamOf (terse.writeAll mixed)).take 5), .read 9,
    .arrive ((streamOf (terse.writeAll mixed)).drop 5), .read 30]

theorem messages_delivered_pieces :
    readMessages (Channel.new false) pieces =
      numbered terse.miniHeader 1 (mixed.filter terse.accepts) := by
  have ended : (unread (Channel.new false) pieces).map Task.pending = some [] := by decide +kernel
  have finished : ∀ task, unread (Channel.new false) pieces = some task → task.pending = [] := by
    intro task same
    rw [same] at ended
    exact Option.some.inj ended
  have arrives : arrived pieces = streamOf (terse.writeAll mixed) := by decide +kernel
  have delivered := messages_delivered rfl (by decide) (fun _full => by decide) rfl (by decide)
    arrives finished
  exact delivered.2.2.1

end Capsaicin.Net
