/-
The inputs task on its socket, where the read of a message and the events of the
embedder race for the loop.
-/

import Capsaicin.Client.Inputs
import Capsaicin.Net.Channel

namespace Capsaicin.Client

open Framing (Wake Task selectLoop turns received seen events arrived Undisturbed)
open Net (Frame Message Reading DEFAULT_MAX_MESSAGE_SIZE channelReader headerSize)
open Proto
open Reactive (Turn trace final)

/-- A message of a server, framed. Its body is whatever a header can announce. -/
abbrev ServerFrame := Frame (256 ^ 4)

def wire (mini : Bool) (frames : List ServerFrame) : List UInt8 :=
  frames.flatMap (Frame.encode mini)

def framed (mini : Bool) (frames : List ServerFrame) : List Message :=
  frames.map (Frame.message mini)

def inputsTask (mini : Bool) (wakes : List (Wake UInt8 (Option InputEvent))) :
    Option (Task UInt8 Reading Unit) :=
  final (selectLoop (channelReader mini DEFAULT_MAX_MESSAGE_SIZE) inputsLoop)
    (Task.start (channelReader mini DEFAULT_MAX_MESSAGE_SIZE) ()) wakes

def inputsTurns (mini : Bool) (wakes : List (Wake UInt8 (Option InputEvent))) :
    List (Turn InputsInput Effect) :=
  turns (channelReader mini DEFAULT_MAX_MESSAGE_SIZE) inputsLoop
    (Task.start (channelReader mini DEFAULT_MAX_MESSAGE_SIZE) ()) wakes

/-- No event is received while a message is partly read. -/
def Unraced (mini : Bool) (wakes : List (Wake UInt8 (Option InputEvent))) : Prop :=
  Undisturbed (channelReader mini DEFAULT_MAX_MESSAGE_SIZE) inputsLoop
    (Task.start (channelReader mini DEFAULT_MAX_MESSAGE_SIZE) ()) wakes

def written (turns : List (Turn InputsInput Effect)) : List Effect := turns.flatMap Turn.output

def isInput : Effect → Bool
  | .write msgType _ =>
      [ClientMsg.INPUTS_KEY_DOWN, ClientMsg.INPUTS_KEY_UP, ClientMsg.INPUTS_KEY_MODIFIERS,
        ClientMsg.INPUTS_MOUSE_MOTION, ClientMsg.INPUTS_MOUSE_POSITION,
        ClientMsg.INPUTS_MOUSE_PRESS, ClientMsg.INPUTS_MOUSE_RELEASE].contains msgType
  | .emit _ => false

def isPong : Effect → Bool
  | .write msgType _ => msgType = Msgc.PONG
  | .emit _ => false

def isPing (msg : Message) : Bool := msg.msgType = Msg.PING

/-- The answer that a `PING` wants. -/
def pongOf (msg : Message) : Option Effect :=
  if msg.msgType = Msg.PING then (Ping.decode msg.body).toOption.map pong else none

/-- The task handles the messages of the server, answers each of its pings and passes on the
events of the embedder, all of them once and in their order. -/
structure Faithful (mini : Bool) (frames : List ServerFrame)
    (wakes : List (Wake UInt8 (Option InputEvent))) : Prop where
  handled : received (inputsTurns mini wakes) = framed mini frames
  ponged : ((written (inputsTurns mini wakes)).filter isPong).map some =
    ((framed mini frames).filter isPing).map pongOf
  sent : (written (inputsTurns mini wakes)).filter isInput =
    (events wakes).filterMap (Option.map sendEvent)

/-- No event is received while a message is partly read, or when the task has stopped. No body is
longer than the limit, each `PING` parses, and so does each `SET_ACK` that is not the last
message. -/
structure Orderly (mini : Bool) (frames : List ServerFrame)
    (wakes : List (Wake UInt8 (Option InputEvent))) : Prop where
  unraced : Unraced mini wakes
  attended : ∀ before evt after, wakes = before ++ .event evt :: after →
    inputsTask mini before ≠ none
  small : ∀ frame ∈ frames, frame.body.length ≤ DEFAULT_MAX_MESSAGE_SIZE
  pings : ∀ frame ∈ frames, frame.msgType = Msg.PING → ∃ ping, Ping.decode frame.body = .ok ping
  setAcks : ∀ before frame after, frames = before ++ frame :: after → after ≠ [] →
    frame.msgType = Msg.SET_ACK → ∃ ack, SetAck.decode frame.body = .ok ack

/-! ### What the turns write -/

theorem handleServerMsg_answers (msg : Message) :
    ((inputsLoop () (.message msg)).1).filter isPong = (pongOf msg).toList ∧
      ((inputsLoop () (.message msg)).1).filter isInput = [] := by
  rw [inputsLoop]
  cases handled : handleServerMsg msg with
  | error reason =>
      unfold handleServerMsg at handled
      unfold pongOf
      split at handled
      · rename_i isPing
        rw [if_pos isPing]
        cases parsed : Ping.decode msg.body with
        | error reason => exact ⟨rfl, rfl⟩
        | ok ping =>
            rw [parsed] at handled
            cases handled
      · rename_i notPing
        rw [if_neg notPing]
        exact ⟨rfl, rfl⟩
  | ok output =>
      unfold handleServerMsg at handled
      unfold pongOf
      split at handled
      · rename_i isPing
        obtain ⟨ping, parsed, done⟩ := Program.bind_eq_ok.mp handled
        cases done
        rw [if_pos isPing, parsed]
        exact ⟨rfl, rfl⟩
      · rename_i notPing
        rw [if_neg notPing]
        split at handled
        · obtain ⟨ack, _parsed, done⟩ := Program.bind_eq_ok.mp handled
          cases done
          exact ⟨rfl, rfl⟩
        · cases handled
          exact ⟨rfl, rfl⟩

theorem sendEvent_sent (maybeEvt : Option InputEvent) :
    ((inputsLoop () (.event maybeEvt)).1).filter isPong = [] ∧
      ((inputsLoop () (.event maybeEvt)).1).filter isInput =
        (maybeEvt.map sendEvent).toList := by
  cases maybeEvt with
  | none => exact ⟨rfl, rfl⟩
  | some evt =>
      cases evt with
      | keyDown code => exact ⟨rfl, rfl⟩
      | keyUp code => exact ⟨rfl, rfl⟩
      | keyModifiers mods => exact ⟨rfl, rfl⟩
      | mouseMotion dx dy buttons => exact ⟨rfl, rfl⟩
      | mousePosition x y buttons display => exact ⟨rfl, rfl⟩
      | mousePress button buttons => exact ⟨rfl, rfl⟩
      | mouseRelease button buttons => exact ⟨rfl, rfl⟩

private theorem toList_append_filterMap {α β : Type} (f : α → Option β) (item : α) (rest : List α) :
    (f item).toList ++ rest.filterMap f = (item :: rest).filterMap f := by
  cases found : f item with
  | none =>
      rw [List.filterMap_cons_none found]
      rfl
  | some value =>
      rw [List.filterMap_cons_some found]
      rfl

theorem written_answers {turns : List (Turn InputsInput Effect)}
    (run : ∀ turn ∈ turns, turn.output = (inputsLoop () turn.input).1) :
    (written turns).filter isPong = (received turns).filterMap pongOf ∧
      (written turns).filter isInput = (seen turns).filterMap (Option.map sendEvent) := by
  induction turns with
  | nil => exact ⟨rfl, rfl⟩
  | cons turn rest ih =>
      obtain ⟨pongs, sends⟩ := ih fun other member => run other (List.mem_cons_of_mem turn member)
      have here := run turn List.mem_cons_self
      obtain ⟨input, output⟩ := turn
      dsimp only at here
      subst here
      have first : written ({ input := input, output := (inputsLoop () input).1 } :: rest) =
          (inputsLoop () input).1 ++ written rest := rfl
      rw [first, List.filter_append, List.filter_append]
      cases input with
      | message msg =>
          obtain ⟨pong, quiet⟩ := handleServerMsg_answers msg
          rw [pong, quiet, pongs]
          exact ⟨toList_append_filterMap pongOf msg _, sends⟩
      | event maybeEvt =>
          obtain ⟨quiet, send⟩ := sendEvent_sent maybeEvt
          rw [quiet, send, sends]
          exact ⟨pongs, toList_append_filterMap (Option.map sendEvent) maybeEvt _⟩

theorem inputsTurns_run (mini : Bool) (wakes : List (Wake UInt8 (Option InputEvent))) :
    ∀ turn ∈ inputsTurns mini wakes, turn.output = (inputsLoop () turn.input).1 := by
  intro turn member
  let runs (turn : Turn InputsInput Effect) : Prop := turn.output = (inputsLoop () turn.input).1
  have puts (state : Unit) (input : InputsInput) :
      runs { input := input, output := (inputsLoop state input).1 } := rfl
  rw [inputsTurns, Framing.turns_trace] at member
  exact Reactive.trace_turn puts member

/-! ### What is read -/

theorem framed_weight (mini : Bool) (frames : List ServerFrame) :
    ((framed mini frames).map (channelReader mini DEFAULT_MAX_MESSAGE_SIZE).weight).sum =
      (wire mini frames).length := by
  induction frames with
  | nil => rfl
  | cons frame rest ih =>
      have here : (frame.encode mini).length = headerSize mini + frame.body.length := by
        rw [Frame.encode, List.length_append, Frame.length_header]
      rw [wire, List.flatMap_cons, List.length_append, here, ← wire, ← ih]
      rfl

/-- What is not refused: a `PING` or a `SET_ACK` that parses, or any other message. -/
theorem continues_iff {msg : Message} : (inputsLoop () (.message msg)).2 ≠ none ↔
    (msg.msgType = Msg.PING → ∃ ping, Ping.decode msg.body = .ok ping) ∧
      (msg.msgType = Msg.SET_ACK → ∃ ack, SetAck.decode msg.body = .ok ack) := by
  rw [inputsLoop]
  unfold handleServerMsg
  by_cases ping : msg.msgType = Msg.PING
  · have other : msg.msgType ≠ Msg.SET_ACK := by
      rw [ping]
      decide
    rw [if_pos ping]
    cases parsed : Ping.decode msg.body with
    | error reason => simp [ping, bind, Except.bind]
    | ok found => simp [other, bind, Except.bind]
  · rw [if_neg ping]
    by_cases setAck : msg.msgType = Msg.SET_ACK
    · rw [if_pos setAck]
      cases parsed : SetAck.decode msg.body with
      | error reason => simp [setAck, bind, Except.bind]
      | ok found => simp [ping, bind, Except.bind]
    · simp [ping, setAck]

theorem pongs_wanted {messages : List Message}
    (pings : ∀ msg ∈ messages, msg.msgType = Msg.PING → ∃ ping, Ping.decode msg.body = .ok ping) :
    (messages.filterMap pongOf).map some = (messages.filter isPing).map pongOf := by
  induction messages with
  | nil => rfl
  | cons msg rest ih =>
      have later := ih fun other member => pings other (List.mem_cons_of_mem msg member)
      by_cases ping : msg.msgType = Msg.PING
      · obtain ⟨found, parsed⟩ := pings msg List.mem_cons_self ping
        have wanted : pongOf msg = some (pong found) := by
          rw [pongOf, if_pos ping, parsed]
          rfl
        have among : isPing msg = true := decide_eq_true ping
        rw [List.filterMap_cons_some wanted, List.filter_cons_of_pos among, List.map_cons,
          List.map_cons, later, wanted]
      · have unwanted : pongOf msg = none := if_neg ping
        have different : ¬ isPing msg = true := by
          simpa [isPing] using ping
        rw [List.filterMap_cons_none unwanted, List.filter_cons_of_neg different, later]

theorem seen_of_sent {saw told : List (Option InputEvent)} (first : saw <+: told)
    (attended : none ∉ told)
    (sent : saw.filterMap (Option.map sendEvent) = told.filterMap (Option.map sendEvent)) :
    saw = told := by
  have whole {events : List (Option InputEvent)} (attended : none ∉ events) :
      (events.filterMap (Option.map sendEvent)).length = events.length := by
    induction events with
    | nil => rfl
    | cons evt rest ih =>
        cases evt with
        | none => exact absurd List.mem_cons_self attended
        | some evt =>
            have later := ih fun member => attended (List.mem_cons_of_mem _ member)
            exact congrArg Nat.succ later
  apply first.eq_of_length
  have kept : none ∉ saw := fun member => attended (first.subset member)
  rw [← whole kept, ← whole attended, sent]

/-- The task is faithful to its server and to its embedder exactly when their messages and events
come in order. -/
theorem framing_iff {mini : Bool} {frames : List ServerFrame}
    {wakes : List (Wake UInt8 (Option InputEvent))} (arrives : arrived wakes = wire mini frames)
    (attended : none ∉ events wakes)
    (finished : ∀ task, inputsTask mini wakes = some task → task.pending = []) :
    Faithful mini frames wakes ↔ Orderly mini frames wakes := by
  have answers := written_answers (inputsTurns_run mini wakes)
  constructor
  · intro faithful
    have all : ∀ frame ∈ frames, frame.message mini ∈ received (inputsTurns mini wakes) := by
      intro frame member
      rw [faithful.handled]
      exact List.mem_map_of_mem member
    constructor
    · apply Framing.undisturbed_of_weight
      rw [arrives, ← framed_weight, ← faithful.handled]
      exact Nat.le_of_eq (Nat.zero_add _)
    · have sent := faithful.sent
      rw [answers.2] at sent
      apply (Framing.seen_all_iff _ wakes).mp
      exact seen_of_sent (Framing.seen_events _ wakes).1 attended sent
    · intro frame member
      have fresh : Reading.Fits DEFAULT_MAX_MESSAGE_SIZE .start := True.intro
      exact (Net.channelReader_admits mini DEFAULT_MAX_MESSAGE_SIZE).received fresh _
        (all frame member)
    · intro frame member ping
      have ponged := faithful.ponged
      have wanted : pongOf (frame.message mini) ∈
          ((written (inputsTurns mini wakes)).filter isPong).map some := by
        rw [ponged]
        apply List.mem_map_of_mem
        apply List.mem_filter.mpr
        exact ⟨List.mem_map_of_mem member, decide_eq_true ping⟩
      obtain ⟨effect, _among, same⟩ := List.mem_map.mp wanted
      rw [pongOf, if_pos (show (frame.message mini).msgType = Msg.PING from ping)] at same
      obtain ⟨found, parsed, _pong⟩ := Option.map_eq_some_iff.mp same.symm
      cases decoded : Ping.decode (frame.message mini).body with
      | ok found => exact ⟨found, decoded⟩
      | error reason =>
          rw [decoded] at parsed
          cases parsed
    · rintro before frame after rfl more setAck
      have handled := faithful.handled
      rw [framed, List.map_append, List.map_cons, inputsTurns, Framing.turns_trace] at handled
      obtain ⟨_state, continues⟩ := Framing.received_goes_on handled (by simpa using more)
      exact (continues_iff.mp continues).2 setAck
  · intro orderly
    have reads : (channelReader mini DEFAULT_MAX_MESSAGE_SIZE).Reads .start (wire mini frames)
        (framed mini frames) := Net.frames_reads mini orderly.small
    rw [← arrives] at reads
    have saw : seen (inputsTurns mini wakes) = events wakes :=
      (Framing.seen_all_iff _ wakes).mpr orderly.attended
    have handled : received (inputsTurns mini wakes) = framed mini frames := by
      have goesOn : ∀ evt ∈ events wakes, ∀ state, (inputsLoop state (.event evt)).2 ≠ none := by
        intro maybeEvt member _state
        cases maybeEvt with
        | none => exact absurd member attended
        | some evt => exact Option.some_ne_none ()
      rcases Framing.undisturbed_cases orderly.unraced reads goesOn with
        ⟨behind, rest, ended, tail, read, _saw⟩ | ⟨first, message, rest, _state, read, split, stopped⟩
      · rw [finished behind ended] at tail
        rw [((channelReader mini DEFAULT_MAX_MESSAGE_SIZE).reads_nil tail).2, List.append_nil] at read
        exact read
      · -- only the last message can be one that the task stops at
        obtain ⟨before, behind, rfl, _first, later⟩ := List.map_eq_append_iff.mp split
        obtain ⟨frame, after, rfl, same, others⟩ := List.map_eq_cons_iff.mp later
        have last : rest = [] := by
          by_contra some
          have more : after ≠ [] := by
            rintro rfl
            exact some others.symm
          apply continues_iff.mpr _ stopped
          rw [← same]
          exact ⟨orderly.pings frame (by simp), orderly.setAcks before frame after rfl more⟩
        rw [last] at split
        exact read.trans split.symm
    constructor
    · exact handled
    · rw [answers.1, handled]
      apply pongs_wanted
      intro msg member ping
      obtain ⟨frame, among, rfl⟩ := List.mem_map.mp member
      exact orderly.pings frame among ping
    · rw [answers.2, saw]

def pingFrame : ServerFrame where
  serial := 1
  msgType := Msg.PING
  subList := 0
  body := (Ping.mk 7 1 []).encode
  serial_lt := by decide
  msgType_lt := by decide
  subList_lt := by decide
  body_lt := by decide
  body_le := by decide

/-- An event between two messages that arrive in pieces. -/
def calmWakes : List (Wake UInt8 (Option InputEvent)) :=
  [.arrive ((wire true [pingFrame]).take 3), .read 3, .arrive ((wire true [pingFrame]).drop 3),
    .read 40, .event (some (.keyDown 30)), .arrive (wire true [pingFrame]), .read 40]

def racedWakes : List (Wake UInt8 (Option InputEvent)) :=
  [.arrive ((wire true [pingFrame]).take 3), .read 3, .event (some (.keyDown 30)),
    .arrive ((wire true [pingFrame]).drop 3), .read 40, .read 40, .read 40]

private theorem finished_of {mini : Bool} {wakes : List (Wake UInt8 (Option InputEvent))}
    (empty : (inputsTask mini wakes).map Task.pending = some []) (task : Task UInt8 Reading Unit)
    (ended : inputsTask mini wakes = some task) : task.pending = [] := by
  rw [ended] at empty
  exact Option.some.inj empty

theorem framing_iff_calm :
    Faithful true [pingFrame, pingFrame] calmWakes ↔ Orderly true [pingFrame, pingFrame] calmWakes :=
  framing_iff (by rfl) (by decide) (finished_of (by rfl))

/-- The ping that is read across the event is lost. -/
theorem raced_ping_lost :
    arrived racedWakes = wire true [pingFrame] ∧ none ∉ events racedWakes ∧
      (∀ task, inputsTask true racedWakes = some task → task.pending = []) ∧
      ¬ Faithful true [pingFrame] racedWakes := by
  refine ⟨by rfl, by decide, finished_of (by rfl), ?_⟩
  intro faithful
  exact absurd faithful.handled (by decide)

end Capsaicin.Client
