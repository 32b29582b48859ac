/-
The mailbox of a client. The tasks of its channels put their events into one bounded queue, from
which the embedder takes them.
-/

import Capsaicin.Client.Commands
import Capsaicin.Client.Main
import Capsaicin.Client.PixelLayout
import Capsaicin.Client.Pointer
import Capsaicin.Library.Mailbox
import Mathlib.Data.Fintype.Defs

namespace Capsaicin.Client

open Framing (Wake Task selectLoop turns)
open Mailbox (Box Move)
open Mailbox.Box (entriesOf)
open Net (Message)
open Reactive (Machine Turn final)

/-! ### The tasks -/

inductive Producer where
  | main
  | display
  | cursor
  deriving DecidableEq, Repr

instance : Fintype Producer where
  elems := {.main, .display, .cursor}
  complete := by
    intro producer
    cases producer <;> simp

/-- An event, or that the main channel is closed. The reason is left out. -/
inductive Mail where
  | event (event : ClientEvent)
  | closed
  deriving DecidableEq, Repr

def mainTask : Machine MainState (Framing.Input Message Empty) Effect := fun state input =>
  match input with
  | .message msg => ((runMainMessage state msg).1, some (runMainMessage state msg).2)
  | .event evt => evt.elim

def clientEvent : Effect → Option ClientEvent
  | .emit event => some event
  | .write _ _ => none

/-- The header of a channel, and what has happened on its socket. -/
structure Socket where
  mini : Bool
  wakes : List (Wake UInt8 Empty)

section Socket

variable {σ : Type} (socket : Socket) (task : Machine σ (Framing.Input Message Empty) Effect)
  (start : σ)

def Socket.after : Option (Task UInt8 Net.Reading σ) :=
  final (selectLoop (taskReader socket.mini) task) (Task.start (taskReader socket.mini) start)
    socket.wakes

def Socket.outputs : List (List Effect) :=
  (turns (taskReader socket.mini) task (Task.start (taskReader socket.mini) start)
    socket.wakes).map Turn.output

def Socket.events : List ClientEvent :=
  (socket.outputs task start).flatMap fun effects => effects.filterMap clientEvent

end Socket

/-- A client that is connected. The peer may have dropped the main channel. -/
structure SpiceClient where
  currentMouseMode : Nat
  main : Socket
  dropped : Bool
  display : Socket
  cursor : Socket

/-- The main channel has failed, for whatever reason. -/
def SpiceClient.over (client : SpiceClient) : Bool :=
  client.dropped || (client.main.after mainTask MainState.start).isNone

/-- What the tasks put into the mailbox. Only the main task tells of its end. -/
def SpiceClient.mail (jpeg : JpegDecoder) (client : SpiceClient) : Producer → List Mail
  | .main =>
      (client.main.events mainTask MainState.start).map .event ++
        if client.over then [.closed] else []
  | .display => (client.display.events (displayTask jpeg) DisplayState.default).map .event
  | .cursor => (client.cursor.events cursorTask ()).map .event

/-- The mode of the mouse is there before the tasks are. -/
def SpiceClient.seed (client : SpiceClient) : Mail :=
  .event (.mouseMode (MouseMode.fromRaw client.currentMouseMode))

def SpiceClient.box (jpeg : JpegDecoder) (client : SpiceClient) : Box Producer Mail where
  pending := client.mail jpeg
  queue := [(.main, client.seed)]
  taken := []

def mails (box : Box Producer Mail) : List Mail := box.taken.map Prod.snd

def Mail.producer : Mail → Producer
  | .event (.display _) => .display
  | .event (.cursor _) => .cursor
  | .event (.mouseMode _) => .main
  | .closed => .main

def Mail.display? : Mail → Option DisplayEvent
  | .event (.display shown) => some shown
  | _ => none

def Mail.cursor? : Mail → Option CursorEvent
  | .event (.cursor shown) => some shown
  | _ => none

/-! ### Every task has events of its own -/

section Kinds

variable {jpeg : JpegDecoder}

def Own (producer : Producer) (effect : Effect) : Prop :=
  ∀ event, effect = .emit event → (Mail.event event).producer = producer

theorem own_write {producer : Producer} {msgType : Nat} {body : List UInt8} :
    Own producer (.write msgType body) := fun _event => nofun

theorem own_emit {producer : Producer} {event : ClientEvent}
    (own : (Mail.event event).producer = producer) : Own producer (.emit event) := by
  intro other same
  cases same
  exact own

theorem mainTask_own (state : MainState) (msg : Message) :
    ∀ effect ∈ (runMainMessage state msg).1, Own .main effect := by
  have arm : ∀ output state', runMainArm state msg = some (output, state') →
      ∀ effect ∈ output, Own .main effect := by
    intro output state' ran effect member
    unfold runMainArm at ran
    split at ran
    · split at ran
      · cases ran
        rw [List.mem_singleton.mp member]
        exact own_write
      · cases ran
    · split at ran
      · split at ran
        · cases ran
          rw [List.mem_singleton.mp member]
          exact own_write
        · cases ran
      · split at ran
        · split at ran
          · cases ran
            rw [List.mem_singleton.mp member]
            exact own_emit rfl
          · cases ran
        · cases ran
          cases member
  intro effect member
  unfold runMainMessage at member
  cases ran : runMainArm state msg with
  | none =>
      rw [ran] at member
      cases member
  | some result =>
      obtain ⟨output, state'⟩ := result
      rw [ran] at member
      dsimp only at member
      have acked : ∀ effect ∈ output ++ [ackMessage], Own .main effect := by
        intro effect member
        rcases List.mem_append.mp member with put | acks
        · exact arm output state' ran effect put
        · rw [List.mem_singleton.mp acks]
          exact own_write
      split at member
      · split at member
        · exact acked effect member
        · exact arm output state' ran effect member
      · exact arm output state' ran effect member

theorem displayTask_own (state : DisplayState) (msg : Message) :
    ∀ effect ∈ (displayLoop jpeg state msg).1, Own .display effect := by
  have shows (event : DisplayEvent) : ∀ effect ∈ [emit event], Own .display effect := by
    intro effect member
    rw [List.mem_singleton.mp member]
    exact own_emit rfl
  have arm : ∀ middle put, Acts jpeg state msg middle put → ∀ effect ∈ put, Own .display effect := by
    intro middle put acts
    cases acts with
    | replied type | announced type parsed =>
        intro effect member
        rw [List.mem_singleton.mp member]
        exact own_write
    | silent other aside => simp
    | streamed brings ran =>
        rcases emitStreamFrame_frames ran with rfl | ⟨info, frame, _found, _codec, _decoded, rfl⟩
        · simp
        · exact shows _
    | allDestroyed type =>
        intro effect member
        rcases List.mem_map.mp member with ⟨id, _live, rfl⟩
        exact own_emit rfl
    | _ => exact shows _
  intro effect member
  unfold displayLoop at member
  cases handled : handle jpeg state msg with
  | error fault =>
      rw [handled] at member
      cases member
  | ok result =>
      obtain ⟨next, effects⟩ := result
      rw [handled] at member
      rcases handle_cases handled with ⟨middle, put, armed, behind⟩
      have own := arm middle put (handleArm_acts _ armed)
      rcases behind with ⟨_control, _same, rfl⟩ | ⟨_counts, _same, rfl⟩
      · exact own effect member
      · rcases List.mem_append.mp member with inside | acks
        · exact own effect inside
        · split at acks
          · rw [List.mem_singleton.mp acks]
            exact own_write
          · cases acks

theorem cursorTask_own (input : CursorInput) :
    ∀ effect ∈ (cursorLoop () input).1, Own .cursor effect := by
  have answers {msgType : Nat} {body : List UInt8} :
      ∀ effect ∈ [Effect.write msgType body], Own .cursor effect := by
    intro effect member
    rw [List.mem_singleton.mp member]
    exact own_write
  have tells (event : CursorEvent) :
      ∀ effect ∈ (emitCursor input.receiving event).1, Own .cursor effect := by
    unfold emitCursor
    split
    · intro effect member
      rw [List.mem_singleton.mp member]
      exact own_emit rfl
    · simp
  unfold cursorLoop
  repeat' split
  all_goals first | exact answers | exact tells _ | simp

theorem events_own {σ : Type} {producer : Producer} {socket : Socket}
    {task : Machine σ (Framing.Input Message Empty) Effect} {start : σ}
    (own : ∀ state msg, ∀ effect ∈ (task state (.message msg)).1, Own producer effect) :
    ∀ event ∈ socket.events task start, (Mail.event event).producer = producer := by
  intro event member
  rcases List.mem_flatMap.mp member with ⟨effects, among, inside⟩
  rcases List.mem_filterMap.mp inside with ⟨effect, put, told⟩
  have emitted : effect = .emit event := by
    cases effect with
    | write msgType body => cases told
    | emit other => exact congrArg Effect.emit (Option.some.inj told)
  rcases List.mem_map.mp among with ⟨turn, turned, same⟩
  have ran := @Framing.turns_trace _ _ _ _ _ Effect (taskReader socket.mini) task
    (Task.start (taskReader socket.mini) start) socket.wakes
  rw [ran] at turned
  let fine (turn : Turn (Framing.Input Message Empty) Effect) : Prop :=
    ∀ effect ∈ turn.output, Own producer effect
  have puts (state : σ) (input : Framing.Input Message Empty) :
      fine { input := input, output := (task state input).1 } := by
    cases input with
    | message msg => exact own state msg
    | event evt => exact evt.elim
  have here : fine turn := Reactive.trace_turn puts turned
  exact here effect (same ▸ put) event emitted

theorem mail_own (client : SpiceClient) (producer : Producer) :
    ∀ mail ∈ client.mail jpeg producer, mail.producer = producer := by
  have events {socket : Socket} {σ : Type} {task : Machine σ (Framing.Input Message Empty) Effect}
      {start : σ} (own : ∀ state msg, ∀ effect ∈ (task state (.message msg)).1, Own producer effect) :
      ∀ mail ∈ (socket.events task start).map Mail.event, mail.producer = producer := by
    intro mail member
    rcases List.mem_map.mp member with ⟨event, inside, rfl⟩
    exact events_own own event inside
  cases producer with
  | main =>
      intro mail member
      rcases List.mem_append.mp member with told | ended
      · exact events mainTask_own mail told
      · split at ended
        · rw [List.mem_singleton.mp ended]
          rfl
        · cases ended
  | display => exact events displayTask_own
  | cursor => exact events fun _state msg => cursorTask_own { msg := msg, receiving := true }

end Kinds

/-! ### What the embedder takes -/

section Taken

variable {jpeg : JpegDecoder} {client : SpiceClient} {capacity : Nat} {moves : List (Move Producer)}
  {box : Box Producer Mail}

theorem box_whole (ran : (client.box jpeg).run capacity moves = some box) (producer : Producer) :
    box.whole producer =
      (if producer = .main then [client.seed] else []) ++ client.mail jpeg producer := by
  rw [Mailbox.Box.run_whole ran]
  cases producer <;> rfl

theorem box_own (ran : (client.box jpeg).run capacity moves = some box) :
    ∀ entry ∈ box.sent, entry.2.producer = entry.1 := by
  intro entry member
  have among : entry.2 ∈ box.whole entry.1 := by
    apply List.mem_append_left
    exact List.mem_map_of_mem (List.mem_filter.mpr ⟨member, by simp⟩)
  rw [box_whole ran] at among
  rcases List.mem_append.mp among with seeded | told
  · split at seeded
    · rename_i main
      rw [List.mem_singleton.mp seeded, main]
      rfl
    · cases seeded
  · exact mail_own client entry.1 entry.2 told

theorem mails_filterMap {γ : Type} (ran : (client.box jpeg).run capacity moves = some box)
    {pick : Mail → Option γ} {producer : Producer}
    (only : ∀ mail, mail.producer ≠ producer → pick mail = none) :
    (mails box).filterMap pick = (entriesOf producer box.taken).filterMap pick := by
  have own : ∀ entry ∈ box.taken, entry.2.producer = entry.1 := fun entry member =>
    box_own ran entry (List.mem_append_left _ member)
  unfold mails entriesOf
  revert own
  generalize box.taken = entries
  intro own
  induction entries with
  | nil => rfl
  | cons entry rest ih =>
      have later := ih fun other member => own other (List.mem_cons_of_mem entry member)
      have here := own entry List.mem_cons_self
      by_cases same : entry.1 = producer
      · rw [List.filter_cons_of_pos (by simpa using same), List.map_cons, List.map_cons,
          List.filterMap_cons, List.filterMap_cons, later]
      · rw [List.filter_cons_of_neg (by simpa using same), List.map_cons,
          List.filterMap_cons_none (only entry.2 (here ▸ same)), later]

theorem taken_first (ran : (client.box jpeg).run capacity moves = some box) :
    ∀ mail ∈ (mails box).head?, mail = client.seed := by
  intro mail member
  have sent := Mailbox.Box.run_sent ran
  change [(Producer.main, client.seed)] <+: box.taken ++ box.queue at sent
  unfold mails at member
  cases taken : box.taken with
  | nil =>
      rw [taken] at member
      cases member
  | cons entry rest =>
      rw [taken] at member sent
      cases member
      exact (congrArg Prod.snd (List.cons_prefix_cons.mp sent).1).symm

theorem mail_filterMap {σ γ : Type} {socket : Socket}
    {task : Machine σ (Framing.Input Message Empty) Effect} {start : σ} {pick : Mail → Option γ}
    {picks : Effect → Option γ} (same : ∀ effect, (clientEvent effect).bind
      (fun event => pick (.event event)) = picks effect) :
    ((socket.events task start).map Mail.event).filterMap pick =
      (socket.outputs task start).flatMap fun effects => effects.filterMap picks := by
  unfold Socket.events
  rw [List.filterMap_map, List.filterMap_flatMap]
  congr 1
  funext effects
  rw [List.filterMap_filterMap]
  congr 1
  funext effect
  exact same effect

theorem mail_display : (client.mail jpeg .display).filterMap Mail.display? =
    (client.display.outputs (displayTask jpeg) DisplayState.default).flatMap eventsOf := by
  apply mail_filterMap
  intro effect
  cases effect with
  | write msgType body => rfl
  | emit event => cases event <;> rfl

theorem mail_cursor : (client.mail jpeg .cursor).filterMap Mail.cursor? =
    (client.cursor.outputs cursorTask ()).flatMap fun effects => effects.filterMap cursorEventOf := by
  apply mail_filterMap
  intro effect
  cases effect with
  | write msgType body => rfl
  | emit event => cases event <;> rfl

/-- What the embedder has got at some moment. -/
structure Delivered (jpeg : JpegDecoder) (client : SpiceClient) (box : Box Producer Mail) : Prop where
  display : (mails box).filterMap Mail.display? <+:
    (client.display.outputs (displayTask jpeg) DisplayState.default).flatMap eventsOf
  cursor : (mails box).filterMap Mail.cursor? <+:
    (client.cursor.outputs cursorTask ()).flatMap fun effects => effects.filterMap cursorEventOf
  main : entriesOf .main box.taken <+: client.seed :: client.mail jpeg .main
  first : ∀ mail ∈ (mails box).head?, mail = client.seed

/-- The embedder has got everything. -/
structure Complete (jpeg : JpegDecoder) (client : SpiceClient) (box : Box Producer Mail) : Prop where
  display : (mails box).filterMap Mail.display? =
    (client.display.outputs (displayTask jpeg) DisplayState.default).flatMap eventsOf
  cursor : (mails box).filterMap Mail.cursor? =
    (client.cursor.outputs cursorTask ()).flatMap fun effects => effects.filterMap cursorEventOf
  main : entriesOf .main box.taken = client.seed :: client.mail jpeg .main

theorem display_only (mail : Mail) (other : mail.producer ≠ .display) : mail.display? = none := by
  cases mail with
  | closed => rfl
  | event event =>
      cases event with
      | display shown => exact absurd rfl other
      | _ => rfl

theorem cursor_only (mail : Mail) (other : mail.producer ≠ .cursor) : mail.cursor? = none := by
  cases mail with
  | closed => rfl
  | event event =>
      cases event with
      | cursor shown => exact absurd rfl other
      | _ => rfl

theorem box_delivered (ran : (client.box jpeg).run capacity moves = some box) :
    Delivered jpeg client box where
  display := by
    rw [mails_filterMap ran display_only, ← mail_display]
    have part := box.taken_prefix .display
    rw [box_whole ran] at part
    exact part.filterMap _
  cursor := by
    rw [mails_filterMap ran cursor_only, ← @mail_cursor jpeg]
    have part := box.taken_prefix .cursor
    rw [box_whole ran] at part
    exact part.filterMap _
  main := by
    have part := box.taken_prefix .main
    rw [box_whole ran] at part
    exact part
  first := taken_first ran

theorem box_complete (room : 0 < capacity)
    (ran : (client.box jpeg).run capacity moves = some box)
    (stuck : ∀ move, box.step capacity move = none) : Complete jpeg client box := by
  obtain ⟨empty, none⟩ := Mailbox.Box.stuck room stuck
  have all (producer : Producer) : entriesOf producer box.taken = box.whole producer := by
    rw [Mailbox.Box.whole, Mailbox.Box.sent, empty, none, List.append_nil, List.append_nil]
  constructor
  · rw [mails_filterMap ran display_only, all, box_whole ran, ← mail_display]
    rfl
  · rw [mails_filterMap ran cursor_only, all, box_whole ran, ← @mail_cursor jpeg]
    rfl
  · rw [all, box_whole ran]
    rfl

end Taken

/-- Whatever the servers of the three channels send, and however the tasks and the embedder take
turns: the mode of the mouse comes first, the events of each channel come in their order with
nothing lost between them, no more wait than the mailbox has room for, and a turn that finds
nothing to do finds that everything has come. No schedule goes on forever. -/
theorem mailbox_delivers (jpeg : JpegDecoder) (client : SpiceClient) {capacity : Nat}
    {moves : List (Move Producer)} {box : Box Producer Mail} (room : 0 < capacity)
    (ran : (client.box jpeg).run capacity moves = some box) :
    Delivered jpeg client box ∧ box.queue.length ≤ capacity ∧
      ((∀ move, box.step capacity move = none) → Complete jpeg client box) ∧
      moves.length + box.work = (client.box jpeg).work := by
  refine ⟨box_delivered ran, Mailbox.Box.run_bounded ran room, box_complete room ran, ?_⟩
  rw [Nat.add_comm]
  exact Mailbox.Box.run_work ran

def droppedClient : SpiceClient where
  currentMouseMode := 1
  main := ⟨true, []⟩
  dropped := true
  display :=
    ⟨true, [.arrive (Net.streamOf ((Net.Channel.new true).writeAll [(Proto.DisplayMsg.MARK, [])])),
      .read 6]⟩
  cursor :=
    ⟨true, [.arrive (Net.streamOf ((Net.Channel.new true).writeAll [(Proto.CursorMsg.HIDE, [])])),
      .read 6]⟩

def droppedMoves : List (Move Producer) :=
  [.take, .send .cursor, .take, .send .main, .take, .send .display, .take]

theorem mailbox_delivers_dropped :
    ∃ box, (droppedClient.box noVideo).run 1 droppedMoves = some box ∧
      Delivered noVideo droppedClient box ∧ box.queue.length ≤ 1 ∧
      ((∀ move, box.step 1 move = none) → Complete noVideo droppedClient box) ∧
      droppedMoves.length + box.work = (droppedClient.box noVideo).work :=
  ⟨_, rfl, mailbox_delivers noVideo droppedClient (by simp) rfl⟩

end Capsaicin.Client
