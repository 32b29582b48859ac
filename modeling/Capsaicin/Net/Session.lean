/-
Sessions in which every message of one side asks the other side for something: what a task has
done for them at any moment, whatever pieces the bytes come in.
-/

import Capsaicin.Net.Delivery
import Mathlib.Data.List.Forall2

namespace Capsaicin.Net

open Framing (Input Task Wake arrived received selectLoop turns)
open Reactive (Machine Turn final trace)

theorem partner {α β : Type} {relates : α → β → Prop} {xs : List α} {ys : List β}
    (all : List.Forall₂ relates xs ys) : ∀ y ∈ ys, ∃ x ∈ xs, relates x y := by
  induction all with
  | nil =>
      intro y member
      cases member
  | cons first _others ih =>
      intro y member
      rcases List.mem_cons.mp member with rfl | later
      · exact ⟨_, List.mem_cons_self, first⟩
      · rcases ih y later with ⟨x, among, related⟩
        exact ⟨x, List.mem_cons_of_mem _ among, related⟩

theorem numbered_partner {κ : Type} {asks : κ → Nat × List UInt8 → Prop} {serial : Nat}
    {commands : List κ} (mini : Bool) {pairs : List (Nat × List UInt8)}
    (asked : List.Forall₂ asks commands pairs) :
    List.Forall₂ (fun command msg => asks command (Message.msgType msg, Message.body msg)) commands
      (numbered mini serial pairs) := by
  induction asked generalizing serial with
  | nil => exact .nil
  | cons first _others ih => exact .cons first ih

theorem numbered_small {serial limit : Nat} (mini : Bool) {pairs : List (Nat × List UInt8)}
    (small : ∀ pair ∈ pairs, pair.2.length ≤ limit) :
    ∀ msg ∈ numbered mini serial pairs, msg.body.length ≤ limit := by
  induction pairs generalizing serial with
  | nil =>
      intro msg member
      cases member
  | cons pair rest ih =>
      intro msg member
      rcases List.mem_cons.mp member with rfl | later
      · exact small pair List.mem_cons_self
      · exact ih (fun other inside => small other (List.mem_cons_of_mem pair inside)) msg later

theorem written_read_first {σ ω : Type} {loop : Machine σ (Input Message Empty) ω} {mini : Bool}
    {pairs : List (Nat × List UInt8)} {wakes : List (Wake UInt8 Empty)} {ahead : List UInt8}
    (state : σ) (types : ∀ pair ∈ pairs, pair.1 < 256 ^ 2)
    (small : ∀ pair ∈ pairs, pair.2.length ≤ DEFAULT_MAX_MESSAGE_SIZE)
    (fewer : mini = false → pairs.length < 2 ^ 64)
    (arrives : arrived wakes ++ ahead = streamOf ((Channel.new mini).writeAll pairs))
    (runs : ∀ msg ∈ numbered mini 1 pairs, ∀ state, (loop state (.message msg)).2 ≠ none) :
    ∃ task rest,
      final (selectLoop (channelReader mini DEFAULT_MAX_MESSAGE_SIZE) loop)
        (Task.start (channelReader mini DEFAULT_MAX_MESSAGE_SIZE) state) wakes = some task ∧
      received (turns (channelReader mini DEFAULT_MAX_MESSAGE_SIZE) loop
        (Task.start (channelReader mini DEFAULT_MAX_MESSAGE_SIZE) state) wakes) ++ rest =
          numbered mini 1 pairs ∧
      (ahead = [] → task.pending = [] → rest = []) := by
  have accepted : pairs.filter (Channel.new mini).accepts = pairs := by
    apply List.filter_eq_self.mpr
    intro pair member
    exact decide_eq_true (small pair member)
  have few : mini = false →
      1 + (pairs.filter (Channel.new mini).accepts).length ≤ 256 ^ 8 := by
    intro full
    have less := fewer full
    rw [accepted]
    omega
  have reads := @writeAll_reads DEFAULT_MAX_MESSAGE_SIZE pairs (Channel.new mini) 1
    (Nat.le_refl _) types (fun _full => rfl) few
  rw [accepted, ← arrives] at reads
  exact Framing.reads_first state reads runs

theorem inputs_received {ω : Type} (turns : List (Turn (Input Message Empty) ω)) :
    turns.map Turn.input = (received turns).map .message := by
  induction turns with
  | nil => rfl
  | cons turn rest ih =>
      rcases turn with ⟨input, output⟩
      cases input with
      | message msg => exact congrArg (Input.message msg :: ·) ih
      | event evt => exact evt.elim

section Session

variable {κ σ ω : Type} {asks : κ → Nat × List UInt8 → Prop} {announces : κ → List ω → Prop}
  {loop : Machine σ (Input Message Empty) ω} {commands : List κ}

/-- What a loop does for every message that asks for something, in whatever state it is. -/
def Serves (asks : κ → Nat × List UInt8 → Prop) (announces : κ → List ω → Prop)
    (loop : Machine σ (Input Message Empty) ω) : Prop :=
  ∀ command msg, asks command (msg.msgType, msg.body) →
    msg.body.length ≤ DEFAULT_MAX_MESSAGE_SIZE →
    ∀ state, ∃ next effects, loop state (.message msg) = (effects, some next) ∧
      announces command effects

theorem Serves.trace (serves : Serves asks announces loop) {messages : List Message}
    (asked : List.Forall₂ (fun command msg => asks command (msg.msgType, msg.body)) commands messages)
    (small : ∀ msg ∈ messages, msg.body.length ≤ DEFAULT_MAX_MESSAGE_SIZE) (state : σ) :
    List.Forall₂ announces commands
      ((Reactive.trace loop state (messages.map .message)).map Turn.output) := by
  induction asked generalizing state with
  | nil => exact .nil
  | @cons command msg commands messages first _others ih =>
      rcases serves command msg first (small msg List.mem_cons_self) state with
        ⟨next, effects, stepped, announced⟩
      rw [List.map_cons, Reactive.trace, stepped]
      exact .cons announced (ih (fun other member => small other (List.mem_cons_of_mem msg member)) next)

/-- A task while the messages of a peer come in: it is running, and has served the first of them;
all of them, if no byte is left. -/
theorem Serves.session (serves : Serves asks announces loop) {mini : Bool}
    {pairs : List (Nat × List UInt8)} {wakes : List (Wake UInt8 Empty)} {ahead : List UInt8}
    (state : σ) (typed : ∀ command pair, asks command pair → pair.1 < 256 ^ 2)
    (asked : List.Forall₂ asks commands pairs)
    (small : ∀ pair ∈ pairs, pair.2.length ≤ DEFAULT_MAX_MESSAGE_SIZE)
    (fewer : mini = false → pairs.length < 2 ^ 64)
    (arrives : arrived wakes ++ ahead = streamOf ((Channel.new mini).writeAll pairs)) :
    ∃ task count,
      final (selectLoop (channelReader mini DEFAULT_MAX_MESSAGE_SIZE) loop)
        (Task.start (channelReader mini DEFAULT_MAX_MESSAGE_SIZE) state) wakes = some task ∧
      List.Forall₂ announces (commands.take count)
        ((turns (channelReader mini DEFAULT_MAX_MESSAGE_SIZE) loop
          (Task.start (channelReader mini DEFAULT_MAX_MESSAGE_SIZE) state) wakes).map
            Turn.output) ∧
      (ahead = [] → task.pending = [] → count = commands.length) := by
  have types : ∀ pair ∈ pairs, pair.1 < 256 ^ 2 := by
    intro pair member
    rcases partner asked pair member with ⟨command, _among, one⟩
    exact typed command pair one
  have askedAll := @numbered_partner κ asks 1 commands mini pairs asked
  have smallAll := @numbered_small 1 DEFAULT_MAX_MESSAGE_SIZE mini pairs small
  have runs : ∀ msg ∈ numbered mini 1 pairs, ∀ state, (loop state (.message msg)).2 ≠ none := by
    intro msg member state
    rcases partner askedAll msg member with ⟨command, _among, one⟩
    rcases serves command msg one (smallAll msg member) state with ⟨next, effects, stepped, _done⟩
    rw [stepped]
    exact Option.some_ne_none next
  rcases written_read_first state types small fewer arrives runs with ⟨task, rest, after, read, all⟩
  have ran := @Framing.turns_trace _ _ _ _ _ ω (channelReader mini DEFAULT_MAX_MESSAGE_SIZE) loop
    (Task.start (channelReader mini DEFAULT_MAX_MESSAGE_SIZE) state) wakes
  generalize turns (channelReader mini DEFAULT_MAX_MESSAGE_SIZE) loop
    (Task.start (channelReader mini DEFAULT_MAX_MESSAGE_SIZE) state) wakes = taken at read ran ⊢
  change taken = Reactive.trace loop state _ at ran
  refine ⟨task, (received taken).length, after, ?_, ?_⟩
  · have first : (numbered mini 1 pairs).take (received taken).length = received taken := by
      rw [← read]
      exact List.take_left' rfl
    have some := List.forall₂_take (received taken).length askedAll
    rw [first] at some
    have short : ∀ msg ∈ received taken, msg.body.length ≤ DEFAULT_MAX_MESSAGE_SIZE := by
      intro msg member
      apply smallAll
      rw [← read]
      exact List.mem_append_left rest member
    have served := serves.trace some short state
    rw [← inputs_received, ← ran] at served
    exact served
  · intro none empty
    have lengths := askedAll.length_eq
    rw [← read, all none empty, List.append_nil] at lengths
    exact lengths.symm

end Session

end Capsaicin.Net
