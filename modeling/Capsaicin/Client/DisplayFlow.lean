/-
The flow control of the display channel. The counter of the task starts anew with every
`SET_ACK`, and its acknowledgements come with the messages that fill a window.
-/

import Capsaicin.Client.Steps

namespace Capsaicin.Client

open FlowControl (Counter Kind spanOf)
open Net (Message)
open Proto
open Reactive (Turn trace final)

variable {jpeg : JpegDecoder} {state next : DisplayState} {msg : Message} {effects : List Effect}

def AckState.counter (ack : AckState) : Counter where
  window := ack.window
  remaining := ack.remaining

def isAckSync : Effect → Bool
  | .write msgType _ => msgType = Msgc.ACK_SYNC
  | .emit _ => false

/-- A write that is no part of the flow control, or an event. -/
def Aloof (effect : Effect) : Prop := isAck effect = false ∧ isAckSync effect = false

def spanBehind (turns : List (Turn Message Effect)) : FlowControl.Span :=
  spanOf (turns.map fun turn => kindOf turn.input)

structure Paced (span : FlowControl.Span) (msg : Message) (effects : List Effect) : Prop where
  acks : ∃ others, effects = others ++ (if span.Fills (kindOf msg) then [ackMessage] else []) ∧
    ∀ effect ∈ others, isAck effect = false
  answer : msg.msgType = Msg.SET_ACK →
    ∃ ack, SetAck.decode msg.body = .ok ack ∧ effects = [ackSync ack]
  syncs : msg.msgType ≠ Msg.SET_ACK → ∀ effect ∈ effects, isAckSync effect = false

theorem AckState.noteMessage_next {ack : AckState} (ready : 0 < ack.window → 0 < ack.remaining) :
    ack.noteMessage.1.counter = (ack.counter.next { kind := .countable, noted := true }).1 ∧
      (if ack.noteMessage.2 then 1 else 0) =
        (ack.counter.next { kind := .countable, noted := true }).2 := by
  unfold AckState.noteMessage Counter.next
  by_cases none : ack.window = 0
  · have idle : ¬ 0 < ack.counter.window := Nat.not_lt.mpr (Nat.le_of_eq none)
    rw [if_pos none, if_neg idle]
    exact ⟨rfl, rfl⟩
  · have known : 0 < ack.counter.window := Nat.pos_of_ne_zero none
    have some : ack.remaining ≠ 0 := Nat.ne_of_gt (ready known)
    rw [if_neg none, if_neg some, if_pos known]
    dsimp only
    rw [if_pos rfl]
    by_cases last : ack.remaining - 1 = 0
    · have last' : ack.counter.remaining - 1 = 0 := last
      rw [if_pos last, if_pos last']
      exact ⟨rfl, rfl⟩
    · have last' : ¬ ack.counter.remaining - 1 = 0 := last
      rw [if_neg last, if_neg last']
      exact ⟨rfl, rfl⟩

theorem decodeDrawCopy_ack {event : DisplayEvent}
    (ran : decodeDrawCopy state msg = .ok (next, event)) : next.ack = state.ack := by
  cases decodeDrawCopy_outcome ran with
  | ignored => rfl
  | missed => rfl
  | drawn => rfl

theorem aloof_emit {event : DisplayEvent} : ∀ effect ∈ [emit event], Aloof effect := by
  intro effect member
  rw [List.mem_singleton.mp member]
  exact ⟨rfl, rfl⟩

theorem Acts.flow {middle : DisplayState} {put : List Effect}
    (acts : Acts jpeg state msg middle put) :
    (msg.msgType ≠ Msg.SET_ACK ∧ middle.ack = state.ack ∧ ∀ effect ∈ put, Aloof effect) ∨
      ∃ ack, msg.msgType = Msg.SET_ACK ∧ SetAck.decode msg.body = .ok ack ∧
        middle.ack = AckState.onSetAck ack.window ∧ put = [ackSync ack] := by
  have other {msgType : Nat} (type : msg.msgType = msgType) (control : msgType ≠ Msg.SET_ACK) :
      msg.msgType ≠ Msg.SET_ACK := fun setAck => control (type.symm.trans setAck)
  cases acts with
  | announced type parsed => exact Or.inr ⟨_, type, parsed, rfl, rfl⟩
  | replied type =>
      refine Or.inl ⟨other type (by decide), rfl, ?_⟩
      intro effect member
      rw [List.mem_singleton.mp member]
      exact ⟨rfl, rfl⟩
  | silent control _aside =>
      exact Or.inl ⟨control, rfl, fun effect member => absurd member List.not_mem_nil⟩
  | told control _aside _plain => exact Or.inl ⟨control, rfl, aloof_emit⟩
  | reset type => exact Or.inl ⟨other type (by decide), rfl, aloof_emit⟩
  | surfaceCreated type => exact Or.inl ⟨other type (by decide), rfl, aloof_emit⟩
  | surfaceDestroyed type => exact Or.inl ⟨other type (by decide), rfl, aloof_emit⟩
  | filled type => exact Or.inl ⟨other type (by decide), rfl, aloof_emit⟩
  | drawn type decoded =>
      exact Or.inl ⟨other type (by decide), decodeDrawCopy_ack decoded, aloof_emit⟩
  | streamCreated type _parsed => exact Or.inl ⟨other type (by decide), rfl, aloof_emit⟩
  | streamed brings ran =>
      have control : msg.msgType ≠ Msg.SET_ACK := by
        cases brings with
        | plain type _parsed => exact other type (by decide)
        | sized type _parsed => exact other type (by decide)
      refine Or.inl ⟨control, rfl, ?_⟩
      rcases emitStreamFrame_frames ran with rfl | ⟨info, frame, _found, _codec, _decoded, rfl⟩
      · exact fun effect member => absurd member List.not_mem_nil
      · exact aloof_emit
  | streamDestroyed type => exact Or.inl ⟨other type (by decide), rfl, aloof_emit⟩
  | allDestroyed type =>
      refine Or.inl ⟨other type (by decide), rfl, ?_⟩
      intro effect member
      rcases List.mem_map.mp member with ⟨id, _live, rfl⟩
      exact ⟨rfl, rfl⟩

theorem AckState.ready {ack : AckState} {span : FlowControl.Span}
    (inStep : ack.counter.InStep span) : 0 < ack.window → 0 < ack.remaining := by
  intro known
  have positive : 0 < span.window := inStep.window ▸ known
  have remaining := inStep.remaining positive
  have small := Nat.mod_lt span.counted positive
  change ack.remaining = _ at remaining
  omega

theorem handle_paced {span : FlowControl.Span} (inStep : state.ack.counter.InStep span)
    (handled : handle jpeg state msg = .ok (next, effects)) :
    next.ack.counter.InStep (span.next (kindOf msg)) ∧ Paced span msg effects := by
  rcases handle_cases handled with ⟨middle, put, armed, behind⟩
  rcases Acts.flow (handleArm_acts (middle, put) armed) with
    ⟨control, same, aloof⟩ | ⟨ack, setAck, parsed, set, rfl⟩
  · rcases behind with ⟨uncounts, rfl, rfl⟩ | ⟨counts, rfl, rfl⟩
    · rw [kindOf_uncounted control uncounts, same]
      refine ⟨inStep, ?_, fun setAck => absurd setAck control, fun _ effect member =>
        (aloof effect member).2⟩
      rw [kindOf_uncounted control uncounts, if_neg fun fills => nomatch fills.1]
      exact ⟨effects, (List.append_nil effects).symm, fun effect member => (aloof effect member).1⟩
    · rw [same]
      rcases AckState.noteMessage_next (AckState.ready inStep) with ⟨counter, due⟩
      rcases inStep.next .countable with ⟨stays, fills⟩
      rw [← due] at fills
      have acks : (if state.ack.noteMessage.2 then [ackMessage] else []) =
          if span.Fills (kindOf msg) then [ackMessage] else [] := by
        rw [kindOf_countable counts]
        by_cases full : span.Fills .countable
        · rw [if_pos full] at fills ⊢
          cases exhausted : state.ack.noteMessage.2 with
          | true => rfl
          | false => simp [exhausted] at fills
        · rw [if_neg full] at fills ⊢
          cases exhausted : state.ack.noteMessage.2 with
          | true => simp [exhausted] at fills
          | false => rfl
      constructor
      · rw [kindOf_countable counts, counter]
        exact stays
      · rw [acks]
        refine ⟨⟨put, rfl, fun effect member => (aloof effect member).1⟩,
          fun setAck => absurd setAck control, ?_⟩
        intro _ effect member
        rcases List.mem_append.mp member with before | last
        · exact (aloof effect before).2
        · split at last
          · rw [List.mem_singleton.mp last]
            rfl
          · cases last
  · rcases behind with ⟨_uncounts, rfl, rfl⟩ | ⟨counts, _next, _effects⟩
    · rw [kindOf_setAck setAck parsed, set]
      refine ⟨⟨rfl, fun _positive => ?_⟩, ?_, fun _ => ⟨ack, parsed, rfl⟩,
        fun control => absurd setAck control⟩
      · change ack.window = ack.window - 0 % ack.window
        rw [Nat.zero_mod, Nat.sub_zero]
      · rw [kindOf_setAck setAck parsed, if_neg fun fills => nomatch fills.1]
        refine ⟨_, (List.append_nil _).symm, fun effect member => ?_⟩
        rw [List.mem_singleton.mp member]
        rfl
    · rw [setAck] at counts
      cases counts

/-- In a run without an error, an acknowledgement comes exactly behind the messages that fill
the last announced window, and every announcement is answered at once. -/
theorem display_acks_windows {messages : List Message} {last : DisplayState}
    {before after : List (Turn Message Effect)} {turn : Turn Message Effect}
    (ran : final (displayLoop jpeg) DisplayState.default messages = some last)
    (split : trace (displayLoop jpeg) DisplayState.default messages = before ++ turn :: after) :
    Paced (spanBehind before) turn.input turn.output := by
  have keeps (before : List (Turn Message Effect)) (state : DisplayState) (msg : Message)
      (effects : List Effect) (next : DisplayState)
      (inStep : state.ack.counter.InStep (spanBehind before))
      (stepped : displayLoop jpeg state msg = (effects, some next)) :
      next.ack.counter.InStep (spanBehind (before ++ [{ input := msg, output := effects }])) := by
    rw [spanBehind, List.map_append, List.map_singleton, FlowControl.spanOf_append]
    exact (handle_paced inStep (displayLoop_handled stepped)).1
  have start : DisplayState.default.ack.counter.InStep (spanBehind []) := Counter.InStep.start
  rcases Reactive.trace_history keeps start ran split with ⟨state, next, inStep, stepped⟩
  exact (handle_paced inStep (displayLoop_handled stepped)).2

def windowOfTwo : Message :=
  .mini Msg.SET_ACK (SetAck.encode { generation := 7, window := 2 })

/-- The second of two messages that count fills a window of two. -/
theorem display_acks_windows_second :
    Paced { window := 2, counted := 1 } (.mini DisplayMsg.MARK []) [emit .mark, ackMessage] := by
  have ran : (final (displayLoop fun _ => .error "no video") DisplayState.default
      [windowOfTwo, .mini DisplayMsg.MARK [], .mini DisplayMsg.MARK []]) = some _ := rfl
  have split : trace (displayLoop fun _ => .error "no video") DisplayState.default
      [windowOfTwo, .mini DisplayMsg.MARK [], .mini DisplayMsg.MARK []] =
        [{ input := windowOfTwo, output := [ackSync { generation := 7, window := 2 }] },
          { input := .mini DisplayMsg.MARK [], output := [emit .mark] }] ++
        { input := .mini DisplayMsg.MARK [], output := [emit .mark, ackMessage] } :: [] := rfl
  exact display_acks_windows ran split

end Capsaicin.Client
