/-
A bounded queue between a producer that never waits and a consumer. An entry that finds the
queue full is dropped.
-/

import Mathlib.Logic.Function.Iterate

namespace LossyQueue

variable {β : Type}

/-- What waits in the queue, and what the consumer has taken, in its order. -/
structure Channel (β : Type) where
  queue : List β
  delivered : List β
  deriving DecidableEq, Repr

namespace Channel

def empty : Channel β := { queue := [], delivered := [] }

def trySend (capacity : Nat) (channel : Channel β) (entry : β) : Channel β :=
  if channel.queue.length < capacity then { channel with queue := channel.queue ++ [entry] }
  else channel

def drain (channel : Channel β) : Channel β :=
  match channel.queue with
  | [] => channel
  | entry :: rest => { queue := rest, delivered := channel.delivered ++ [entry] }

/-- All that the consumer will have got once the queue is empty. -/
def accepted (channel : Channel β) : List β := channel.delivered ++ channel.queue

variable {capacity : Nat} {channel : Channel β} {entry : β}

theorem accepted_trySend (room : channel.queue.length < capacity) :
    (channel.trySend capacity entry).accepted = channel.accepted ++ [entry] := by
  rw [trySend, if_pos room]
  exact (List.append_assoc _ _ _).symm

theorem trySend_full (full : ¬ channel.queue.length < capacity) :
    channel.trySend capacity entry = channel :=
  if_neg full

theorem accepted_drain (channel : Channel β) : channel.drain.accepted = channel.accepted := by
  unfold drain accepted
  cases waits : channel.queue with
  | nil =>
      dsimp only
      rw [waits]
  | cons entry rest => simp

theorem queue_drain (channel : Channel β) : channel.drain.queue = channel.queue.tail := by
  unfold drain
  cases waits : channel.queue with
  | nil => exact waits
  | cons entry rest => rfl

theorem accepted_drains (channel : Channel β) (count : Nat) :
    (drain^[count] channel).accepted = channel.accepted := by
  induction count generalizing channel with
  | zero => rfl
  | succ count ih => rw [Function.iterate_succ_apply, ih, accepted_drain]

theorem queue_drains (channel : Channel β) (count : Nat) :
    (drain^[count] channel).queue = channel.queue.drop count := by
  induction count generalizing channel with
  | zero => rfl
  | succ count ih => rw [Function.iterate_succ_apply, ih, queue_drain, List.drop_tail]

theorem delivered_eq (idle : channel.queue = []) : channel.delivered = channel.accepted := by
  rw [accepted, idle, List.append_nil]

end Channel

end LossyQueue
