/-
A bounded queue with several senders and one receiver. A sender that finds the queue full waits.
-/

import Mathlib.Algebra.BigOperators.Group.Finset.Piecewise
import Mathlib.Logic.Function.Basic

namespace Mailbox

variable {ι β : Type} [DecidableEq ι]

/-- What each sender has yet to send, what is in the queue and what the receiver has taken. -/
structure Box (ι β : Type) where
  pending : ι → List β
  queue : List (ι × β)
  taken : List (ι × β)

inductive Move (ι : Type) where
  | send (sender : ι)
  | take

namespace Box

def step (capacity : Nat) (box : Box ι β) : Move ι → Option (Box ι β)
  | .send sender =>
      match box.pending sender with
      | [] => none
      | entry :: rest =>
          if box.queue.length < capacity then
            some
              { box with
                pending := Function.update box.pending sender rest
                queue := box.queue ++ [(sender, entry)] }
          else none
  | .take =>
      match box.queue with
      | [] => none
      | entry :: rest => some { box with queue := rest, taken := box.taken ++ [entry] }

def run (capacity : Nat) : Box ι β → List (Move ι) → Option (Box ι β)
  | box, [] => some box
  | box, move :: rest => (box.step capacity move).bind fun next => next.run capacity rest

def sent (box : Box ι β) : List (ι × β) := box.taken ++ box.queue

def entriesOf (sender : ι) (entries : List (ι × β)) : List β :=
  (entries.filter fun entry => entry.1 = sender).map Prod.snd

def whole (box : Box ι β) (sender : ι) : List β := entriesOf sender box.sent ++ box.pending sender

variable {capacity : Nat} {box next last : Box ι β} {move : Move ι} {moves : List (Move ι)}

/-! ### One move -/

theorem step_cases (stepped : box.step capacity move = some next) :
    (∃ sender entry rest, move = .send sender ∧ box.pending sender = entry :: rest ∧
        box.queue.length < capacity ∧
        next =
          { box with
            pending := Function.update box.pending sender rest
            queue := box.queue ++ [(sender, entry)] }) ∨
      ∃ entry rest, move = .take ∧ box.queue = entry :: rest ∧
        next = { box with queue := rest, taken := box.taken ++ [entry] } := by
  cases move with
  | send sender =>
      rw [step] at stepped
      cases waits : box.pending sender with
      | nil =>
          rw [waits] at stepped
          cases stepped
      | cons entry rest =>
          rw [waits] at stepped
          dsimp only at stepped
          split at stepped
          · rename_i room
            cases stepped
            exact Or.inl ⟨sender, entry, rest, rfl, waits, room, rfl⟩
          · cases stepped
  | take =>
      rw [step] at stepped
      cases waits : box.queue with
      | nil =>
          rw [waits] at stepped
          cases stepped
      | cons entry rest =>
          rw [waits] at stepped
          cases stepped
          exact Or.inr ⟨entry, rest, rfl, rfl, rfl⟩

theorem entriesOf_append (sender : ι) (first second : List (ι × β)) :
    entriesOf sender (first ++ second) = entriesOf sender first ++ entriesOf sender second := by
  simp [entriesOf]

/-- Nothing is lost, and nothing overtakes anything of its own sender. -/
theorem step_whole (stepped : box.step capacity move = some next) (sender : ι) :
    next.whole sender = box.whole sender := by
  rcases step_cases stepped with ⟨other, entry, rest, _move, waits, _room, rfl⟩ |
    ⟨entry, rest, _move, waits, rfl⟩
  · unfold whole sent
    dsimp only
    rw [← List.append_assoc box.taken, entriesOf_append _ (box.taken ++ box.queue), List.append_assoc]
    by_cases own : other = sender
    · subst own
      rw [Function.update_self, waits]
      simp [entriesOf]
    · rw [Function.update_of_ne (Ne.symm own)]
      simp [entriesOf, own]
  · simp [whole, sent, waits]

theorem step_sent (stepped : box.step capacity move = some next) : box.sent <+: next.sent := by
  rcases step_cases stepped with ⟨sender, entry, rest, _move, _waits, _room, rfl⟩ |
    ⟨entry, rest, _move, waits, rfl⟩
  · exact ⟨[(sender, entry)], by simp [sent]⟩
  · exact ⟨[], by simp [sent, waits]⟩

theorem step_bounded (stepped : box.step capacity move = some next)
    (bounded : box.queue.length ≤ capacity) : next.queue.length ≤ capacity := by
  rcases step_cases stepped with ⟨sender, entry, rest, _move, _waits, room, rfl⟩ |
    ⟨entry, rest, _move, waits, rfl⟩
  · rw [List.length_append]
    exact room
  · rw [waits, List.length_cons] at bounded
    exact Nat.le_of_succ_le bounded

/-- What is left to do: two moves for an entry that is pending, and one for an entry in the queue. -/
def work [Fintype ι] (box : Box ι β) : Nat :=
  2 * ∑ sender, (box.pending sender).length + box.queue.length

theorem step_work [Fintype ι] (stepped : box.step capacity move = some next) :
    next.work + 1 = box.work := by
  rcases step_cases stepped with ⟨sender, entry, rest, _move, waits, _room, rfl⟩ |
    ⟨entry, rest, _move, waits, rfl⟩
  · have own := Finset.add_sum_erase Finset.univ (fun other => (box.pending other).length)
      (Finset.mem_univ sender)
    have own' := Finset.add_sum_erase Finset.univ
      (fun other => (Function.update box.pending sender rest other).length) (Finset.mem_univ sender)
    have others : ∑ other ∈ Finset.univ.erase sender,
          (Function.update box.pending sender rest other).length =
        ∑ other ∈ Finset.univ.erase sender, (box.pending other).length :=
      Finset.sum_congr rfl fun other member => by
        rw [Function.update_of_ne (Finset.ne_of_mem_erase member)]
    rw [Function.update_self, others] at own'
    rw [waits, List.length_cons] at own
    simp only [work, List.length_append, List.length_singleton]
    omega
  · simp [work, waits]
    omega

/-- When no move can be made everything has been taken. -/
theorem stuck (room : 0 < capacity) (none : ∀ move, box.step capacity move = none) :
    box.queue = [] ∧ ∀ sender, box.pending sender = [] := by
  have empty : box.queue = [] := by
    have take := none .take
    rw [step] at take
    cases waits : box.queue with
    | nil => rfl
    | cons entry rest =>
        rw [waits] at take
        cases take
  refine ⟨empty, ?_⟩
  intro sender
  have send := none (.send sender)
  rw [step] at send
  cases waits : box.pending sender with
  | nil => rfl
  | cons entry rest =>
      rw [waits] at send
      dsimp only at send
      rw [if_pos (by rw [empty]; exact room)] at send
      cases send

/-! ### A schedule -/

theorem run_induct {keeps : Box ι β → Box ι β → Prop} (here : ∀ box, keeps box box)
    (there : ∀ {box next last : Box ι β} {move}, box.step capacity move = some next →
      keeps next last → keeps box last) (ran : box.run capacity moves = some last) : keeps box last := by
  induction moves generalizing box with
  | nil =>
      cases ran
      exact here last
  | cons move rest ih =>
      rcases Option.bind_eq_some_iff.mp ran with ⟨next, stepped, later⟩
      exact there stepped (ih later)

theorem run_whole (ran : box.run capacity moves = some last) (sender : ι) :
    last.whole sender = box.whole sender :=
  @run_induct _ _ _ capacity box last moves (fun box last => last.whole sender = box.whole sender)
    (fun _box => rfl) (fun stepped later => later.trans (step_whole stepped sender)) ran

theorem run_sent (ran : box.run capacity moves = some last) : box.sent <+: last.sent :=
  @run_induct _ _ _ capacity box last moves (fun box last => box.sent <+: last.sent)
    (fun box => List.prefix_refl box.sent) (fun stepped later => (step_sent stepped).trans later) ran

theorem run_bounded (ran : box.run capacity moves = some last)
    (bounded : box.queue.length ≤ capacity) : last.queue.length ≤ capacity :=
  @run_induct _ _ _ capacity box last moves
    (fun box last => box.queue.length ≤ capacity → last.queue.length ≤ capacity)
    (fun _box bounded => bounded) (fun stepped later bounded => later (step_bounded stepped bounded))
    ran bounded

theorem run_work [Fintype ι] (ran : box.run capacity moves = some last) :
    last.work + moves.length = box.work := by
  induction moves generalizing box with
  | nil =>
      cases ran
      rfl
  | cons move rest ih =>
      rcases Option.bind_eq_some_iff.mp ran with ⟨next, stepped, later⟩
      rw [← step_work stepped, ← ih later, List.length_cons]
      omega

theorem taken_prefix (box : Box ι β) (sender : ι) :
    entriesOf sender box.taken <+: box.whole sender := by
  unfold whole sent
  rw [entriesOf_append, List.append_assoc]
  exact List.prefix_append _ _

end Box

end Mailbox
