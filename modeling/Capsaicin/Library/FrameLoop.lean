/-
Programs that read one frame after the other and answer each.
-/

import Capsaicin.Library.Duplex
import Capsaicin.Library.Framing

namespace Duplex

open Framing (FrameReader)

variable {β ρ μ σ α : Type}

/-- A handler answers a message with what it writes, and goes on or ends. -/
abbrev Handler (β μ σ α : Type) := σ → μ → List β × (σ ⊕ α)

inductive Stage (β ρ σ α : Type) where
  | waiting (reading : ρ) (state : σ)
  | writing (items : List β) (next : σ ⊕ α)
  | ended (result : α)

namespace Stage

def behind (reader : FrameReader β ρ μ) : σ ⊕ α → Stage β ρ σ α
  | .inl state => .waiting reader.start state
  | .inr result => .ended result

def fed (handle : Handler β μ σ α) (failed : α) (state : σ) : Framing.Fed ρ μ → Stage β ρ σ α
  | .more reading => .waiting reading state
  | .done message => .writing (handle state message).1 (handle state message).2
  | .failed => .ended failed

def act (reader : FrameReader β ρ μ) (handle : Handler β μ σ α) (failed : α) :
    Stage β ρ σ α → Act β (Stage β ρ σ α) α
  | .waiting reading state => .read fun item => fed handle failed state (reader.feed reading item)
  | .writing items next => .write items (behind reader next)
  | .ended result => .done result

/-! ### One message -/

variable {reader : FrameReader β ρ μ} {handle : Handler β μ σ α} {failed : α}

theorem spells_trail {reading : ρ} {state : σ} {bytes : List β} {message : μ}
    (spells : reader.Spells reading bytes message) :
    Trail (act reader handle failed) (.waiting reading state) bytes []
      (.writing (handle state message).1 (handle state message).2) := by
  induction spells with
  | @more reading byte next bytes message fedMore _spells ih =>
      refine .read rfl ?_
      rw [fedMore]
      exact ih
  | @done reading byte message fedDone =>
      refine .read rfl ?_
      rw [fedDone]
      exact .refl _

theorem writing_trail (items : List β) (next : σ ⊕ α) :
    Trail (act reader handle failed) (.writing items next) [] items (behind reader next) := by
  have one : Trail (act reader handle failed) (.writing items next) [] (items ++ [])
      (behind reader next) := .write rfl (.refl _)
  rw [List.append_nil] at one
  exact one

theorem message_trail {state : σ} {bytes : List β} {message : μ}
    (spells : reader.Spells reader.start bytes message) :
    Trail (act reader handle failed) (.waiting reader.start state) bytes (handle state message).1
      (behind reader (handle state message).2) := by
  have read : Trail (act reader handle failed) (.waiting reader.start state) bytes []
      (.writing (handle state message).1 (handle state message).2) := spells_trail spells
  have whole := read.trans (writing_trail (handle state message).1 (handle state message).2)
  rw [List.append_nil, List.nil_append] at whole
  exact whole

/-! ### All messages -/

/-- With these messages a handler has written that and ended so. -/
inductive Heard (handle : Handler β μ σ α) : σ → List μ → List β → α → Prop where
  | last {state message items result} :
      handle state message = (items, .inr result) → Heard handle state [message] items result
  | more {state message items next messages outs result} :
      handle state message = (items, .inl next) → Heard handle next messages outs result →
        Heard handle state (message :: messages) (items ++ outs) result

inductive Hears (handle : Handler β μ σ α) : σ → List μ → List β → σ → Prop where
  | nil (state : σ) : Hears handle state [] [] state
  | cons {state message items next messages outs last} :
      handle state message = (items, .inl next) → Hears handle next messages outs last →
        Hears handle state (message :: messages) (items ++ outs) last

theorem hears_trail {reading : ρ} {state last : σ} {bytes outs : List β} {messages : List μ}
    (reads : reader.Reads reading bytes messages) (hears : Hears handle state messages outs last) :
    Trail (act reader handle failed) (.waiting reading state) bytes outs
      (.waiting reader.start last) := by
  induction reads generalizing state outs with
  | nil =>
      cases hears with
      | nil => exact .refl _
  | @more reading byte next stream messages fedMore _reads ih =>
      refine .read rfl ?_
      rw [fedMore]
      exact ih hears
  | @done reading byte message stream messages fedDone _reads ih =>
      cases hears with
      | cons handled later =>
          refine .read rfl ?_
          rw [fedDone, fed, handled]
          exact .write rfl (ih later)

def Ahead (reader : FrameReader β ρ μ) (handle : Handler β μ σ α) (ins outs : List β)
    (result : α) : Stage β ρ σ α → Prop
  | .waiting reading state =>
      ∃ messages, reader.Reads reading ins messages ∧ Heard handle state messages outs result
  | .writing items (.inl next) =>
      ∃ messages rest, outs = items ++ rest ∧ reader.Reads reader.start ins messages ∧
        Heard handle next messages rest result
  | .writing items (.inr found) => ins = [] ∧ outs = items ∧ result = found
  | .ended found => ins = [] ∧ outs = [] ∧ result = found

theorem trail_ahead {stage : Stage β ρ σ α} {ins outs : List β} {result : α}
    (trail : Trail (act reader handle failed) stage ins outs (.ended result))
    (good : result ≠ failed) : Ahead reader handle ins outs result stage := by
  generalize end_ : Stage.ended result = last at trail
  induction trail with
  | refl stage =>
      subst end_
      exact ⟨rfl, rfl, rfl⟩
  | @write stage next last items ins outs does _later ih =>
      have behind := ih end_
      cases stage with
      | waiting reading state => cases does
      | ended found => cases does
      | writing items' next' =>
          cases does
          cases next' with
          | inl state =>
              obtain ⟨messages, reads, heard⟩ := behind
              exact ⟨messages, outs, rfl, reads, heard⟩
          | inr found =>
              obtain ⟨none, rfl, same⟩ := behind
              exact ⟨none, List.append_nil items, same⟩
  | @read stage next last item ins outs does _later ih =>
      have behind := ih end_
      cases stage with
      | writing items' next' => cases does
      | ended found => cases does
      | waiting reading state =>
          cases does
          dsimp only at behind
          cases fedOne : reader.feed reading item with
          | more next =>
              rw [fedOne] at behind
              obtain ⟨messages, reads, heard⟩ := behind
              exact ⟨messages, .more fedOne reads, heard⟩
          | failed =>
              rw [fedOne] at behind
              exact absurd behind.2.2 good
          | done message =>
              rw [fedOne, fed] at behind
              cases answer : handle state message with
              | mk items next =>
                  rw [answer] at behind
                  cases next with
                  | inl after =>
                      obtain ⟨messages, rest, rfl, reads, heard⟩ := behind
                      exact ⟨message :: messages, .done fedOne reads, .more answer heard⟩
                  | inr found =>
                      obtain ⟨rfl, rfl, rfl⟩ := behind
                      exact ⟨[message], .done fedOne .nil, .last answer⟩

/-- A loop that has ended, and not because a read failed, has read whole frames. -/
theorem ended_heard {reading : ρ} {state : σ} {ins outs : List β} {result : α}
    (trail : Trail (act reader handle failed) (.waiting reading state) ins outs (.ended result))
    (good : result ≠ failed) :
    ∃ messages, reader.Reads reading ins messages ∧ Heard handle state messages outs result :=
  trail_ahead trail good

/-! ### How much a loop writes -/

/-- From these states on, no message is answered with more than it weighs. -/
structure Frugal (reader : FrameReader β ρ μ) (handle : Handler β μ σ α) (good : σ → Prop) :
    Prop where
  answers : ∀ {state message}, good state →
    (handle state message).1.length ≤ reader.weight message
  keeps : ∀ {state message next}, good state → (handle state message).2 = .inl next → good next

def Good (good : σ → Prop) : Stage β ρ σ α → Prop
  | .waiting _ state => good state
  | .writing _ (.inl state) => good state
  | _ => True

/-- What a loop may write before it reads more. -/
def owed (reader : FrameReader β ρ μ) : Stage β ρ σ α → Nat
  | .waiting reading _ => reader.taken reading
  | .writing items _ => items.length
  | .ended _ => 0

theorem behind_owed (next : σ ⊕ α) :
    owed reader (behind reader next : Stage β ρ σ α) = 0 := by
  cases next with
  | inl state => exact reader.taken_zero.mpr rfl
  | inr result => rfl

theorem behind_good {good : σ → Prop} {items : List β} {next : σ ⊕ α}
    (fine : Good good (.writing items next : Stage β ρ σ α)) :
    Good good (behind reader next : Stage β ρ σ α) := by
  cases next with
  | inl state => exact fine
  | inr result => trivial

theorem fed_owed {good : σ → Prop} {reading : ρ} {state : σ} (frugal : Frugal reader handle good)
    (fine : good state) (item : β) :
    owed reader (fed handle failed state (reader.feed reading item)) ≤ reader.taken reading + 1 ∧
      Good good (fed handle failed state (reader.feed reading item) : Stage β ρ σ α) := by
  cases fedOne : reader.feed reading item with
  | more next => exact ⟨reader.taken_more fedOne, fine⟩
  | failed => exact ⟨Nat.zero_le _, trivial⟩
  | done message =>
      refine ⟨Nat.le_trans (frugal.answers fine) (reader.weight_done fedOne), ?_⟩
      change Good good (.writing (handle state message).1 (handle state message).2)
      cases answer : (handle state message).2 with
      | inl next => exact frugal.keeps fine answer
      | inr result => trivial

/-- A loop never writes more than it has read. -/
theorem frugal_trail {good : σ → Prop} {stage last : Stage β ρ σ α} {ins outs : List β}
    (frugal : Frugal reader handle good) (fine : Good good stage)
    (trail : Trail (act reader handle failed) stage ins outs last) :
    outs.length ≤ ins.length + owed reader stage := by
  induction trail with
  | refl stage => exact Nat.zero_le _
  | @write stage next last items ins outs does _later ih =>
      cases stage with
      | waiting reading state => cases does
      | ended found => cases does
      | writing items' next' =>
          cases does
          have rest := ih (behind_good fine)
          rw [behind_owed] at rest
          rw [List.length_append, owed]
          omega
  | @read stage next last item ins outs does _later ih =>
      cases stage with
      | writing items' next' => cases does
      | ended found => cases does
      | waiting reading state =>
          cases does
          obtain ⟨paid, good'⟩ := @fed_owed _ _ _ _ _ reader handle failed good reading state frugal
            fine item
          have rest := ih good'
          dsimp only at rest
          rw [List.length_cons, owed]
          omega

end Stage

end Duplex
