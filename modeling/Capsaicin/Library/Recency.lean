/-
Queues of keyed items, the oldest first. A new item takes the place of the one with its
key, at the end of the queue, and the oldest go until the rest is within a budget.
-/

import Mathlib.Algebra.Ring.Nat
import Mathlib.Data.List.Basic
import Mathlib.Data.List.Infix
import Mathlib.Data.List.Nodup

namespace Recency

variable {α κ : Type} [DecidableEq κ] (key : α → κ) (weight : α → Nat) (cap : Nat)

def total (queue : List α) : Nat := (queue.map weight).sum

def without (queue : List α) (gone : κ) : List α := queue.filter fun item => key item ≠ gone

def push (queue : List α) (item : α) : List α := without key queue (key item) ++ [item]

/-- The longest rest within the budget, and the last item in any case. -/
def trim : List α → List α
  | [] => []
  | [item] => [item]
  | item :: next :: rest =>
      if cap < total weight (item :: next :: rest) then trim (next :: rest)
      else item :: next :: rest

variable {key weight cap}

@[simp] theorem total_nil : total weight ([] : List α) = 0 := rfl

@[simp] theorem total_cons (item : α) (queue : List α) :
    total weight (item :: queue) = weight item + total weight queue := by
  simp [total]

@[simp] theorem total_append (queue queue' : List α) :
    total weight (queue ++ queue') = total weight queue + total weight queue' := by
  simp [total]

theorem mem_without {queue : List α} {gone : κ} {item : α} :
    item ∈ without key queue gone ↔ item ∈ queue ∧ key item ≠ gone := by
  simp [without]

theorem without_split {before behind : List α} {item : α}
    (once : ((before ++ item :: behind).map key).Nodup) :
    without key (before ++ item :: behind) (key item) = before ++ behind := by
  rw [List.map_append, List.map_cons] at once
  have apart := List.nodup_middle.mp once
  rw [List.nodup_cons, ← List.map_append] at apart
  have others : ∀ other ∈ before ++ behind, key other ≠ key item := by
    intro other member same
    exact apart.1 (same ▸ List.mem_map_of_mem member)
  unfold without
  rw [List.filter_append, List.filter_cons_of_neg (by simp), ← List.filter_append]
  exact List.filter_eq_self.mpr fun other member => decide_eq_true (others other member)

theorem without_absent {queue : List α} {gone : κ} (absent : ∀ item ∈ queue, key item ≠ gone) :
    without key queue gone = queue :=
  List.filter_eq_self.mpr fun item member => decide_eq_true (absent item member)

/-! ### New items -/

theorem keys_without {queue : List α} {gone : κ} (once : (queue.map key).Nodup) :
    ((without key queue gone).map key).Nodup :=
  once.sublist (List.filter_sublist.map key)

theorem keys_push {queue : List α} {item : α} (once : (queue.map key).Nodup) :
    ((push key queue item).map key).Nodup := by
  rw [push, List.map_append, List.nodup_append]
  refine ⟨keys_without once, List.nodup_singleton _, ?_⟩
  intro first front second last same
  obtain ⟨other, member, rfl⟩ := List.mem_map.mp front
  rw [List.map_singleton, List.mem_singleton] at last
  exact (mem_without.mp member).2 (same.trans last)

theorem push_suffix {queue whole : List α} (suffix : queue <:+ whole) (item : α) :
    push key queue item <:+ push key whole item := by
  obtain ⟨front, rfl⟩ := suffix
  refine ⟨without key front (key item), ?_⟩
  unfold push without
  rw [List.filter_append, List.append_assoc]

/-! ### The budget -/

theorem trim_suffix (queue : List α) : trim weight cap queue <:+ queue := by
  induction queue with
  | nil => exact List.suffix_rfl
  | cons item rest ih =>
      cases rest with
      | nil => exact List.suffix_rfl
      | cons next rest =>
          rw [trim]
          split
          · exact ih.trans (List.suffix_cons item (next :: rest))
          · exact List.suffix_rfl

theorem trim_concat (queue : List α) (item : α) :
    ∃ front, trim weight cap (queue ++ [item]) = front ++ [item] := by
  induction queue with
  | nil => exact ⟨[], rfl⟩
  | cons first rest ih =>
      cases rest with
      | nil =>
          change ∃ front, trim weight cap [first, item] = front ++ [item]
          rw [trim]
          split
          · exact ⟨[], rfl⟩
          · exact ⟨[first], rfl⟩
      | cons next rest =>
          change ∃ front, trim weight cap (first :: next :: (rest ++ [item])) = front ++ [item]
          rw [trim]
          split
          · exact ih
          · exact ⟨first :: next :: rest, rfl⟩

theorem trim_within (queue : List α) :
    total weight (trim weight cap queue) ≤ cap ∨ (trim weight cap queue).length ≤ 1 := by
  induction queue with
  | nil => exact Or.inr (Nat.zero_le 1)
  | cons item rest ih =>
      cases rest with
      | nil => exact Or.inr (Nat.le_refl 1)
      | cons next rest =>
          rw [trim]
          split
          · exact ih
          · rename_i within
            exact Or.inl (Nat.not_lt.mp within)

/-- What goes has to go: with the item before it the rest would be too heavy. -/
theorem trim_stops {queue front : List α} {item : α}
    (split : queue = front ++ item :: trim weight cap queue) :
    cap < weight item + total weight (trim weight cap queue) := by
  induction queue generalizing front with
  | nil =>
      have impossible := congrArg List.length split
      simp at impossible
  | cons first rest ih =>
      cases rest with
      | nil =>
          have impossible := congrArg List.length split
          simp [trim] at impossible
      | cons next rest =>
          rw [trim] at split ⊢
          by_cases heavy : cap < total weight (first :: next :: rest)
          · rw [if_pos heavy] at split ⊢
            cases front with
            | nil =>
                obtain ⟨rfl, same⟩ := List.cons.inj split
                rw [← same, ← total_cons]
                exact heavy
            | cons head front => exact ih (List.cons.inj split).2
          · rw [if_neg heavy] at split
            have impossible := congrArg List.length split
            simp at impossible
            omega

theorem trim_all {queue : List α} (within : total weight queue ≤ cap) :
    trim weight cap queue = queue := by
  cases queue with
  | nil => rfl
  | cons item rest =>
      cases rest with
      | nil => rfl
      | cons next rest => rw [trim, if_neg (Nat.not_lt.mpr within)]

theorem trim_short {queue : List α} (short : queue.length ≤ 1) :
    trim weight cap queue = queue := by
  cases queue with
  | nil => rfl
  | cons item rest =>
      cases rest with
      | nil => rfl
      | cons next rest =>
          simp at short

theorem trim_drop {queue : List α} {item : α} (heavy : cap < total weight (item :: queue))
    (more : queue ≠ []) : trim weight cap (item :: queue) = trim weight cap queue := by
  cases queue with
  | nil => exact absurd rfl more
  | cons next rest => rw [trim, if_pos heavy]

end Recency
