/-
Cost counters of which the cheapest one decides. Each of them grows with every use,
by at least one and at most `rate`, and now and then all of them are halved. The
counters then stay within a fixed ratio of the least one.
-/

import Mathlib.Data.Nat.Basic
import Mathlib.Tactic.Ring

namespace Counters

/-- `best` is the largest index of `[low, high)` that attains the least counter there. -/
structure LastMinimum (counter : Nat → Nat) (low high best : Nat) : Prop where
  lower : low ≤ best
  upper : best < high
  least : ∀ i, low ≤ i → i < high → counter best ≤ counter i
  last : ∀ i, best < i → i < high → counter best < counter i

theorem LastMinimum.single (counter : Nat → Nat) (only : Nat) :
    LastMinimum counter only (only + 1) only where
  lower := Nat.le_refl only
  upper := Nat.lt_succ_self only
  least := by
    intro i above below
    have same : i = only := by omega
    rw [same]
  last := by
    intro i above below
    omega

theorem LastMinimum.extend {counter : Nat → Nat} {low high best : Nat}
    (minimum : LastMinimum counter (low + 1) high best) :
    LastMinimum counter low high (if counter low < counter best then low else best) := by
  have upper := minimum.upper
  have lower := minimum.lower
  split
  · rename_i smaller
    constructor
    · exact Nat.le_refl low
    · omega
    · intro i above below
      rcases Nat.eq_or_lt_of_le above with same | later
      · rw [same]
      · exact Nat.le_of_lt (Nat.lt_of_lt_of_le smaller (minimum.least i later below))
    · intro i later below
      exact Nat.lt_of_lt_of_le smaller (minimum.least i later below)
  · rename_i notSmaller
    constructor
    · omega
    · exact upper
    · intro i above below
      rcases Nat.eq_or_lt_of_le above with same | later
      · rw [← same]
        exact Nat.le_of_not_lt notSmaller
      · exact minimum.least i later below
    · exact minimum.last

/-- The counters lie between `least`, which one of them is, and `rate * (least + 1)`. -/
structure Balanced (count rate : Nat) (counter : Nat → Nat) (least : Nat) : Prop where
  attained : ∃ i, i < count ∧ counter i = least
  lower : ∀ i, i < count → least ≤ counter i
  upper : ∀ i, i < count → counter i ≤ rate * (least + 1)

theorem Balanced.zero {count rate : Nat} (some : 0 < count) :
    Balanced count rate (fun _ => 0) 0 where
  attained := ⟨0, some, rfl⟩
  lower := fun _ _ => Nat.le_refl 0
  upper := fun _ _ => Nat.zero_le _

theorem Balanced.grow {count rate least best : Nat} {counter grown : Nat → Nat}
    (balanced : Balanced count rate counter least)
    (steps : ∀ i, i < count → counter i + 1 ≤ grown i ∧ grown i ≤ counter i + rate)
    (minimum : LastMinimum grown 0 count best) :
    Balanced count rate grown (grown best) ∧ grown best ≤ least + rate := by
  obtain ⟨cheapest, inRange, attained⟩ := balanced.attained
  have above : least + 1 ≤ grown best := by
    have lower := balanced.lower best minimum.upper
    have grew := (steps best minimum.upper).1
    omega
  constructor
  · constructor
    · exact ⟨best, minimum.upper, rfl⟩
    · intro i below
      exact minimum.least i (Nat.zero_le i) below
    · intro i below
      have upper := balanced.upper i below
      have grew := (steps i below).2
      calc grown i ≤ rate * (least + 1) + rate := by omega
        _ = rate * (least + 1 + 1) := by ring
        _ ≤ rate * (grown best + 1) := Nat.mul_le_mul_left rate (by omega)
  · have least' := minimum.least cheapest (Nat.zero_le cheapest) inRange
    have grew := (steps cheapest inRange).2
    omega

theorem Balanced.halve {count rate least : Nat} {counter : Nat → Nat}
    (balanced : Balanced count rate counter least) :
    Balanced count rate (fun i => counter i / 2) (least / 2) where
  attained := by
    obtain ⟨i, below, attained⟩ := balanced.attained
    exact ⟨i, below, by rw [attained]⟩
  lower := fun i below => Nat.div_le_div_right (balanced.lower i below)
  upper := by
    intro i below
    have upper := balanced.upper i below
    have double : least + 1 ≤ 2 * (least / 2 + 1) := by omega
    have half : rate * (least + 1) ≤ 2 * (rate * (least / 2 + 1)) := by
      calc rate * (least + 1) ≤ rate * (2 * (least / 2 + 1)) := Nat.mul_le_mul_left rate double
        _ = 2 * (rate * (least / 2 + 1)) := by ring
    omega

theorem Balanced.congr {count rate least : Nat} {counter counter' : Nat → Nat}
    (balanced : Balanced count rate counter least)
    (same : ∀ i, i < count → counter' i = counter i) : Balanced count rate counter' least where
  attained := by
    obtain ⟨i, below, attained⟩ := balanced.attained
    exact ⟨i, below, (same i below).trans attained⟩
  lower := by
    intro i below
    rw [same i below]
    exact balanced.lower i below
  upper := by
    intro i below
    rw [same i below]
    exact balanced.upper i below

end Counters
