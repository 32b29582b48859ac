/-
Most-significant-first bit strings, and the 32-bit window that a bit reader
shows at a position of an endless stream of bits.
-/

import Mathlib.Data.List.Basic
import Mathlib.Data.Nat.Bitwise
import Mathlib.Tactic.Ring

namespace BitString

def ofNat (count value : Nat) : List Bool :=
  (List.range count).map fun offset => value.testBit (count - 1 - offset)

@[simp] theorem length_ofNat (count value : Nat) : (ofNat count value).length = count := by
  simp only [ofNat, List.length_map, List.length_range]

theorem getElem_ofNat {count value offset : Nat} (inRange : offset < (ofNat count value).length) :
    (ofNat count value)[offset] = value.testBit (count - 1 - offset) := by
  simp only [ofNat, List.getElem_map, List.getElem_range]

theorem ofNat_congr {count left right : Nat}
    (same : ∀ position, position < count → left.testBit position = right.testBit position) :
    ofNat count left = ofNat count right := by
  unfold ofNat
  apply List.map_congr_left
  intro offset member
  have inRange := List.mem_range.mp member
  exact same _ (by omega)

theorem ofNat_add (high low value : Nat) :
    ofNat (high + low) value = ofNat high (value >>> low) ++ ofNat low value := by
  apply List.ext_getElem
  · simp only [length_ofNat, List.length_append]
  · intro offset inRange _inRange'
    rw [length_ofNat] at inRange
    rw [getElem_ofNat]
    by_cases upper : offset < high
    · rw [List.getElem_append_left (by rw [length_ofNat]; exact upper), getElem_ofNat,
        Nat.testBit_shiftRight]
      congr 1
      omega
    · rw [List.getElem_append_right (by rw [length_ofNat]; omega), getElem_ofNat, length_ofNat]
      congr 1
      omega

theorem ofNat_ones (count : Nat) : ofNat count (2 ^ count - 1) = List.replicate count true := by
  apply List.ext_getElem
  · simp only [length_ofNat, List.length_replicate]
  · intro offset inRange _inRange'
    rw [length_ofNat] at inRange
    rw [getElem_ofNat, List.getElem_replicate, Nat.testBit_two_pow_sub_one]
    exact decide_eq_true (by omega)

def Shows (stream : Nat → Bool) (position : Nat) (bits : List Bool) : Prop :=
  ∀ offset (inRange : offset < bits.length), stream (position + offset) = bits[offset]

theorem shows_append {stream : Nat → Bool} {position : Nat} {left right : List Bool} :
    Shows stream position (left ++ right) ↔
      Shows stream position left ∧ Shows stream (position + left.length) right := by
  constructor
  · intro shown
    constructor
    · intro offset inRange
      have atOffset := shown offset (by rw [List.length_append]; omega)
      rw [List.getElem_append_left inRange] at atOffset
      exact atOffset
    · intro offset inRange
      have atOffset := shown (left.length + offset) (by rw [List.length_append]; omega)
      rw [List.getElem_append_right (by omega)] at atOffset
      rw [Nat.add_assoc, atOffset]
      simp only [Nat.add_sub_cancel_left]
  · rintro ⟨shownLeft, shownRight⟩ offset inRange
    rw [List.length_append] at inRange
    by_cases early : offset < left.length
    · rw [List.getElem_append_left early]
      exact shownLeft offset early
    · rw [List.getElem_append_right (by omega), ← shownRight (offset - left.length) (by omega)]
      congr 1
      omega

theorem Shows.initial {stream : Nat → Bool} {position : Nat} {short long : List Bool}
    (shown : Shows stream position long) (initial : short <+: long) :
    Shows stream position short := by
  obtain ⟨rest, rfl⟩ := initial
  exact (shows_append.mp shown).1

/-- `value` is the window of `stream` that starts at `position`. -/
structure Window (stream : Nat → Bool) (position value : Nat) : Prop where
  bounded : value < 2 ^ 32
  bit : ∀ offset, offset < 32 → value.testBit (31 - offset) = stream (position + offset)

theorem Window.field {stream : Nat → Bool} {position value count field : Nat}
    (window : Window stream position value) (short : count ≤ 32) (fits : field < 2 ^ count)
    (shown : Shows stream position (ofNat count field)) :
    value >>> (32 - count) = field := by
  apply Nat.eq_of_testBit_eq
  intro bit
  rw [Nat.testBit_shiftRight]
  by_cases inside : bit < count
  · have atBit := shown (count - 1 - bit) (by rw [length_ofNat]; omega)
    rw [getElem_ofNat, ← window.bit (count - 1 - bit) (by omega)] at atBit
    have left : 31 - (count - 1 - bit) = 32 - count + bit := by omega
    have right : count - 1 - (count - 1 - bit) = bit := by omega
    rw [left, right] at atBit
    exact atBit
  · have above : value.testBit (32 - count + bit) = false := by
      apply Nat.testBit_lt_two_pow
      exact Nat.lt_of_lt_of_le window.bounded (Nat.pow_le_pow_right (by decide) (by omega))
    have outside : field.testBit bit = false := by
      apply Nat.testBit_lt_two_pow
      exact Nat.lt_of_lt_of_le fits (Nat.pow_le_pow_right (by decide) (by omega))
    rw [above, outside]

def leadingZeros (width value : Nat) : Nat :=
  if value = 0 then width else width - 1 - value.log2

theorem leadingZeros_eq {width value zeros : Nat} (inside : zeros < width)
    (lower : 2 ^ (width - 1 - zeros) ≤ value) (upper : value < 2 ^ (width - zeros)) :
    leadingZeros width value = zeros := by
  have positive : value ≠ 0 := Nat.pos_iff_ne_zero.mp (Nat.lt_of_lt_of_le (Nat.two_pow_pos _) lower)
  have exact' : value.log2 = width - 1 - zeros := by
    apply (Nat.log2_eq_iff positive).mpr
    refine ⟨lower, ?_⟩
    have next : width - 1 - zeros + 1 = width - zeros := by omega
    rw [next]
    exact upper
  unfold leadingZeros
  rw [if_neg positive, exact']
  omega

theorem leadingZeros_le (width value : Nat) : leadingZeros width value ≤ width := by
  unfold leadingZeros
  split
  · exact Nat.le_refl width
  · omega

theorem lt_of_leadingZeros {width value : Nat} (bounded : value < 2 ^ width) :
    value < 2 ^ (width - leadingZeros width value) := by
  unfold leadingZeros
  split
  · rename_i zero
    subst value
    exact Nat.two_pow_pos _
  · rename_i positive
    have small : value.log2 < width := (Nat.log2_lt positive).mpr bounded
    have next : width - (width - 1 - value.log2) = value.log2 + 1 := by omega
    rw [next]
    exact Nat.lt_log2_self

end BitString
