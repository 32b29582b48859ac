/-
Fixed-width integers as byte strings, in both byte orders.
-/

import Mathlib.Data.List.Basic
import Mathlib.Tactic.Ring

namespace Bytes

def ofLe : List UInt8 → Nat
  | [] => 0
  | byte :: rest => byte.toNat + 256 * ofLe rest

/-- The low `count` bytes of a value, least significant first. -/
def toLe : Nat → Nat → List UInt8
  | 0, _ => []
  | count + 1, value => UInt8.ofNat value :: toLe count (value / 256)

def ofBe (bytes : List UInt8) : Nat := ofLe bytes.reverse

/-- The low `count` bytes of a value, most significant first. -/
def toBe (count value : Nat) : List UInt8 := (toLe count value).reverse

def slice (bytes : List UInt8) (start stop : Nat) : List UInt8 :=
  (bytes.drop start).take (stop - start)

@[simp] theorem length_toLe (count value : Nat) : (toLe count value).length = count := by
  induction count generalizing value with
  | zero => rfl
  | succ count ih => simp only [toLe, List.length_cons, ih]

@[simp] theorem length_toBe (count value : Nat) : (toBe count value).length = count := by
  simp only [toBe, List.length_reverse, length_toLe]

theorem toNat_ofNat (value : Nat) : (UInt8.ofNat value).toNat = value % 256 := by
  simp

theorem ofLe_lt (bytes : List UInt8) : ofLe bytes < 256 ^ bytes.length := by
  induction bytes with
  | nil => decide
  | cons byte rest ih =>
      have small : byte.toNat < 256 := byte.toNat_lt
      simp only [ofLe, List.length_cons, pow_succ]
      omega

theorem ofLe_toLe {count value : Nat} (fits : value < 256 ^ count) :
    ofLe (toLe count value) = value := by
  induction count generalizing value with
  | zero =>
      simp only [pow_zero] at fits
      simp only [toLe, ofLe]
      omega
  | succ count ih =>
      have rest : value / 256 < 256 ^ count := by
        rw [pow_succ] at fits
        exact Nat.div_lt_of_lt_mul (by omega)
      simp only [toLe, ofLe, ih rest, toNat_ofNat]
      omega

theorem toLe_ofLe (bytes : List UInt8) : toLe bytes.length (ofLe bytes) = bytes := by
  induction bytes with
  | nil => rfl
  | cons byte rest ih =>
      have small : byte.toNat < 256 := byte.toNat_lt
      have low : UInt8.ofNat (byte.toNat + 256 * ofLe rest) = byte := by
        apply UInt8.toNat_inj.mp
        rw [toNat_ofNat]
        omega
      have high : (byte.toNat + 256 * ofLe rest) / 256 = ofLe rest := by omega
      rw [List.length_cons, ofLe, toLe, low, high, ih]

theorem ofLe_byte (byte : UInt8) : ofLe (toLe 1 byte.toNat) = byte.toNat :=
  ofLe_toLe byte.toNat_lt

theorem ofLe_word (word : UInt32) : ofLe (toLe 4 word.toNat) = word.toNat :=
  ofLe_toLe word.toNat_lt

theorem ofBe_toBe {count value : Nat} (fits : value < 256 ^ count) :
    ofBe (toBe count value) = value := by
  simp only [ofBe, toBe, List.reverse_reverse]
  exact ofLe_toLe fits

/-! ### Fields of a buffer -/

@[simp] theorem slice_skip {front back : List UInt8} {start stop : Nat}
    (behind : front.length ≤ start) :
    slice (front ++ back) start stop = slice back (start - front.length) (stop - front.length) := by
  have count : stop - start = stop - front.length - (start - front.length) := by omega
  rw [slice, slice, List.drop_append, List.drop_eq_nil_of_le behind, List.nil_append, count]

@[simp] theorem slice_toLe (count value : Nat) (back : List UInt8) :
    slice (toLe count value ++ back) 0 count = toLe count value := by
  rw [slice, List.drop_zero, Nat.sub_zero]
  exact List.take_left' (length_toLe count value)

@[simp] theorem slice_toLe_all (count value : Nat) :
    slice (toLe count value) 0 count = toLe count value := by
  have whole := slice_toLe count value []
  rw [List.append_nil] at whole
  exact whole

@[simp] theorem slice_toBe (count value : Nat) (back : List UInt8) :
    slice (toBe count value ++ back) 0 count = toBe count value := by
  rw [slice, List.drop_zero, Nat.sub_zero]
  exact List.take_left' (length_toBe count value)

end Bytes
