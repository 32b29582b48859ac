/-
Pictures as rows of one length, one after the other in a list, in either order.
-/

import Mathlib.Data.List.Basic
import Mathlib.Tactic.Ring

namespace Raster

variable {α : Type}

def rows (stride : Nat) : Nat → List α → List (List α)
  | 0, _ => []
  | count + 1, items => items.take stride :: rows stride count (items.drop stride)

def flip (stride count : Nat) (items : List α) : List α := (rows stride count items).reverse.flatten

/-- A picture from the top, whose rows are there in the order that the flag says. -/
def upright (topDown : Bool) (stride count : Nat) (items : List α) : List α :=
  if topDown then items else flip stride count items

@[simp] theorem length_rows (stride count : Nat) (items : List α) :
    (rows stride count items).length = count := by
  induction count generalizing items with
  | zero => rfl
  | succ count ih => simp [rows, ih]

theorem rows_succ (stride count : Nat) (items : List α) :
    rows stride (count + 1) items =
      rows stride count items ++ [(items.drop (count * stride)).take stride] := by
  induction count generalizing items with
  | zero => simp [rows]
  | succ count ih =>
      have behind : stride + count * stride = (count + 1) * stride := by ring
      rw [rows, ih, List.drop_drop, behind]
      rfl

theorem length_row {stride count : Nat} {items row : List α}
    (long : count * stride ≤ items.length) (member : row ∈ rows stride count items) :
    row.length = stride := by
  induction count generalizing items with
  | zero => cases member
  | succ count ih =>
      rw [Nat.succ_mul] at long
      rcases List.mem_cons.mp member with rfl | later
      · rw [List.length_take]
        omega
      · apply ih _ later
        rw [List.length_drop]
        omega

theorem length_flatten {stride : Nat} {picture : List (List α)}
    (even : ∀ row ∈ picture, row.length = stride) :
    picture.flatten.length = picture.length * stride := by
  induction picture with
  | nil => simp
  | cons row rest ih =>
      have first := even row List.mem_cons_self
      have others := ih fun other member => even other (List.mem_cons_of_mem row member)
      rw [List.flatten_cons, List.length_append, first, others, List.length_cons]
      ring

theorem flatten_rows {stride count : Nat} {items : List α} (long : items.length = count * stride) :
    (rows stride count items).flatten = items := by
  induction count generalizing items with
  | zero =>
      rw [Nat.zero_mul] at long
      rw [List.length_eq_zero_iff.mp long]
      rfl
  | succ count ih =>
      have behind : (items.drop stride).length = count * stride := by
        rw [List.length_drop, long, Nat.succ_mul, Nat.add_sub_cancel]
      rw [rows, List.flatten_cons, ih behind, List.take_append_drop]

theorem rows_flatten {stride : Nat} {picture : List (List α)}
    (even : ∀ row ∈ picture, row.length = stride) :
    rows stride picture.length picture.flatten = picture := by
  induction picture with
  | nil => rfl
  | cons row rest ih =>
      have first := even row List.mem_cons_self
      have others := ih fun other member => even other (List.mem_cons_of_mem row member)
      rw [List.length_cons, rows, List.flatten_cons, List.take_left' first,
        List.drop_left' first, others]

theorem length_flip {stride count : Nat} {items : List α}
    (long : count * stride ≤ items.length) :
    (flip stride count items).length = count * stride := by
  have even : ∀ row ∈ (rows stride count items).reverse, row.length = stride := by
    intro row member
    exact length_row long (List.mem_reverse.mp member)
  rw [flip, length_flatten even, List.length_reverse, length_rows]

theorem length_upright {topDown : Bool} {stride count : Nat} {items : List α}
    (long : items.length = count * stride) :
    (upright topDown stride count items).length = count * stride := by
  cases topDown with
  | true => exact long
  | false => exact length_flip (Nat.le_of_eq long.symm)

theorem upright_single {topDown : Bool} {stride count : Nat} {items : List α} (few : count ≤ 1)
    (long : items.length = count * stride) : upright topDown stride count items = items := by
  cases topDown with
  | true => rfl
  | false =>
      have whole := flatten_rows long
      have same : (rows stride count items).reverse = rows stride count items := by
        match count, few with
        | 0, _ => rfl
        | 1, _ => rfl
      rw [← same] at whole
      exact whole

theorem flip_reverse {stride : Nat} {picture : List (List α)}
    (even : ∀ row ∈ picture, row.length = stride) :
    flip stride picture.length picture.reverse.flatten = picture.flatten := by
  have even' : ∀ row ∈ picture.reverse, row.length = stride := by
    intro row member
    exact even row (List.mem_reverse.mp member)
  have same := rows_flatten even'
  rw [List.length_reverse] at same
  rw [flip, same, List.reverse_reverse]

theorem getElem?_rows {stride count r : Nat} (items : List α) (below : r < count) :
    (rows stride count items)[r]? = some ((items.drop (r * stride)).take stride) := by
  induction count generalizing items r with
  | zero => exact absurd below (Nat.not_lt_zero r)
  | succ count ih =>
      cases r with
      | zero => simp [rows]
      | succ r =>
          have behind : stride + r * stride = (r + 1) * stride := by ring
          rw [rows, List.getElem?_cons_succ, ih _ (Nat.lt_of_succ_lt_succ below), List.drop_drop,
            behind]

theorem row_flip {stride count r : Nat} {items : List α} (long : count * stride ≤ items.length)
    (below : r < count) :
    ((flip stride count items).drop (r * stride)).take stride =
      (items.drop ((count - 1 - r) * stride)).take stride := by
  have even : ∀ row ∈ (rows stride count items).reverse, row.length = stride := by
    intro row member
    exact length_row long (List.mem_reverse.mp member)
  have whole := rows_flatten even
  rw [List.length_reverse, length_rows] at whole
  change rows stride count (flip stride count items) = (rows stride count items).reverse at whole
  have here := @getElem?_rows _ stride count r (flip stride count items) below
  have there : count - 1 - r < count := by omega
  rw [whole, List.getElem?_reverse (by rw [length_rows]; exact below), length_rows,
    getElem?_rows items there] at here
  exact (Option.some.inj here).symm

theorem row_upright {topDown : Bool} {stride count r : Nat} {items : List α}
    (long : count * stride ≤ items.length) (below : r < count) :
    ((upright topDown stride count items).drop (r * stride)).take stride =
      (items.drop ((if topDown then r else count - 1 - r) * stride)).take stride := by
  cases topDown with
  | true => rfl
  | false => exact row_flip long below

theorem cell_eq {stride start width position : Nat} (items : List α)
    (inside : start + width ≤ stride) :
    (items.drop (position + start)).take width =
      (((items.drop position).take stride).drop start).take width := by
  rw [List.drop_take, List.take_take, List.drop_drop, Nat.min_eq_left (by omega)]

end Raster
