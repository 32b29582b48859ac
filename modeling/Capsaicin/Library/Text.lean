/-
Texts by the bytes of their UTF-8 form, and the number parser of the standard library.
-/

import Capsaicin.Library.Program

namespace Text

open Program (Fault)

variable {ε : Type}

def byteLen : List Char → Nat
  | [] => 0
  | c :: rest => c.utf8Size + byteLen rest

@[simp] theorem byteLen_nil : byteLen [] = 0 := rfl

@[simp] theorem byteLen_cons (c : Char) (rest : List Char) :
    byteLen (c :: rest) = c.utf8Size + byteLen rest := rfl

@[simp] theorem byteLen_append (left right : List Char) :
    byteLen (left ++ right) = byteLen left + byteLen right := by
  induction left with
  | nil => simp
  | cons c rest ih => simp [ih, Nat.add_assoc]

/-- The first bytes of a text, unless they end inside a character. -/
def splitBytes : List Char → Nat → Option (List Char × List Char)
  | [], count => if count = 0 then some ([], []) else none
  | c :: rest, count =>
      if count = 0 then some ([], c :: rest)
      else if c.utf8Size ≤ count then
        (splitBytes rest (count - c.utf8Size)).map fun parts => (c :: parts.1, parts.2)
      else none

/-- The bytes `[start, stop)` of a text. A range that cuts a character panics. -/
def slice (chars : List Char) (start stop : Nat) : Except (Fault ε) (List Char) :=
  if start ≤ stop then
    match splitBytes chars start with
    | none => .error (.panic .index)
    | some (_, tail) =>
        match splitBytes tail (stop - start) with
        | none => .error (.panic .index)
        | some (piece, _) => .ok piece
  else .error (.panic .index)

theorem splitBytes_append (head tail : List Char) :
    splitBytes (head ++ tail) (byteLen head) = some (head, tail) := by
  induction head with
  | nil =>
      cases tail with
      | nil => rfl
      | cons c rest => rfl
  | cons c rest ih =>
      have positive := c.utf8Size_pos
      rw [List.cons_append, splitBytes, byteLen_cons, if_neg (by omega), if_pos (by omega),
        Nat.add_sub_cancel_left, ih]
      rfl

theorem of_splitBytes {chars head tail : List Char} {count : Nat}
    (split : splitBytes chars count = some (head, tail)) :
    chars = head ++ tail ∧ byteLen head = count := by
  induction chars generalizing count head with
  | nil =>
      rw [splitBytes] at split
      split at split
      · rename_i zero
        cases split
        exact ⟨rfl, zero.symm⟩
      · cases split
  | cons c rest ih =>
      rw [splitBytes] at split
      split at split
      · rename_i zero
        cases split
        exact ⟨rfl, zero.symm⟩
      · split at split
        · rename_i fits
          rcases Option.map_eq_some_iff.mp split with ⟨parts, found, same⟩
          cases same
          rcases ih found with ⟨whole, size⟩
          constructor
          · rw [whole]
            rfl
          · rw [byteLen_cons, size]
            omega
        · cases split

theorem slice_behind (before rest : List Char) {start stop : Nat} (begins : byteLen before = start)
    (ordered : start ≤ stop) :
    slice (ε := ε) (before ++ rest) start stop =
      match splitBytes rest (stop - start) with
      | none => .error (.panic .index)
      | some (piece, _) => .ok piece := by
  rw [slice, if_pos ordered, ← begins, splitBytes_append]

/-! ### Numbers -/

def hexDigit (c : Char) : Option Nat :=
  if '0' ≤ c ∧ c ≤ '9' then some (c.toNat - 48)
  else if 'a' ≤ c ∧ c ≤ 'f' then some (c.toNat - 87)
  else if 'A' ≤ c ∧ c ≤ 'F' then some (c.toNat - 55)
  else none

def readDigits (digits : List Char) : Option Nat :=
  digits.foldlM
    (fun value c => do
      let digit ← hexDigit c
      if value * 16 + digit < 256 then some (value * 16 + digit) else none) 0

/-- `u8::from_str_radix` at radix 16. There may be a sign before the digits. -/
def fromStrRadix : List Char → Option Nat
  | [] => none
  | ['+'] => none
  | ['-'] => none
  | '+' :: digits => readDigits digits
  | digits => readDigits digits

inductive DigitPair : List Char → Nat → Prop where
  | digits {first second : Char} {high low : Nat} (firstIs : hexDigit first = some high)
      (secondIs : hexDigit second = some low) : DigitPair [first, second] (high * 16 + low)
  | plus {second : Char} {low : Nat} (secondIs : hexDigit second = some low) :
      DigitPair ['+', second] low

theorem toNat_le_of_le {low high : Char} (ordered : low ≤ high) : low.toNat ≤ high.toNat :=
  UInt32.le_iff_toNat_le.mp (Char.le_def.mp ordered)

theorem utf8Size_ascii {c : Char} (small : c.toNat ≤ 127) : c.utf8Size = 1 :=
  Char.utf8Size_eq_one_iff.mpr (UInt32.le_iff_toNat_le.mpr small)

theorem hexDigit_bounds {c : Char} {value : Nat} (found : hexDigit c = some value) :
    value < 16 ∧ c.toNat ≤ 127 := by
  unfold hexDigit at found
  split at found
  · rename_i range
    have low : 48 ≤ c.toNat := toNat_le_of_le range.1
    have high : c.toNat ≤ 57 := toNat_le_of_le range.2
    cases found
    omega
  · split at found
    · rename_i range
      have low : 97 ≤ c.toNat := toNat_le_of_le range.1
      have high : c.toNat ≤ 102 := toNat_le_of_le range.2
      cases found
      omega
    · split at found
      · rename_i range
        have low : 65 ≤ c.toNat := toNat_le_of_le range.1
        have high : c.toNat ≤ 70 := toNat_le_of_le range.2
        cases found
        omega
      · cases found

theorem utf8Size_hexDigit {c : Char} {value : Nat} (found : hexDigit c = some value) :
    c.utf8Size = 1 :=
  utf8Size_ascii (hexDigit_bounds found).2

theorem hexDigit_digitChar {value : Nat} (small : value < 16) :
    hexDigit value.digitChar = some value := by
  have every : ∀ digit < 16, hexDigit (Nat.digitChar digit) = some digit := by decide
  exact every value small

theorem readDigits_one (only : Char) : readDigits [only] = hexDigit only := by
  unfold readDigits
  cases found : hexDigit only with
  | none => simp [found]
  | some value =>
      have bound := (hexDigit_bounds found).1
      have small : value < 256 := by omega
      simp [found, small]

theorem readDigits_two (first second : Char) :
    readDigits [first, second] = (do
      let high ← hexDigit first
      let low ← hexDigit second
      some (high * 16 + low)) := by
  unfold readDigits
  cases foundFirst : hexDigit first with
  | none => simp [foundFirst]
  | some high =>
      have highBound := (hexDigit_bounds foundFirst).1
      have small : high < 256 := by omega
      cases foundSecond : hexDigit second with
      | none => simp [foundFirst, foundSecond, small]
      | some low =>
          have lowBound := (hexDigit_bounds foundSecond).1
          have fits : high * 16 + low < 256 := by omega
          simp [foundFirst, foundSecond, small, fits]

theorem DigitPair.size {piece : List Char} {value : Nat} (pair : DigitPair piece value) :
    byteLen piece = 2 ∧ value < 256 := by
  cases pair with
  | digits firstIs secondIs =>
      have high := (hexDigit_bounds firstIs).1
      have low := (hexDigit_bounds secondIs).1
      rw [byteLen_cons, byteLen_cons, utf8Size_hexDigit firstIs, utf8Size_hexDigit secondIs]
      exact ⟨rfl, by omega⟩
  | plus secondIs =>
      have low := (hexDigit_bounds secondIs).1
      rw [byteLen_cons, byteLen_cons, utf8Size_hexDigit secondIs]
      exact ⟨rfl, by omega⟩

theorem two_bytes {piece : List Char} (two : byteLen piece = 2) :
    (∃ only, piece = [only] ∧ only.utf8Size = 2) ∨ ∃ first second, piece = [first, second] := by
  cases piece with
  | nil => cases two
  | cons first rest =>
      have positive := first.utf8Size_pos
      cases rest with
      | nil => exact Or.inl ⟨first, rfl, two⟩
      | cons second rest =>
          have positive' := second.utf8Size_pos
          cases rest with
          | nil => exact Or.inr ⟨first, second, rfl⟩
          | cons third rest =>
              have positive'' := third.utf8Size_pos
              simp only [byteLen_cons] at two
              omega

theorem fromStrRadix_plus (digits : List Char) (some : digits ≠ []) :
    fromStrRadix ('+' :: digits) = readDigits digits := by
  cases digits with
  | nil => exact absurd rfl some
  | cons c rest => rfl

theorem fromStrRadix_digits {first : Char} (plus : first ≠ '+') (rest : List Char)
    (minus : rest = [] → first ≠ '-') : fromStrRadix (first :: rest) = readDigits (first :: rest) := by
  unfold fromStrRadix
  split
  · rename_i impossible
    cases impossible
  · rename_i same
    cases same
    exact absurd rfl plus
  · rename_i same
    cases same
    exact absurd rfl (minus rfl)
  · rename_i same
    cases same
    exact absurd rfl plus
  · rfl

/-- Two bytes are read as a number if they are two digits, or a sign and a digit. -/
theorem fromStrRadix_two {piece : List Char} (two : byteLen piece = 2) {value : Nat} :
    fromStrRadix piece = some value ↔ DigitPair piece value := by
  rcases two_bytes two with ⟨only, rfl, wide⟩ | ⟨first, second, rfl⟩
  · have plus : only ≠ '+' := by
      rintro rfl
      cases wide
    have minus : only ≠ '-' := by
      rintro rfl
      cases wide
    rw [fromStrRadix_digits plus [] fun _none => minus, readDigits_one]
    constructor
    · intro read
      rw [utf8Size_hexDigit read] at wide
      cases wide
    · intro pair
      cases pair
  · by_cases plus : first = '+'
    · subst plus
      rw [fromStrRadix_plus [second] (List.cons_ne_nil second []), readDigits_one]
      constructor
      · intro read
        exact .plus read
      · intro pair
        cases pair with
        | digits firstIs secondIs => cases firstIs
        | plus secondIs => exact secondIs
    · have two : [second] = [] → first ≠ '-' := by
        intro impossible
        cases impossible
      rw [fromStrRadix_digits plus [second] two, readDigits_two]
      constructor
      · intro read
        rcases Option.bind_eq_some_iff.mp read with ⟨high, firstIs, read⟩
        rcases Option.bind_eq_some_iff.mp read with ⟨low, secondIs, read⟩
        cases read
        exact .digits firstIs secondIs
      · intro pair
        cases pair with
        | digits firstIs secondIs =>
            rw [firstIs, secondIs]
            rfl
        | plus secondIs => exact absurd rfl plus

end Text
