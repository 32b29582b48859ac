/-
The fingerprint of a certificate, as it is written on the command line. It decides which server
is trusted.
-/

import Capsaicin.Library.Text

namespace Capsaicin.Net

open Program (Aborts)
open Text (byteLen DigitPair hexDigit)

/-- The only errors are `io` errors with a text. -/
abbrev FingerprintFault := Program.Fault String

def isSeparator (c : Char) : Bool := c = ':' ∨ c = ' ' ∨ c = '-'

def cleaned (s : List Char) : List Char := s.filter fun c => !isSeparator c

def lengthText (got : Nat) : String :=
  "fingerprint must be 32 hex bytes (64 chars), got " ++ toString got ++ " chars"

def parseByte (cleaned : List Char) (i : Nat) : Except FingerprintFault UInt8 := do
  let digits ← Text.slice cleaned (i * 2) (i * 2 + 2)
  match Text.fromStrRadix digits with
  | some byte => .ok (UInt8.ofNat byte)
  | none => .error (.error "invalid hex in fingerprint")

def parseFingerprint (s : List Char) : Except FingerprintFault (List UInt8) :=
  if byteLen (cleaned s) ≠ 64 then .error (.error (lengthText (byteLen (cleaned s))))
  else (List.range 32).mapM (parseByte (cleaned s))

def hex (bytes : List UInt8) : List Char :=
  bytes.flatMap fun b => [(b.toNat / 16).digitChar, (b.toNat % 16).digitChar]

/-! ### What a text denotes -/

def halves (byte : UInt8) : List (Option Nat) := [some (byte.toNat / 16), some (byte.toNat % 16)]

/-- The text is 64 hexadecimal digits, and the bytes are their value. -/
def Denotes (text : List Char) (bytes : List UInt8) : Prop :=
  bytes.length = 32 ∧ text.map hexDigit = bytes.flatMap halves

def Exact (s : List Char) : Prop :=
  ¬ Aborts (parseFingerprint s) ∧
    ∀ bytes, parseFingerprint s = .ok bytes ↔ Denotes (cleaned s) bytes

/-- A text of pairs, each of two digits or of a sign and a digit. -/
inductive Pairs : List Char → List UInt8 → Prop where
  | nil : Pairs [] []
  | cons {piece rest : List Char} {value : Nat} {bytes : List UInt8} (pair : DigitPair piece value)
      (behind : Pairs rest bytes) : Pairs (piece ++ rest) (UInt8.ofNat value :: bytes)

/-- A text with two bytes that are no such pair, behind pairs only. No character is cut up to
there. -/
inductive Rejected : List Char → Prop where
  | here {piece : List Char} (rest : List Char) (two : byteLen piece = 2)
      (other : ∀ value, ¬ DigitPair piece value) : Rejected (piece ++ rest)
  | later {piece rest : List Char} {value : Nat} (pair : DigitPair piece value)
      (behind : Rejected rest) : Rejected (piece ++ rest)

/-- No text is taken for a fingerprint that is none, and no character is cut. -/
def Regular (text : List Char) : Prop :=
  byteLen text ≠ 64 ∨ (∀ c ∈ text, (hexDigit c).isSome) ∨ Rejected text

/-! ### The loop -/

/-- The loop, by what is left of the text. -/
def walk : Nat → List Char → Except FingerprintFault (List UInt8)
  | 0, _ => .ok []
  | count + 1, rest =>
      match Text.splitBytes rest 2 with
      | none => .error (.panic .index)
      | some (piece, after) =>
          match Text.fromStrRadix piece with
          | none => .error (.error "invalid hex in fingerprint")
          | some value => do
              let bytes ← walk count after
              .ok (UInt8.ofNat value :: bytes)

theorem mapM_eq_walk {before : List Char} (rest : List Char) {i : Nat}
    (begins : byteLen before = i * 2) (count : Nat) :
    (List.range' i count).mapM (parseByte (before ++ rest)) = walk count rest := by
  induction count generalizing before rest i with
  | zero => rfl
  | succ count ih =>
      rw [List.range'_succ, List.mapM_cons, parseByte,
        Text.slice_behind before rest begins (Nat.le_add_right _ _), Nat.add_sub_cancel_left, walk]
      cases split : Text.splitBytes rest 2 with
      | none => rfl
      | some parts =>
          rcases parts with ⟨piece, after⟩
          rcases Text.of_splitBytes split with ⟨whole, two⟩
          dsimp only
          rw [Program.bind_ok rfl]
          cases read : Text.fromStrRadix piece with
          | none => rfl
          | some value =>
              have begins' : byteLen (before ++ piece) = (i + 1) * 2 := by
                rw [Text.byteLen_append, begins, two]
                omega
              have behind := ih after begins'
              rw [List.append_assoc, ← whole] at behind
              rw [behind]
              rfl

variable {text : List Char} {bytes : List UInt8} {count : Nat}

theorem walk_pair {piece rest : List Char} {value : Nat} (pair : DigitPair piece value) :
    walk (count + 1) (piece ++ rest) = (do
      let bytes ← walk count rest
      .ok (UInt8.ofNat value :: bytes)) := by
  rw [walk, ← pair.size.1, Text.splitBytes_append]
  dsimp only
  rw [(Text.fromStrRadix_two pair.size.1).mpr pair]

theorem walk_other {piece rest : List Char} (two : byteLen piece = 2)
    (other : ∀ value, ¬ DigitPair piece value) :
    walk (count + 1) (piece ++ rest) = .error (.error "invalid hex in fingerprint") := by
  rw [walk, ← two, Text.splitBytes_append]
  dsimp only
  cases read : Text.fromStrRadix piece with
  | none => rfl
  | some value => exact absurd ((Text.fromStrRadix_two two).mp read) (other value)

theorem Pairs.walked (pairs : Pairs text bytes) : walk bytes.length text = .ok bytes := by
  induction pairs with
  | nil => rfl
  | cons pair behind ih => rw [List.length_cons, walk_pair pair, Program.bind_ok ih]

theorem Rejected.walked (rejected : Rejected text) (long : byteLen text ≤ count * 2) :
    walk count text = .error (.error "invalid hex in fingerprint") := by
  induction rejected generalizing count with
  | here rest two other =>
      rw [Text.byteLen_append, two] at long
      cases count with
      | zero => omega
      | succ count => exact walk_other two other
  | later pair behind ih =>
      rw [Text.byteLen_append, pair.size.1] at long
      cases count with
      | zero => omega
      | succ count =>
          rw [walk_pair pair, ih (by omega)]
          rfl

/-- The loop returns the pairs of the whole text, or finds what is no pair, or panics. -/
theorem walk_cases (size : byteLen text = count * 2) :
    (∃ bytes, walk count text = .ok bytes ∧ Pairs text bytes) ∨ Rejected text ∨
      Aborts (walk count text) := by
  induction count generalizing text with
  | zero =>
      cases text with
      | nil => exact Or.inl ⟨[], rfl, .nil⟩
      | cons c rest =>
          have positive := c.utf8Size_pos
          rw [Text.byteLen_cons] at size
          omega
  | succ count ih =>
      rw [walk]
      cases split : Text.splitBytes text 2 with
      | none => exact Or.inr (Or.inr ⟨.index, rfl⟩)
      | some parts =>
          rcases parts with ⟨piece, after⟩
          rcases Text.of_splitBytes split with ⟨rfl, two⟩
          rw [Text.byteLen_append] at size
          dsimp only
          cases read : Text.fromStrRadix piece with
          | none =>
              right
              left
              apply Rejected.here after two
              intro value pair
              rw [(Text.fromStrRadix_two two).mpr pair] at read
              cases read
          | some value =>
              have pair := (Text.fromStrRadix_two two).mp read
              dsimp only
              rcases ih (by omega : byteLen after = count * 2) with
                ⟨bytes, ran, pairs⟩ | rejected | aborts
              · left
                exact ⟨_, Program.bind_ok ran, .cons pair pairs⟩
              · exact Or.inr (Or.inl (.later pair rejected))
              · exact Or.inr (Or.inr aborts.bind)

/-! ### Digits only -/

theorem Pairs.size (pairs : Pairs text bytes) : byteLen text = bytes.length * 2 := by
  induction pairs with
  | nil => rfl
  | cons pair behind ih =>
      rw [Text.byteLen_append, pair.size.1, ih, List.length_cons]
      omega

theorem Pairs.of_digits (digits : text.map hexDigit = bytes.flatMap halves) :
    Pairs text bytes := by
  induction bytes generalizing text with
  | nil =>
      rw [List.map_eq_nil_iff.mp digits]
      exact .nil
  | cons byte rest ih =>
      rw [List.flatMap_cons] at digits
      rcases List.map_eq_append_iff.mp digits with ⟨piece, behind, rfl, first, others⟩
      rcases List.map_eq_cons_iff.mp first with ⟨high, tail, rfl, highIs, last⟩
      rcases List.map_eq_singleton_iff.mp last with ⟨low, rfl, lowIs⟩
      have same : UInt8.ofNat (byte.toNat / 16 * 16 + byte.toNat % 16) = byte := by
        rw [Nat.div_add_mod', UInt8.ofNat_toNat]
      have pairs := Pairs.cons (DigitPair.digits highIs lowIs) (ih others)
      rw [same] at pairs
      exact pairs

theorem Pairs.digits (pairs : Pairs text bytes) (plain : ∀ c ∈ text, (hexDigit c).isSome) :
    text.map hexDigit = bytes.flatMap halves := by
  induction pairs with
  | nil => rfl
  | @cons piece rest value bytes pair behind ih =>
      have others := ih fun c member => plain c (List.mem_append_right piece member)
      rw [List.map_append, List.flatMap_cons, others]
      congr 1
      cases pair with
      | @digits first second high low firstIs secondIs =>
          have highBound := (Text.hexDigit_bounds firstIs).1
          have lowBound := (Text.hexDigit_bounds secondIs).1
          have byte : (UInt8.ofNat (high * 16 + low)).toNat = high * 16 + low := by
            rw [UInt8.toNat_ofNat']
            omega
          have upper : (high * 16 + low) / 16 = high := by omega
          have lower : (high * 16 + low) % 16 = low := by omega
          rw [halves, byte, upper, lower, ← firstIs, ← secondIs]
          rfl
      | plus secondIs =>
          have impossible := plain '+' List.mem_cons_self
          cases impossible

theorem Pairs.of_plain (plain : ∀ c ∈ text, (hexDigit c).isSome)
    (size : byteLen text = count * 2) : ∃ bytes, Pairs text bytes := by
  induction count generalizing text with
  | zero =>
      cases text with
      | nil => exact ⟨[], .nil⟩
      | cons c rest =>
          have positive := c.utf8Size_pos
          rw [Text.byteLen_cons] at size
          omega
  | succ count ih =>
      cases text with
      | nil =>
          rw [Text.byteLen_nil] at size
          omega
      | cons first rest =>
          rcases Option.isSome_iff_exists.mp (plain first List.mem_cons_self) with ⟨high, highIs⟩
          rw [Text.byteLen_cons, Text.utf8Size_hexDigit highIs] at size
          cases rest with
          | nil =>
              rw [Text.byteLen_nil] at size
              omega
          | cons second rest =>
              rcases Option.isSome_iff_exists.mp
                (plain second (List.mem_cons_of_mem first List.mem_cons_self)) with ⟨low, lowIs⟩
              rw [Text.byteLen_cons, Text.utf8Size_hexDigit lowIs] at size
              have behind : ∀ c ∈ rest, (hexDigit c).isSome := by
                intro c member
                exact plain c (List.mem_cons_of_mem first (List.mem_cons_of_mem second member))
              rcases ih behind (by omega) with ⟨bytes, pairs⟩
              exact ⟨_, Pairs.cons (DigitPair.digits highIs lowIs) pairs⟩

theorem Denotes.plain (denotes : Denotes text bytes) : ∀ c ∈ text, (hexDigit c).isSome := by
  intro c member
  have found : hexDigit c ∈ bytes.flatMap halves := by
    rw [← denotes.2]
    exact List.mem_map_of_mem member
  rcases List.mem_flatMap.mp found with ⟨byte, _inBytes, half⟩
  rcases List.mem_pair.mp half with upper | lower
  · rw [upper]
    rfl
  · rw [lower]
    rfl

theorem Denotes.walked (denotes : Denotes text bytes) : walk 32 text = .ok bytes := by
  have pairs := Pairs.of_digits denotes.2
  rw [← denotes.1]
  exact pairs.walked

theorem Denotes.size (denotes : Denotes text bytes) : byteLen text = 64 := by
  rw [(Pairs.of_digits denotes.2).size, denotes.1]

theorem denotes_hex (sized : bytes.length = 32) : Denotes (hex bytes) bytes := by
  refine ⟨sized, ?_⟩
  clear sized
  induction bytes with
  | nil => rfl
  | cons byte rest ih =>
      have small := byte.toNat_lt
      unfold hex at ih ⊢
      rw [List.flatMap_cons, List.map_append, ih, List.flatMap_cons]
      congr 1
      rw [List.map_cons, List.map_singleton, Text.hexDigit_digitChar (by omega),
        Text.hexDigit_digitChar (by omega)]
      rfl

/-! ### The parser -/

variable {s : List Char}

theorem parse_eq_walk (size : byteLen (cleaned s) = 64) :
    parseFingerprint s = walk 32 (cleaned s) := by
  rw [parseFingerprint, if_neg (fun wrong => wrong size), List.range_eq_range']
  exact @mapM_eq_walk [] (cleaned s) 0 rfl 32

theorem exact_iff (s : List Char) : Exact s ↔ Regular (cleaned s) := by
  unfold Exact
  by_cases size : byteLen (cleaned s) = 64
  · rw [parse_eq_walk size]
    constructor
    · rintro ⟨calm, accepts⟩
      rcases @walk_cases _ 32 size with ⟨bytes, ran, _pairs⟩ | rejected | aborts
      · exact Or.inr (Or.inl ((accepts bytes).mp ran).plain)
      · exact Or.inr (Or.inr rejected)
      · exact absurd aborts calm
    · rintro (other | plain | rejected)
      · exact absurd size other
      · rcases @Pairs.of_plain _ 32 plain size with ⟨bytes, pairs⟩
        have sized : bytes.length = 32 := by
          have same := pairs.size
          omega
        have denotes : Denotes (cleaned s) bytes := ⟨sized, pairs.digits plain⟩
        constructor
        · rintro ⟨kind, aborted⟩
          rw [denotes.walked] at aborted
          cases aborted
        · intro other
          constructor
          · intro ran
            rw [denotes.walked] at ran
            cases ran
            exact denotes
          · exact Denotes.walked
      · have ran := @Rejected.walked _ 32 rejected (by omega)
        constructor
        · rintro ⟨kind, aborted⟩
          rw [ran] at aborted
          cases aborted
        · intro bytes
          constructor
          · intro returned
            rw [ran] at returned
            cases returned
          · exact Denotes.walked
  · have refused : parseFingerprint s = .error (.error (lengthText (byteLen (cleaned s)))) :=
      if_pos size
    rw [refused]
    constructor
    · intro _exact
      exact Or.inl size
    · intro _regular
      constructor
      · rintro ⟨kind, aborted⟩
        cases aborted
      · intro bytes
        constructor
        · intro returned
          cases returned
        · intro denotes
          exact absurd denotes.size size

/-- Which texts the parser treats as a fingerprint should be; the digits of 32 bytes, with
separators anywhere, are always among them. -/
theorem parseFingerprint_iff (s : List Char) :
    (Exact s ↔ Regular (cleaned s)) ∧
      ∀ bytes, bytes.length = 32 → cleaned s = hex bytes → parseFingerprint s = .ok bytes := by
  constructor
  · exact exact_iff s
  · intro bytes sized written
    have denotes := denotes_hex sized
    rw [← written] at denotes
    rw [parse_eq_walk denotes.size]
    exact denotes.walked

/-- A byte 32 times, with separators between some of them. -/
theorem parseFingerprint_iff_separated :
    parseFingerprint ((List.replicate 16 ['0', 'f', ':', '0', 'f', '-']).flatten) =
      .ok (List.replicate 32 15) :=
  (parseFingerprint_iff _).2 _ List.length_replicate (by decide +kernel)

/-- A sign is taken for a digit, and a character of three bytes is cut. -/
theorem fingerprint_accepted :
    parseFingerprint (List.replicate 32 ['+', 'f']).flatten = .ok (List.replicate 32 15) ∧
      ¬ Denotes (cleaned (List.replicate 32 ['+', 'f']).flatten) (List.replicate 32 15) ∧
      parseFingerprint ('a' :: List.replicate 21 '€') = .error (.panic .index) := by
  refine ⟨by decide +kernel, ?_, by decide +kernel⟩
  intro denotes
  have impossible := denotes.plain '+' (by decide +kernel)
  cases impossible

end Capsaicin.Net
