/-
The Golomb-Rice families: the tables of `Family::init`, the two directions of
the codeword, and the symbols an escape codeword can carry past the alphabet.
-/

import Capsaicin.Quic.BitIo
import Mathlib.Tactic.IntervalCases

namespace Capsaicin.Quic

open BitString (leadingZeros)
open Program (index)

def MAXNUMCODES : Nat := 8
def DEFMAXCLEN : Nat := 26

structure Family where
  bpc : Nat
  nGrCodewords : List Nat
  notGrCwlen : List Nat
  notGrPrefixmask : List Nat
  notGrSuffixlen : List Nat
  xlatL2u : List Nat
  xlatU2l : List UInt8
  deriving DecidableEq, Repr

def ceilLog2 (val : Nat) : Nat := if val ≤ 1 then 0 else 32 - leadingZeros 32 (val - 1)

def altprefixlen (bpc l : Nat) : Nat :=
  if DEFMAXCLEN - bpc > bppmask (bpc - l) then bppmask (bpc - l) else DEFMAXCLEN - bpc

def altcodewords (bpc l : Nat) : Nat := bppmask bpc + 1 - (altprefixlen bpc l <<< l)

/-- A table with an entry for each code of the family and zeros after them. -/
def perCode (bpc : Nat) (entry : Nat → Nat) : List Nat :=
  (List.range MAXNUMCODES).map fun l => if l < bpc then entry l else 0

def perSymbol (bpc : Nat) (entry : Nat → Nat) : List Nat :=
  (List.range 256).map fun s => if s ≤ bppmask bpc then entry s else 0

def decorrelateInit (bpc : Nat) : List UInt8 :=
  let pixelbitmask := bppmask bpc
  (perSymbol bpc fun s =>
    if s ≤ pixelbitmask >>> 1 then s <<< 1 else ((pixelbitmask - s) <<< 1) + 1).map UInt8.ofNat

def correlateInit (bpc : Nat) : List Nat :=
  let pixelbitmask := bppmask bpc
  perSymbol bpc fun s => if s &&& 1 ≠ 0 then pixelbitmask - (s >>> 1) else s >>> 1

def Family.init (bpc : Nat) : Family where
  bpc := bpc
  nGrCodewords := perCode bpc fun l => altprefixlen bpc l <<< l
  notGrCwlen := perCode bpc fun l => altprefixlen bpc l + ceilLog2 (altcodewords bpc l)
  notGrPrefixmask := perCode bpc fun l => bppmask (32 - altprefixlen bpc l)
  notGrSuffixlen := perCode bpc fun l => ceilLog2 (altcodewords bpc l)
  xlatL2u := correlateInit bpc
  xlatU2l := decorrelateInit bpc

def Family.golombDecode (family : Family) (l bits : Nat) : Except QuicFault (Nat × Nat) := do
  let prefixmask ← index family.notGrPrefixmask l
  if bits > prefixmask then
    let zeroprefix := leadingZeros 32 bits
    let cwlen := zeroprefix + 1 + l
    let value := zeroprefix <<< l ||| ((bits >>> (32 - cwlen)) &&& bppmask l)
    pure (value, cwlen)
  else
    let cwlen ← index family.notGrCwlen l
    let offset ← index family.nGrCodewords l
    let suffixlen ← index family.notGrSuffixlen l
    pure (offset + ((bits >>> (32 - cwlen)) &&& bppmask suffixlen), cwlen)

def Family.golombEncode (family : Family) (n : UInt8) (l : Nat) : Except QuicFault (Nat × Nat) := do
  let nv := n.toNat
  let grCodewords ← index family.nGrCodewords l
  if nv < grCodewords then pure ((1 <<< l) ||| (nv &&& bppmask l), (nv >>> l) + l + 1)
  else
    let cwlen ← index family.notGrCwlen l
    pure (nv - grCodewords, cwlen)

def familyGolombCodeLen (family : Family) (n : UInt8) (l : Nat) : Except QuicFault Nat := do
  let grCodewords ← index family.nGrCodewords l
  if n.toNat < grCodewords then pure ((n.toNat >>> l) + l + 1) else index family.notGrCwlen l

/-! ### The codes in use -/

/-- The codes of the two families of the decoders. -/
structure KnownCode (bpc l : Nat) : Prop where
  family : bpc = 8 ∨ bpc = 5
  inRange : l < bpc

/-- What the tables of a known code satisfy. -/
structure CodeShape (bpc l : Nat) : Prop where
  prefixPositive : 0 < altprefixlen bpc l
  short : altprefixlen bpc l + ceilLog2 (altcodewords bpc l) < 32
  shortPlain : altprefixlen bpc l + l < 32
  suffix : altcodewords bpc l ≤ 2 ^ ceilLog2 (altcodewords bpc l)
  split : altprefixlen bpc l * 2 ^ l + altcodewords bpc l = 2 ^ bpc

theorem KnownCode.shape {bpc l : Nat} (known : KnownCode bpc l) : CodeShape bpc l := by
  rcases known with ⟨rfl | rfl, inRange⟩
  · interval_cases l <;> constructor <;> decide
  · interval_cases l <;> constructor <;> decide

theorem KnownCode.lt_maxnumcodes {bpc l : Nat} (known : KnownCode bpc l) : l < MAXNUMCODES := by
  have inRange := known.inRange
  unfold MAXNUMCODES
  rcases known.family with wide | narrow <;> omega

theorem index_perCode {bpc l : Nat} (entry : Nat → Nat) (known : KnownCode bpc l) :
    index (ε := QuicError) (perCode bpc entry) l = .ok (entry l) := by
  apply Program.index_eq_ok.mpr
  have bound := known.lt_maxnumcodes
  simp only [perCode, List.getElem?_map, List.getElem?_range bound, Option.map_some,
    if_pos known.inRange]

theorem index_perSymbol {bpc s : Nat} (entry : Nat → Nat) (family : bpc ≤ 8)
    (inRange : s < 2 ^ bpc) :
    index (ε := QuicError) (perSymbol bpc entry) s = .ok (entry s) := by
  have mask : bppmask bpc = 2 ^ bpc - 1 := bppmask_eq (by omega)
  have size : 2 ^ bpc ≤ 2 ^ 8 := Nat.pow_le_pow_right (by decide) family
  apply Program.index_eq_ok.mpr
  simp only [perSymbol, List.getElem?_map, List.getElem?_range (show s < 256 by omega),
    Option.map_some, if_pos (show s ≤ bppmask bpc by omega)]

theorem Family.golombDecode_plain {bpc l bits : Nat} (known : KnownCode bpc l)
    (plain : bppmask (32 - altprefixlen bpc l) < bits) :
    (Family.init bpc).golombDecode l bits = .ok
      ((leadingZeros 32 bits <<< l) |||
        ((bits >>> (32 - (leadingZeros 32 bits + 1 + l))) &&& bppmask l),
        leadingZeros 32 bits + 1 + l) := by
  unfold golombDecode Family.init
  rw [Program.bind_ok (index_perCode _ known), if_pos plain]
  rfl

theorem Family.golombDecode_escape {bpc l bits : Nat} (known : KnownCode bpc l)
    (escape : bits ≤ bppmask (32 - altprefixlen bpc l)) :
    (Family.init bpc).golombDecode l bits = .ok
      ((altprefixlen bpc l <<< l) +
        ((bits >>> (32 - (altprefixlen bpc l + ceilLog2 (altcodewords bpc l)))) &&&
          bppmask (ceilLog2 (altcodewords bpc l))),
        altprefixlen bpc l + ceilLog2 (altcodewords bpc l)) := by
  unfold golombDecode Family.init
  rw [Program.bind_ok (index_perCode _ known), if_neg (Nat.not_lt.mpr escape),
    Program.bind_ok (index_perCode _ known), Program.bind_ok (index_perCode _ known),
    Program.bind_ok (index_perCode _ known)]
  rfl

theorem Family.golombEncode_plain {bpc l : Nat} {n : UInt8} (known : KnownCode bpc l)
    (plain : n.toNat < altprefixlen bpc l <<< l) :
    (Family.init bpc).golombEncode n l =
      .ok ((1 <<< l) ||| (n.toNat &&& bppmask l), (n.toNat >>> l) + l + 1) := by
  unfold golombEncode Family.init
  rw [Program.bind_ok (index_perCode _ known), if_pos plain]
  rfl

theorem Family.golombEncode_escape {bpc l : Nat} {n : UInt8} (known : KnownCode bpc l)
    (escape : altprefixlen bpc l <<< l ≤ n.toNat) :
    (Family.init bpc).golombEncode n l =
      .ok (n.toNat - (altprefixlen bpc l <<< l),
        altprefixlen bpc l + ceilLog2 (altcodewords bpc l)) := by
  unfold golombEncode Family.init
  rw [Program.bind_ok (index_perCode _ known), if_neg (Nat.not_lt.mpr escape),
    Program.bind_ok (index_perCode _ known)]
  rfl

/-! ### The codeword round trip -/

private theorem low_bits {value count : Nat} (short : count < 32) :
    value &&& bppmask count = value % 2 ^ count := by
  rw [bppmask_eq short, Nat.and_two_pow_sub_one_eq_mod]

private theorem or_low {high low count : Nat} (fits : low < 2 ^ count) :
    (high <<< count) ||| low = high * 2 ^ count + low := by
  rw [Nat.shiftLeft_eq, Nat.mul_comm, Nat.two_pow_add_eq_or_of_lt fits]

/-- What a codeword needs from a window that starts with it. -/
structure Codeword (family : Family) (l codeword len : Nat) (n : UInt8) : Prop where
  positive : 0 < len
  short : len < 32
  fits : codeword < 2 ^ len
  decodes : ∀ bits, bits < 2 ^ 32 → bits >>> (32 - len) = codeword →
    family.golombDecode l bits = .ok (n.toNat, len)

private theorem window_bounds {bits codeword len : Nat} (top : bits >>> (32 - len) = codeword) :
    codeword * 2 ^ (32 - len) ≤ bits ∧ bits < (codeword + 1) * 2 ^ (32 - len) := by
  rw [Nat.shiftRight_eq_div_pow] at top
  subst top
  constructor
  · exact Nat.div_mul_le_self bits _
  · have rest := Nat.div_add_mod bits (2 ^ (32 - len))
    have small := Nat.mod_lt bits (Nat.two_pow_pos (32 - len))
    rw [Nat.add_mul, Nat.one_mul, Nat.mul_comm]
    omega

private theorem codeword_plain {bpc l : Nat} {n : UInt8} (known : KnownCode bpc l)
    (plain : n.toNat < altprefixlen bpc l <<< l) :
    Codeword (Family.init bpc) l ((1 <<< l) ||| (n.toNat &&& bppmask l))
      ((n.toNat >>> l) + l + 1) n := by
  have shape := known.shape
  have shortPlain := shape.shortPlain
  have positive := shape.prefixPositive
  have divided := Nat.div_add_mod n.toNat (2 ^ l)
  have lowLt : n.toNat % 2 ^ l < 2 ^ l := Nat.mod_lt _ (Nat.two_pow_pos l)
  have zerosLt : n.toNat / 2 ^ l < altprefixlen bpc l := by
    apply (Nat.div_lt_iff_lt_mul (Nat.two_pow_pos l)).mpr
    rw [Nat.shiftLeft_eq] at plain
    exact plain
  rw [low_bits (by omega), or_low lowLt, Nat.one_mul, Nat.shiftRight_eq_div_pow]
  generalize n.toNat / 2 ^ l = zeros at divided zerosLt ⊢
  generalize n.toNat % 2 ^ l = low at divided lowLt ⊢
  have power : 2 ^ (l + 1) = 2 ^ l + 2 ^ l := by rw [Nat.pow_succ]; omega
  refine ⟨by omega, by omega, ?_, ?_⟩
  · calc 2 ^ l + low < 2 ^ (l + 1) := by omega
      _ ≤ 2 ^ (zeros + l + 1) := Nat.pow_le_pow_right (by decide) (by omega)
  · intro bits _bounded top
    obtain ⟨lower, upper⟩ := window_bounds top
    have place : 31 - zeros = l + (32 - (zeros + l + 1)) := by omega
    have place' : 32 - zeros = l + 1 + (32 - (zeros + l + 1)) := by omega
    have lower' : 2 ^ (31 - zeros) ≤ bits := by
      calc 2 ^ (31 - zeros) = 2 ^ l * 2 ^ (32 - (zeros + l + 1)) := by rw [place, Nat.pow_add]
        _ ≤ (2 ^ l + low) * 2 ^ (32 - (zeros + l + 1)) :=
            Nat.mul_le_mul_right _ (Nat.le_add_right _ _)
        _ ≤ bits := lower
    have upper' : bits < 2 ^ (32 - zeros) := by
      calc bits < (2 ^ l + low + 1) * 2 ^ (32 - (zeros + l + 1)) := upper
        _ ≤ 2 ^ (l + 1) * 2 ^ (32 - (zeros + l + 1)) := Nat.mul_le_mul_right _ (by omega)
        _ = 2 ^ (32 - zeros) := by rw [place', Nat.pow_add 2 (l + 1)]
    have leading : leadingZeros 32 bits = zeros :=
      BitString.leadingZeros_eq (by omega) lower' upper'
    have beyond : bppmask (32 - altprefixlen bpc l) < bits := by
      have powers : 2 ^ (32 - altprefixlen bpc l) ≤ 2 ^ (31 - zeros) :=
        Nat.pow_le_pow_right (by decide) (by omega)
      have some := Nat.two_pow_pos (32 - altprefixlen bpc l)
      rw [bppmask_eq (by omega)]
      omega
    have len : zeros + 1 + l = zeros + l + 1 := by omega
    rw [Family.golombDecode_plain known beyond, leading, len, top, low_bits (by omega),
      Nat.add_mod_left, Nat.mod_eq_of_lt lowLt, or_low lowLt, Nat.mul_comm, divided]

private theorem codeword_escape {bpc l : Nat} {n : UInt8} (known : KnownCode bpc l)
    (inAlphabet : n.toNat < 2 ^ bpc) (escape : altprefixlen bpc l <<< l ≤ n.toNat) :
    Codeword (Family.init bpc) l (n.toNat - (altprefixlen bpc l <<< l))
      (altprefixlen bpc l + ceilLog2 (altcodewords bpc l)) n := by
  have shape := known.shape
  have short := shape.short
  have fits : n.toNat - (altprefixlen bpc l <<< l) < 2 ^ ceilLog2 (altcodewords bpc l) := by
    have split := shape.split
    have suffix := shape.suffix
    rw [Nat.shiftLeft_eq] at escape ⊢
    omega
  have positive := shape.prefixPositive
  refine ⟨by omega, short, ?_, ?_⟩
  · exact Nat.lt_of_lt_of_le fits (Nat.pow_le_pow_right (by decide) (Nat.le_add_left _ _))
  · intro bits _bounded top
    obtain ⟨_lower, upper⟩ := window_bounds top
    have under : bits < 2 ^ (32 - altprefixlen bpc l) := by
      calc bits < (n.toNat - (altprefixlen bpc l <<< l) + 1) *
            2 ^ (32 - (altprefixlen bpc l + ceilLog2 (altcodewords bpc l))) := upper
        _ ≤ 2 ^ ceilLog2 (altcodewords bpc l) *
            2 ^ (32 - (altprefixlen bpc l + ceilLog2 (altcodewords bpc l))) :=
            Nat.mul_le_mul_right _ fits
        _ = 2 ^ (32 - altprefixlen bpc l) := by
            rw [← Nat.pow_add]
            congr 1
            omega
    have within : bits ≤ bppmask (32 - altprefixlen bpc l) := by
      rw [bppmask_eq (by omega)]
      omega
    rw [Family.golombDecode_escape known within, top, low_bits (by omega), Nat.mod_eq_of_lt fits,
      Nat.add_sub_cancel' escape]

theorem Family.golombEncode_codeword {bpc l : Nat} {n : UInt8} (known : KnownCode bpc l)
    (inAlphabet : n.toNat < 2 ^ bpc) :
    ∃ codeword len, (Family.init bpc).golombEncode n l = .ok (codeword, len) ∧
      Codeword (Family.init bpc) l codeword len n := by
  by_cases plain : n.toNat < altprefixlen bpc l <<< l
  · exact ⟨_, _, golombEncode_plain known plain, codeword_plain known plain⟩
  · have escape := Nat.not_lt.mp plain
    exact ⟨_, _, golombEncode_escape known escape, codeword_escape known inAlphabet escape⟩

theorem Family.golombEncode_known {n : UInt8} {l : Nat} {encoded : Nat × Nat}
    (coded : (Family.init 8).golombEncode n l = .ok encoded) : l < 8 := by
  obtain ⟨grCodewords, found, _rest⟩ := Program.bind_eq_ok.mp coded
  have listed := Program.index_eq_ok.mp found
  have inTable := (List.getElem?_eq_some_iff.mp listed).1
  have size : (Family.init 8).nGrCodewords.length = 8 := by decide
  rw [size] at inTable
  exact inTable

/-! ### Symbols past the alphabet -/

/-- The windows, from the first number up to but not including the second, whose
escape codeword passes the alphabet: 18 zeros and then at least 238, 220, 184
(8 bits) or 112 (7 bits) for the codes 0 to 3 of the 8-bit family, 21 zeros and
then at least 11 (4 bits) for code 0 of the 5-bit one. -/
def overrunWindow (bpc l : Nat) : Nat × Nat :=
  match bpc, l with
  | 8, 0 => (238 * 2 ^ 6, 2 ^ 14)
  | 8, 1 => (220 * 2 ^ 6, 2 ^ 14)
  | 8, 2 => (184 * 2 ^ 6, 2 ^ 14)
  | 8, 3 => (112 * 2 ^ 7, 2 ^ 14)
  | 5, 0 => (11 * 2 ^ 7, 2 ^ 11)
  | _, _ => (0, 0)

def Overruns (bpc l bits : Nat) : Prop :=
  (overrunWindow bpc l).1 ≤ bits ∧ bits < (overrunWindow bpc l).2

instance (bpc l bits : Nat) : Decidable (Overruns bpc l bits) :=
  inferInstanceAs (Decidable (_ ∧ _))

/-- The escape windows are those below `2 ^ (32 - altprefixlen)`; the ones past the
alphabet are the upper part of them, and there are none for the other codes. -/
private theorem overruns_iff {bpc l bits : Nat} (known : KnownCode bpc l) :
    Overruns bpc l bits ↔ bits < 2 ^ (32 - altprefixlen bpc l) ∧
      altcodewords bpc l * 2 ^ (32 - (altprefixlen bpc l + ceilLog2 (altcodewords bpc l))) ≤ bits := by
  have table :
      overrunWindow bpc l =
          (altcodewords bpc l * 2 ^ (32 - (altprefixlen bpc l + ceilLog2 (altcodewords bpc l))),
            2 ^ (32 - altprefixlen bpc l)) ∨
        (overrunWindow bpc l = (0, 0) ∧
          altcodewords bpc l * 2 ^ (32 - (altprefixlen bpc l + ceilLog2 (altcodewords bpc l))) =
            2 ^ (32 - altprefixlen bpc l)) := by
    rcases known with ⟨rfl | rfl, inRange⟩
    · interval_cases l <;> decide
    · interval_cases l <;> decide
  unfold Overruns
  rcases table with range | ⟨empty, full⟩
  · rw [range]
    exact And.comm
  · rw [empty, full]
    constructor
    · intro never
      exact absurd never.2 (Nat.not_lt_zero bits)
    · intro never
      exact absurd never.1 (Nat.not_lt.mpr never.2)

theorem Family.golombDecode_total {bpc l bits : Nat} (known : KnownCode bpc l)
    (bounded : bits < 2 ^ 32) :
    ∃ value cwlen, (Family.init bpc).golombDecode l bits = .ok (value, cwlen) ∧
      0 < cwlen ∧ cwlen < 32 ∧ (value < 2 ^ bpc ↔ ¬Overruns bpc l bits) := by
  have shape := known.shape
  have positive := shape.prefixPositive
  have split := shape.split
  have mask : bppmask (32 - altprefixlen bpc l) = 2 ^ (32 - altprefixlen bpc l) - 1 :=
    bppmask_eq (by omega)
  have some := Nat.two_pow_pos (32 - altprefixlen bpc l)
  by_cases plain : bppmask (32 - altprefixlen bpc l) < bits
  · have shortPlain := shape.shortPlain
    have above : 2 ^ (32 - altprefixlen bpc l) ≤ bits := by omega
    have fewer : leadingZeros 32 bits < altprefixlen bpc l := by
      have below := BitString.lt_of_leadingZeros bounded
      have powers := (Nat.pow_lt_pow_iff_right (by decide)).mp (Nat.lt_of_le_of_lt above below)
      omega
    refine ⟨_, _, golombDecode_plain known plain, by omega, by omega, ?_⟩
    have noOverrun : ¬Overruns bpc l bits := by
      rw [overruns_iff known]
      intro overrun
      exact absurd overrun.1 (Nat.not_lt.mpr above)
    have low : (bits >>> (32 - (leadingZeros 32 bits + 1 + l))) % 2 ^ l < 2 ^ l :=
      Nat.mod_lt _ (Nat.two_pow_pos l)
    apply iff_of_true _ noOverrun
    rw [low_bits (by omega), or_low low]
    calc leadingZeros 32 bits * 2 ^ l + bits >>> (32 - (leadingZeros 32 bits + 1 + l)) % 2 ^ l
        < (leadingZeros 32 bits + 1) * 2 ^ l := by rw [Nat.add_mul, Nat.one_mul]; omega
      _ ≤ altprefixlen bpc l * 2 ^ l := Nat.mul_le_mul_right _ fewer
      _ ≤ 2 ^ bpc := by omega
  · have escape := Nat.not_lt.mp plain
    have short := shape.short
    have under : bits < 2 ^ (32 - altprefixlen bpc l) := by omega
    have place : ceilLog2 (altcodewords bpc l) +
        (32 - (altprefixlen bpc l + ceilLog2 (altcodewords bpc l))) = 32 - altprefixlen bpc l := by
      omega
    have suffixLt : bits >>> (32 - (altprefixlen bpc l + ceilLog2 (altcodewords bpc l))) <
        2 ^ ceilLog2 (altcodewords bpc l) := by
      rw [Nat.shiftRight_eq_div_pow, Nat.div_lt_iff_lt_mul (Nat.two_pow_pos _), ← Nat.pow_add, place]
      exact under
    refine ⟨_, _, golombDecode_escape known escape, by omega, short, ?_⟩
    rw [low_bits (by omega), Nat.mod_eq_of_lt suffixLt, overruns_iff known, Nat.shiftLeft_eq,
      Nat.shiftRight_eq_div_pow]
    have boundary := Nat.div_lt_iff_lt_mul (x := bits) (y := altcodewords bpc l)
      (Nat.two_pow_pos (32 - (altprefixlen bpc l + ceilLog2 (altcodewords bpc l))))
    constructor
    · intro inside overrun
      exact absurd (boundary.mp (by omega)) (Nat.not_lt.mpr overrun.2)
    · intro noOverrun
      have below := boundary.mpr (Nat.not_le.mp fun past => noOverrun ⟨under, past⟩)
      omega

/-! ### The translation of residuals -/

private theorem index_xlatU2l {bpc s : Nat} (family : bpc = 8 ∨ bpc = 5)
    (inAlphabet : s < 2 ^ bpc) :
    index (ε := QuicError) (Family.init bpc).xlatU2l s =
      .ok (UInt8.ofNat (if s ≤ (2 ^ bpc - 1) / 2 then s * 2 else (2 ^ bpc - 1 - s) * 2 + 1)) := by
  have narrow : bpc ≤ 8 := by omega
  have mask : bppmask bpc = 2 ^ bpc - 1 := bppmask_eq (by omega)
  apply Program.index_eq_ok.mpr
  change (decorrelateInit bpc)[s]? = _
  unfold decorrelateInit
  rw [List.getElem?_map, Program.index_eq_ok.mp (index_perSymbol _ narrow inAlphabet), mask,
    Option.map_some, Nat.shiftRight_eq_div_pow, Nat.shiftLeft_eq, Nat.shiftLeft_eq]

private theorem index_xlatL2u {bpc s : Nat} (family : bpc = 8 ∨ bpc = 5)
    (inAlphabet : s < 2 ^ bpc) :
    index (ε := QuicError) (Family.init bpc).xlatL2u s =
      .ok (if s % 2 ≠ 0 then 2 ^ bpc - 1 - s / 2 else s / 2) := by
  have narrow : bpc ≤ 8 := by omega
  have mask : bppmask bpc = 2 ^ bpc - 1 := bppmask_eq (by omega)
  change index (correlateInit bpc) s = _
  unfold correlateInit
  rw [index_perSymbol _ narrow inAlphabet, mask, Nat.and_one_is_mod, Nat.shiftRight_eq_div_pow]

/-- A residual read back: `xlat_l2u` undoes `xlat_u2l`. -/
theorem Family.xlat_inverse {bpc s : Nat} (family : bpc = 8 ∨ bpc = 5) (inAlphabet : s < 2 ^ bpc) :
    ∃ residual : UInt8, index (ε := QuicError) (Family.init bpc).xlatU2l s = .ok residual ∧
      residual.toNat < 2 ^ bpc ∧
      index (ε := QuicError) (Family.init bpc).xlatL2u residual.toNat = .ok s := by
  have wide : 2 ^ bpc = 256 ∨ 2 ^ bpc = 32 := by
    rcases family with rfl | rfl
    · exact Or.inl rfl
    · exact Or.inr rfl
  obtain ⟨mapped, mappedEq⟩ : ∃ mapped,
      (if s ≤ (2 ^ bpc - 1) / 2 then s * 2 else (2 ^ bpc - 1 - s) * 2 + 1) = mapped := ⟨_, rfl⟩
  have bounded : mapped < 2 ^ bpc := by
    rw [← mappedEq]
    split <;> omega
  have value : (UInt8.ofNat mapped).toNat = mapped := by
    rw [UInt8.toNat_ofNat']
    omega
  refine ⟨UInt8.ofNat mapped, by rw [index_xlatU2l family inAlphabet, mappedEq], ?_, ?_⟩
  · rw [value]
    exact bounded
  · rw [value, index_xlatL2u family bounded, ← mappedEq]
    congr 1
    split <;> split <;> omega

theorem Family.xlat_total {bpc s : Nat} (family : bpc = 8 ∨ bpc = 5) (inAlphabet : s < 2 ^ bpc) :
    ∃ unsigned, index (ε := QuicError) (Family.init bpc).xlatL2u s = .ok unsigned ∧
      unsigned < 2 ^ bpc := by
  refine ⟨_, index_xlatL2u family inAlphabet, ?_⟩
  split <;> omega

end Capsaicin.Quic
