/-
The rows a pass works on: BGRA bytes, the alpha bytes of such a row, a gray plane
and packed RGB555 pixels, with the prediction that all of them share and the
run-length predicate of the BGRA rows.
-/

import Capsaicin.Quic.Format
import Mathlib.Tactic.IntervalCases

namespace Capsaicin.Quic

open Program (index assign access)

/-- How a pixel function addresses its row. `clear` is what it does to the pixel
before its first channel. -/
structure Layout (ρ : Type) where
  read : ρ → Nat → Nat → Option Nat
  write : ρ → Nat → Nat → Nat → Option ρ
  clear : ρ → Nat → Option ρ

def setByte (row : List UInt8) (position value : Nat) : Option (List UInt8) :=
  if position < row.length then some (row.set position (UInt8.ofNat value)) else none

def bgra : Layout (List UInt8) where
  read row lane i := (row[i * 4 + lane]?).map UInt8.toNat
  write row lane i value := setByte row (i * 4 + lane) value
  clear row i := setByte row (i * 4 + 3) 0

/-- The alpha overlay leaves the other bytes of the row alone. -/
def alphaPlane : Layout (List UInt8) where
  read := bgra.read
  write := bgra.write
  clear row _ := some row

def grayPlane : Layout (List UInt8) where
  read row _ i := (row[i]?).map UInt8.toNat
  write row _ i value := setByte row i value
  clear row _ := some row

def rgb16Get (p channel : Nat) : Nat := (p >>> (channel * 5)) &&& 0x1f

/-- `(p & !(0x1f << shift)) | ((val & 0x1f) << shift)` on 16 bits. -/
def rgb16Set (p channel val : Nat) : Nat :=
  (p &&& (0xffff - (0x1f <<< (channel * 5)))) ||| ((val &&& 0x1f) <<< (channel * 5))

def rgb16Plane : Layout (List Nat) where
  read row channel i := (row[i]?).map fun p => rgb16Get p channel
  write row channel i value := (row[i]?).map fun p => row.set i (rgb16Set p channel value)
  clear row i := if i < row.length then some (row.set i 0) else none

def rgbLanes : List (Nat × Nat) := [(0, 2), (1, 1), (2, 0)]

def predict {ρ : Type} (layout : Layout ρ) (prev : Option ρ) (cur : ρ) (lane i : Nat) :
    Except QuicFault Nat :=
  match i, prev with
  | 0, none => .ok 0
  | 0, some above => access (layout.read above lane 0)
  | left + 1, none => access (layout.read cur lane left)
  | left + 1, some above => do
      let a ← access (layout.read cur lane left)
      let b ← access (layout.read above lane (left + 1))
      .ok ((a + b) >>> 1)

/-! ### Runs of BGRA pixels -/

def sameByte (a : List UInt8) (ai : Nat) (b : List UInt8) (bi : Nat) : Except QuicFault Bool := do
  let left ← index a ai
  let right ← index b bi
  .ok (left == right)

/-- `same_bgr`, a conjunction that stops at the first difference. -/
def sameBgr (a : List UInt8) (ai : Nat) (b : List UInt8) (bi : Nat) : Except QuicFault Bool := do
  if ← sameByte a (ai * 4) b (bi * 4) then
    if ← sameByte a (ai * 4 + 1) b (bi * 4 + 1) then sameByte a (ai * 4 + 2) b (bi * 4 + 2)
    else .ok false
  else .ok false

def rleMatch (prevRow : Option (List UInt8)) (cur : List UInt8) (j : Nat) (runIndex : Int) :
    Except QuicFault Bool :=
  match prevRow with
  | none => .ok false
  | some prev =>
      if j ≤ 2 then .ok false
      else if runIndex = j then .ok false
      else do
        if ← sameBgr prev (j - 1) prev j then sameBgr cur (j - 1) cur (j - 2) else .ok false

/-- The encoder's copy of the predicate has the same body. -/
def encodeRleMatch (prevRow : Option (List UInt8)) (cur : List UInt8) (j : Nat) (runIndex : Int) :
    Except QuicFault Bool := rleMatch prevRow cur j runIndex

def copyPixel (cur : List UInt8) (k : Nat) : Except QuicFault (List UInt8) := do
  let b ← index cur ((k - 1) * 4)
  let cur ← assign cur (k * 4) b
  let g ← index cur ((k - 1) * 4 + 1)
  let cur ← assign cur (k * 4 + 1) g
  let r ← index cur ((k - 1) * 4 + 2)
  let cur ← assign cur (k * 4 + 2) r
  assign cur (k * 4 + 3) 0

def doRunCopyRgb32 (cur : List UInt8) (start : Nat) : Nat → Except QuicFault (List UInt8)
  | 0 => .ok cur
  | count + 1 => do
      let cur ← copyPixel cur start
      doRunCopyRgb32 cur (start + 1) count

def runSize (cur : List UInt8) (j : Nat) : Nat → Except QuicFault Nat
  | 0 => .ok 0
  | count + 1 => do
      if ← sameBgr cur j cur (j - 1) then
        let rest ← runSize cur (j + 1) count
        .ok (rest + 1)
      else .ok 0

/-! ### Full rows -/

section FullRows

variable {width : Nat} {row above : List UInt8}

def FullRow (width : Nat) (row : List UInt8) : Prop := row.length = width * 4

theorem FullRow.byte (full : FullRow width row) {i lane : Nat} (inside : i < width)
    (inPixel : lane < 4) : i * 4 + lane < row.length := by
  unfold FullRow at full
  omega

theorem setByte_ok {position : Nat} (inside : position < row.length) (value : Nat) :
    setByte row position value = some (row.set position (UInt8.ofNat value)) := if_pos inside

theorem FullRow.set (full : FullRow width row) (position : Nat) (value : UInt8) :
    FullRow width (row.set position value) := (List.length_set).trans full

theorem FullRow.read (full : FullRow width row) {i lane : Nat} (inside : i < width)
    (inPixel : lane < 4) :
    ∃ value : UInt8, row[i * 4 + lane]? = some value ∧ bgra.read row lane i = some value.toNat := by
  have inRow := full.byte inside inPixel
  refine ⟨row[i * 4 + lane], List.getElem?_eq_getElem inRow, ?_⟩
  simp only [bgra, List.getElem?_eq_getElem inRow, Option.map_some]

theorem predict_ok {prev : Option (List UInt8)} (full : FullRow width row)
    (fullAbove : ∀ above ∈ prev, FullRow width above) {i lane : Nat} (inside : i < width)
    (inPixel : lane < 4) : ∃ value, predict bgra prev row lane i = .ok value ∧ value < 256 := by
  cases i with
  | zero =>
      cases prev with
      | none => exact ⟨0, rfl, by decide⟩
      | some above =>
          obtain ⟨value, _at, read⟩ := (fullAbove above rfl).read inside inPixel
          exact ⟨value.toNat, by simp only [predict, read, Program.access_some], value.toNat_lt⟩
  | succ left =>
      obtain ⟨a, _at, readLeft⟩ := full.read (show left < width by omega) inPixel
      cases prev with
      | none =>
          exact ⟨a.toNat, by simp only [predict, readLeft, Program.access_some], a.toNat_lt⟩
      | some above =>
          obtain ⟨b, _at, readAbove⟩ := (fullAbove above rfl).read inside inPixel
          refine ⟨(a.toNat + b.toNat) >>> 1, ?_, ?_⟩
          · simp only [predict, readLeft, readAbove, Program.access_some]
            rfl
          · have aSmall := a.toNat_lt
            have bSmall := b.toNat_lt
            rw [Nat.shiftRight_eq_div_pow]
            omega

/-- The colour bytes of two pixels agree. -/
def SamePixel (a : List UInt8) (ai : Nat) (b : List UInt8) (bi : Nat) : Prop :=
  ∀ lane, lane < 3 → a[ai * 4 + lane]? = b[bi * 4 + lane]?

theorem SamePixel.symm {a b : List UInt8} {ai bi : Nat} (same : SamePixel a ai b bi) :
    SamePixel b bi a ai := fun lane inPixel => (same lane inPixel).symm

theorem SamePixel.trans {a b c : List UInt8} {ai bi ci : Nat} (first : SamePixel a ai b bi)
    (second : SamePixel b bi c ci) : SamePixel a ai c ci :=
  fun lane inPixel => (first lane inPixel).trans (second lane inPixel)

private theorem sameByte_ok {a b : List UInt8} {ai bi : Nat} (inA : ai < a.length)
    (inB : bi < b.length) :
    ∃ answer, sameByte a ai b bi = .ok answer ∧ (answer = true ↔ a[ai]? = b[bi]?) := by
  refine ⟨a[ai] == b[bi], ?_, ?_⟩
  · unfold sameByte
    rw [Program.bind_ok (Program.index_of_lt inA), Program.bind_ok (Program.index_of_lt inB)]
  · rw [List.getElem?_eq_getElem inA, List.getElem?_eq_getElem inB, beq_iff_eq, Option.some.injEq]

theorem sameBgr_ok {a b : List UInt8} (fullA : FullRow width a) (fullB : FullRow width b)
    {ai bi : Nat} (insideA : ai < width) (insideB : bi < width) :
    ∃ answer, sameBgr a ai b bi = .ok answer ∧ (answer = true ↔ SamePixel a ai b bi) := by
  obtain ⟨blue, blueRan, blueIff⟩ :=
    sameByte_ok (fullA.byte insideA (show 0 < 4 by decide)) (fullB.byte insideB (show 0 < 4 by decide))
  obtain ⟨green, greenRan, greenIff⟩ :=
    sameByte_ok (fullA.byte insideA (show 1 < 4 by decide)) (fullB.byte insideB (show 1 < 4 by decide))
  obtain ⟨red, redRan, redIff⟩ :=
    sameByte_ok (fullA.byte insideA (show 2 < 4 by decide)) (fullB.byte insideB (show 2 < 4 by decide))
  have pixel : SamePixel a ai b bi ↔ blue = true ∧ green = true ∧ red = true := by
    rw [blueIff, greenIff, redIff]
    constructor
    · exact fun same => ⟨same 0 (by decide), same 1 (by decide), same 2 (by decide)⟩
    · rintro ⟨sameBlue, sameGreen, sameRed⟩ lane inPixel
      interval_cases lane
      · exact sameBlue
      · exact sameGreen
      · exact sameRed
  rw [Nat.add_zero, Nat.add_zero] at blueRan
  refine ⟨blue && green && red, ?_, ?_⟩
  · unfold sameBgr
    rw [Program.bind_ok blueRan]
    cases blue with
    | false => rfl
    | true =>
        rw [if_pos rfl, Program.bind_ok greenRan]
        cases green with
        | false => rfl
        | true => exact redRan
  · rw [pixel, Bool.and_eq_true, Bool.and_eq_true, and_assoc]

theorem rleMatch_ok {prev : Option (List UInt8)} (full : FullRow width row)
    (fullAbove : ∀ above ∈ prev, FullRow width above) {j : Nat} (inside : j < width)
    (runIndex : Int) :
    ∃ answer, rleMatch prev row j runIndex = .ok answer ∧
      (answer = true ↔ ∃ above, prev = some above ∧ 2 < j ∧ runIndex ≠ j ∧
        SamePixel above (j - 1) above j ∧ SamePixel row (j - 1) row (j - 2)) := by
  cases prev with
  | none => exact ⟨false, rfl, by simp only [Bool.false_eq_true, reduceCtorEq, false_and, exists_false]⟩
  | some above =>
      by_cases early : j ≤ 2
      · refine ⟨false, by unfold rleMatch; exact if_pos early, ?_⟩
        simp only [Bool.false_eq_true, false_iff]
        rintro ⟨_above, _same, late, _rest⟩
        omega
      · by_cases again : runIndex = j
        · refine ⟨false, by unfold rleMatch; simp only; rw [if_neg early, if_pos again], ?_⟩
          simp only [Bool.false_eq_true, false_iff]
          rintro ⟨_above, _same, _late, differs, _rest⟩
          exact differs again
        · obtain ⟨higher, overRan, overIff⟩ := sameBgr_ok (fullAbove above rfl) (fullAbove above rfl)
            (show j - 1 < width by omega) inside
          obtain ⟨left, leftRan, leftIff⟩ := sameBgr_ok full full
            (show j - 1 < width by omega) (show j - 2 < width by omega)
          refine ⟨higher && left, ?_, ?_⟩
          · unfold rleMatch
            simp only
            rw [if_neg early, if_neg again, Program.bind_ok overRan]
            cases higher with
            | false => rfl
            | true => exact leftRan
          · rw [Bool.and_eq_true, overIff, leftIff]
            constructor
            · rintro ⟨sameOver, sameLeft⟩
              exact ⟨above, rfl, by omega, again, sameOver, sameLeft⟩
            · rintro ⟨_above, same, _late, _differs, sameOver, sameLeft⟩
              cases same
              exact ⟨sameOver, sameLeft⟩

theorem runSize_ok (full : FullRow width row) {j count : Nat} (positive : 0 < j)
    (inside : j + count ≤ width) :
    ∃ size, runSize row j count = .ok size ∧ size ≤ count ∧
      ∀ offset, offset < size → SamePixel row (j + offset) row (j - 1) := by
  induction count generalizing j with
  | zero => exact ⟨0, rfl, Nat.le_refl 0, fun offset none => absurd none (Nat.not_lt_zero offset)⟩
  | succ count ih =>
      obtain ⟨answer, answered, same⟩ := sameBgr_ok full full
        (show j < width by omega) (show j - 1 < width by omega)
      unfold runSize
      rw [Program.bind_ok answered]
      cases answer with
      | false =>
          exact ⟨0, rfl, Nat.zero_le _, fun offset none => absurd none (Nat.not_lt_zero offset)⟩
      | true =>
          obtain ⟨rest, restRan, restLe, repeats⟩ := ih (Nat.succ_pos j) (by omega)
          refine ⟨rest + 1, ?_, Nat.succ_le_succ restLe, ?_⟩
          · rw [if_pos rfl, Program.bind_ok restRan]
          · intro offset inRun
            cases offset with
            | zero => exact same.mp rfl
            | succ offset =>
                have later : SamePixel row (j + 1 + offset) row j := repeats offset (by omega)
                rw [show j + (offset + 1) = j + 1 + offset by omega]
                exact later.trans (same.mp rfl)

private theorem index_set_ne {items : List UInt8} {position other : Nat} {value item : UInt8}
    (differs : position ≠ other) (found : items[other]? = some item) :
    index (ε := QuicError) (items.set position value) other = .ok item :=
  Program.index_eq_ok.mpr ((List.getElem?_set_ne differs).trans found)

theorem copyPixel_ok (full : FullRow width row) {k : Nat} (positive : 0 < k) (inside : k < width) :
    ∃ row', copyPixel row k = .ok row' ∧ FullRow width row' ∧
      (∀ position, position / 4 ≠ k → row'[position]? = row[position]?) ∧
      SamePixel row' k row (k - 1) ∧ row'[k * 4 + 3]? = some 0 := by
  obtain ⟨b, readB, _b⟩ := full.read (show k - 1 < width by omega) (show 0 < 4 by decide)
  obtain ⟨g, readG, _g⟩ := full.read (show k - 1 < width by omega) (show 1 < 4 by decide)
  obtain ⟨r, readR, _r⟩ := full.read (show k - 1 < width by omega) (show 2 < 4 by decide)
  rw [Nat.add_zero] at readB
  have room := full.byte inside (show 3 < 4 by decide)
  refine ⟨(((row.set (k * 4) b).set (k * 4 + 1) g).set (k * 4 + 2) r).set (k * 4 + 3) 0,
    ?_, ?_, ?_, ?_, ?_⟩
  · unfold copyPixel
    rw [Program.bind_ok (Program.index_eq_ok.mpr readB),
      Program.bind_ok (Program.assign_of_lt b (by omega)),
      Program.bind_ok (index_set_ne (by omega) readG),
      Program.bind_ok (Program.assign_of_lt g (by simp only [List.length_set]; omega)),
      Program.bind_ok (index_set_ne (by omega) ((List.getElem?_set_ne (by omega)).trans readR)),
      Program.bind_ok (Program.assign_of_lt r (by simp only [List.length_set]; omega))]
    exact Program.assign_of_lt 0 (by simp only [List.length_set]; omega)
  · exact (((full.set _ _).set _ _).set _ _).set _ _
  · intro position elsewhere
    rw [List.getElem?_set_ne (by omega), List.getElem?_set_ne (by omega),
      List.getElem?_set_ne (by omega), List.getElem?_set_ne (by omega)]
  · intro lane inPixel
    interval_cases lane
    · rw [List.getElem?_set_ne (by omega), List.getElem?_set_ne (by omega),
        List.getElem?_set_ne (by omega), Nat.add_zero, Nat.add_zero, readB,
        List.getElem?_set_self (by omega)]
    · rw [List.getElem?_set_ne (by omega), List.getElem?_set_ne (by omega), readG,
        List.getElem?_set_self (by rw [List.length_set]; omega)]
    · rw [List.getElem?_set_ne (by omega), readR,
        List.getElem?_set_self (by rw [List.length_set, List.length_set]; omega)]
  · rw [List.getElem?_set_self (by simp only [List.length_set]; omega)]

theorem doRunCopyRgb32_ok (full : FullRow width row) {start count : Nat} (positive : 0 < start)
    (inside : start + count ≤ width) :
    ∃ row', doRunCopyRgb32 row start count = .ok row' ∧ FullRow width row' ∧
      (∀ position, position / 4 < start → row'[position]? = row[position]?) ∧
      ∀ offset, offset < count → SamePixel row' (start + offset) row (start - 1) ∧
        row'[(start + offset) * 4 + 3]? = some 0 := by
  induction count generalizing row start with
  | zero =>
      exact ⟨row, rfl, full, fun _position _before => rfl,
        fun offset none => absurd none (Nat.not_lt_zero offset)⟩
  | succ count ih =>
      obtain ⟨next, copied, fullNext, keptNext, sameNext, padNext⟩ :=
        copyPixel_ok full positive (show start < width by omega)
      obtain ⟨last, copiedRest, fullLast, keptLast, repeats⟩ :=
        ih fullNext (Nat.succ_pos start) (by omega)
      refine ⟨last, ?_, fullLast, ?_, ?_⟩
      · unfold doRunCopyRgb32
        rw [Program.bind_ok copied]
        exact copiedRest
      · intro position before
        rw [keptLast position (by omega), keptNext position (by omega)]
      · intro offset inRun
        cases offset with
        | zero =>
            constructor
            · intro lane inPixel
              rw [Nat.add_zero, keptLast _ (by omega)]
              exact sameNext lane inPixel
            · rw [Nat.add_zero, keptLast _ (by omega)]
              exact padNext
        | succ offset =>
            have later := repeats offset (by omega)
            rw [show start + 1 + offset = start + (offset + 1) by omega] at later
            exact ⟨later.1.trans sameNext, later.2⟩

end FullRows

/-! ### Rows of one size -/

/-- Rows in which the given lanes of every pixel below `width` can be read and
written, and stay so. -/
structure Layout.Lawful {ρ : Type} (layout : Layout ρ) (width : Nat) (full : ρ → Prop)
    (lanes : List (Nat × Nat)) : Prop where
  read : ∀ {row i lane}, full row → i < width → lane ∈ lanes →
    ∃ value, layout.read row lane.2 i = some value
  write : ∀ {row i lane} (value : Nat), full row → i < width → lane ∈ lanes →
    ∃ row', layout.write row lane.2 i value = some row'
  clear : ∀ {row i}, full row → i < width → ∃ row', layout.clear row i = some row'
  written : ∀ {row row' lane i value}, full row → layout.write row lane i value = some row' →
    full row'
  cleared : ∀ {row row' i}, full row → layout.clear row i = some row' → full row'

theorem Layout.Lawful.predict_ok {ρ : Type} {layout : Layout ρ} {width : Nat} {full : ρ → Prop}
    {lanes : List (Nat × Nat)} (lawful : layout.Lawful width full lanes) {prev : Option ρ} {cur : ρ}
    (fullCur : full cur) (fullPrev : ∀ above ∈ prev, full above) {i : Nat} {lane : Nat × Nat}
    (inside : i < width) (listed : lane ∈ lanes) :
    ∃ value, predict layout prev cur lane.2 i = .ok value := by
  cases i with
  | zero =>
      cases prev with
      | none => exact ⟨0, rfl⟩
      | some above =>
          obtain ⟨value, read⟩ := lawful.read (fullPrev above rfl) inside listed
          exact ⟨value, by simp only [predict, read, Program.access_some]⟩
  | succ left =>
      obtain ⟨a, readLeft⟩ := lawful.read fullCur (Nat.lt_of_succ_lt inside) listed
      cases prev with
      | none => exact ⟨a, by simp only [predict, readLeft, Program.access_some]⟩
      | some above =>
          obtain ⟨b, readAbove⟩ := lawful.read (fullPrev above rfl) inside listed
          refine ⟨(a + b) >>> 1, ?_⟩
          simp only [predict, readLeft, readAbove, Program.access_some]
          rfl

theorem setByte_length {row row' : List UInt8} {position value : Nat}
    (written : setByte row position value = some row') : row'.length = row.length := by
  unfold setByte at written
  split at written
  · cases written
    exact List.length_set
  · cases written

theorem bgra_lawful (width : Nat) {lanes : List (Nat × Nat)} (inPixel : ∀ lane ∈ lanes, lane.2 < 4) :
    bgra.Lawful width (FullRow width) lanes where
  read := by
    intro row i lane full inside listed
    obtain ⟨value, _at, read⟩ := full.read inside (inPixel lane listed)
    exact ⟨value.toNat, read⟩
  write := fun value full inside listed =>
    ⟨_, setByte_ok (full.byte inside (inPixel _ listed)) value⟩
  clear := fun full inside => ⟨_, setByte_ok (full.byte inside (show 3 < 4 by decide)) 0⟩
  written := fun full written => (setByte_length written).trans full
  cleared := fun full cleared => (setByte_length cleared).trans full

theorem alphaPlane_lawful (width : Nat) : alphaPlane.Lawful width (FullRow width) [(0, 3)] where
  read := (bgra_lawful width (by decide)).read
  write := (bgra_lawful width (by decide)).write
  clear := fun {row} _i _full _inside => ⟨row, rfl⟩
  written := fun full written => (setByte_length written).trans full
  cleared := fun full cleared => by
    cases cleared
    exact full

theorem grayPlane_lawful (width : Nat) (lanes : List (Nat × Nat)) :
    grayPlane.Lawful width (fun row => row.length = width) lanes where
  read := fun full inside _listed =>
    ⟨_, congrArg (Option.map UInt8.toNat) (List.getElem?_eq_getElem (full ▸ inside))⟩
  write := fun value full inside _listed => ⟨_, setByte_ok (full ▸ inside) value⟩
  clear := fun {row} _i _full _inside => ⟨row, rfl⟩
  written := fun full written => (setByte_length written).trans full
  cleared := fun full cleared => by
    cases cleared
    exact full

theorem rgb16Plane_lawful (width : Nat) (lanes : List (Nat × Nat)) :
    rgb16Plane.Lawful width (fun row => row.length = width) lanes where
  read := by
    intro row i lane full inside _listed
    exact ⟨rgb16Get (row.get ⟨i, full ▸ inside⟩) lane.2,
      congrArg (Option.map fun p => rgb16Get p lane.2) (List.getElem?_eq_getElem (full ▸ inside))⟩
  write := by
    intro row i lane value full inside _listed
    exact ⟨row.set i (rgb16Set (row.get ⟨i, full ▸ inside⟩) lane.2 value),
      congrArg (Option.map fun p => row.set i (rgb16Set p lane.2 value))
        (List.getElem?_eq_getElem (full ▸ inside))⟩
  clear := fun full inside => ⟨_, if_pos (full ▸ inside)⟩
  written := by
    intro row row' lane i value full written
    obtain ⟨p, _at, same⟩ := Option.map_eq_some_iff.mp written
    rw [← same, List.length_set]
    exact full
  cleared := by
    intro row row' i full cleared
    change (if i < row.length then some (row.set i 0) else none) = some row' at cleared
    split at cleared
    · cases cleared
      rw [List.length_set]
      exact full
    · cases cleared

end Capsaicin.Quic
