/-
The code-length counters of a bucket over any sequence of model updates: they stay
far from the width of their type, and `bestcode` is the cheapest code each time.
-/

import Capsaicin.Library.Counters
import Capsaicin.Quic.Model

namespace Capsaicin.Quic

open Counters (Balanced LastMinimum)

def Bucket.counter (bucket : Bucket) (i : Nat) : Nat := bucket.counters.getD i 0

/-- A state whose trigger was set by `set_wm_trigger` at one of the indices in use. -/
structure CommonState.Triggered (state : CommonState) : Prop where
  reached : state.wmidx ≤ DEFWMIMAX
  current : state.setWmTrigger = state

def updateModels (family : Family) (bucket : Bucket) :
    List (CommonState × UInt8) → Except QuicFault Bucket
  | [] => .ok bucket
  | call :: rest => do
      let bucket ← updateModel family call.1 bucket call.2
      updateModels family bucket rest

/-! ### Code lengths -/

def codeLen (bpc : Nat) (n : UInt8) (l : Nat) : Nat :=
  if n.toNat < altprefixlen bpc l <<< l then (n.toNat >>> l) + l + 1
  else altprefixlen bpc l + ceilLog2 (altcodewords bpc l)

def LONGEST : Nat := 31

theorem familyGolombCodeLen_eq {bpc l : Nat} (known : KnownCode bpc l) (n : UInt8) :
    familyGolombCodeLen (Family.init bpc) n l = .ok (codeLen bpc n l) := by
  unfold familyGolombCodeLen Family.init codeLen
  rw [Program.bind_ok (index_perCode _ known)]
  by_cases plain : n.toNat < altprefixlen bpc l <<< l
  · rw [if_pos plain, if_pos plain]
    rfl
  · rw [if_neg plain, if_neg plain]
    exact index_perCode (fun l => altprefixlen bpc l + ceilLog2 (altcodewords bpc l)) known

theorem codeLen_bounds {bpc l : Nat} (known : KnownCode bpc l) (n : UInt8) :
    1 ≤ codeLen bpc n l ∧ codeLen bpc n l ≤ LONGEST := by
  have shape := known.shape
  have positive := shape.prefixPositive
  have short := shape.short
  have shortPlain := shape.shortPlain
  unfold codeLen LONGEST
  split
  · rename_i plain
    have zeros : n.toNat >>> l < altprefixlen bpc l := by
      rw [Nat.shiftLeft_eq] at plain
      rw [Nat.shiftRight_eq_div_pow]
      exact (Nat.div_lt_iff_lt_mul (Nat.two_pow_pos l)).mpr plain
    generalize n.toNat >>> l = length at zeros
    omega
  · omega

theorem CommonState.Triggered.wmTrigger_le {state : CommonState} (triggered : state.Triggered) :
    state.wmTrigger ≤ 900 := by
  have reached := triggered.reached
  have entry : state.wmTrigger = BESTTRIGTAB.getD state.wmidx 0 := by
    have current := congrArg CommonState.wmTrigger triggered.current
    unfold setWmTrigger at current
    rw [if_neg (by unfold DEFWMIMAX at reached; omega)] at current
    exact current.symm
  have all : ∀ wmidx, wmidx ≤ DEFWMIMAX → BESTTRIGTAB.getD wmidx 0 ≤ 900 := by decide
  rw [entry]
  exact all state.wmidx reached

/-! ### One update -/

section Update

variable {bpc : Nat} (family : bpc = 8 ∨ bpc = 5) (curval : UInt8)

include family

theorem countCode_eq {i : Nat} {counters : List Nat} (inRange : i < bpc)
    (codes : counters.length = MAXNUMCODES) (room : counters.getD i 0 + LONGEST < 2 ^ 32) :
    countCode (Family.init bpc) curval i counters =
      .ok (counters.set i (counters.getD i 0 + codeLen bpc curval i),
        counters.getD i 0 + codeLen bpc curval i) := by
  have known : KnownCode bpc i := ⟨family, inRange⟩
  have listed : i < counters.length := codes ▸ known.lt_maxnumcodes
  have long := (codeLen_bounds known curval).2
  have entry : counters.getD i 0 = counters[i] := List.getD_eq_getElem counters 0 listed
  have small : (counters[i] + codeLen bpc curval i) % 2 ^ 32 =
      counters[i] + codeLen bpc curval i := by
    apply Nat.mod_eq_of_lt
    omega
  unfold countCode
  rw [Program.bind_ok (Program.index_of_lt listed),
    Program.bind_ok (familyGolombCodeLen_eq known curval), small,
    Program.bind_ok (Program.assign_of_lt _ listed), entry]
  rfl

variable {before grown : Nat → Nat}

theorem updateLoop_eq (room : ∀ i, i < bpc → before i + LONGEST < 2 ^ 32)
    (grows : ∀ i, i < bpc → grown i = before i + codeLen bpc curval i)
    {i best : Nat} {counters : List Nat} (inRange : i ≤ bpc)
    (codes : counters.length = MAXNUMCODES)
    (done : ∀ j, counters.getD j 0 = if i ≤ j ∧ j < bpc then grown j else before j)
    (minimum : LastMinimum grown i bpc best) :
    ∃ counters' best', updateLoop (Family.init bpc) curval i counters best (grown best) =
        .ok (counters', best', grown best') ∧
      counters'.length = MAXNUMCODES ∧
      (∀ j, counters'.getD j 0 = if j < bpc then grown j else before j) ∧
      LastMinimum grown 0 bpc best' := by
  induction i generalizing best counters with
  | zero =>
      refine ⟨counters, best, rfl, codes, ?_, minimum⟩
      intro j
      rw [done j]
      simp
  | succ i ih =>
      have here : counters.getD i 0 = before i := by
        rw [done i]
        simp
      have counted := countCode_eq family curval (show i < bpc by omega) codes
        (by rw [here]; exact room i (by omega))
      rw [here, ← grows i (by omega)] at counted
      have length : (counters.set i (grown i)).length = MAXNUMCODES := by
        rw [List.length_set]
        exact codes
      have doneNext : ∀ j, (counters.set i (grown i)).getD j 0 =
          if i ≤ j ∧ j < bpc then grown j else before j := by
        intro j
        have listed : i < counters.length := by
          rw [codes]
          exact KnownCode.lt_maxnumcodes ⟨family, show i < bpc by omega⟩
        by_cases same : j = i
        · subst same
          simp [listed, show j < bpc by omega]
        · have other := done j
          have bounds : (i + 1 ≤ j ∧ j < bpc) ↔ (i ≤ j ∧ j < bpc) := by omega
          rw [List.getD_eq_getElem?_getD] at other ⊢
          rw [List.getElem?_set_ne (fun equal => same equal.symm), other]
          simp only [bounds]
      have next := ih (by omega) length doneNext minimum.extend
      unfold updateLoop
      rw [Program.bind_ok counted]
      dsimp only
      by_cases smaller : grown i < grown best
      · rw [if_pos smaller] at next ⊢
        exact next
      · rw [if_neg smaller] at next ⊢
        exact next

/-- One update adds its code length to every counter, takes the last of the cheapest codes,
and halves the counters when that one passes the trigger. -/
theorem updateModel_eq (state : CommonState) {bucket : Bucket}
    (codes : bucket.counters.length = MAXNUMCODES)
    (room : ∀ i, i < bpc → bucket.counter i + LONGEST < 2 ^ 32)
    (grows : ∀ i, i < bpc → grown i = bucket.counter i + codeLen bpc curval i) :
    ∃ bucket', updateModel (Family.init bpc) state bucket curval = .ok bucket' ∧
      bucket'.counters.length = MAXNUMCODES ∧
      LastMinimum grown 0 bpc bucket'.bestcode ∧
      (∀ i, i < bpc → bucket'.counter i =
        if state.wmTrigger < grown bucket'.bestcode then grown i / 2 else grown i) ∧
      ∀ i, bpc ≤ i → bucket'.counter i = bucket.counter i := by
  have last : bpc - 1 < bpc := by omega
  have lastListed : bpc - 1 < bucket.counters.length := by
    rw [codes]
    exact KnownCode.lt_maxnumcodes ⟨family, last⟩
  have counted := countCode_eq family curval last codes (room _ last)
  have grew : bucket.counters.getD (bpc - 1) 0 + codeLen bpc curval (bpc - 1) = grown (bpc - 1) :=
    (grows _ last).symm
  rw [grew] at counted
  have single : LastMinimum grown (bpc - 1) bpc (bpc - 1) := by
    have only := LastMinimum.single grown (bpc - 1)
    have total : bpc - 1 + 1 = bpc := by omega
    rw [total] at only
    exact only
  have length : (bucket.counters.set (bpc - 1) (grown (bpc - 1))).length = MAXNUMCODES := by
    rw [List.length_set]
    exact codes
  have start : ∀ j, (bucket.counters.set (bpc - 1) (grown (bpc - 1))).getD j 0 =
      if bpc - 1 ≤ j ∧ j < bpc then grown j else bucket.counter j := by
    intro j
    by_cases same : j = bpc - 1
    · subst same
      simp [lastListed, last]
    · have outside : ¬(bpc - 1 ≤ j ∧ j < bpc) := by omega
      rw [List.getD_eq_getElem?_getD, List.getElem?_set_ne (fun equal => same equal.symm),
        if_neg outside, ← List.getD_eq_getElem?_getD]
      rfl
  obtain ⟨counters, best, looped, codes', done, minimum⟩ :=
    updateLoop_eq family curval room grows (by omega) length start single
  unfold updateModel
  simp only [Family.init_bpc]
  rw [Program.bind_ok counted]
  dsimp only
  rw [Program.bind_ok looped]
  dsimp only
  have wide : bpc ≤ counters.length := by
    rw [codes']
    unfold MAXNUMCODES
    rcases family with rfl | rfl <;> omega
  refine ⟨_, rfl, ?_, minimum, ?_, ?_⟩
  · dsimp only
    split
    · simp
      omega
    · exact codes'
  · intro i below
    have entry := done i
    rw [if_pos below] at entry
    dsimp only [Bucket.counter]
    by_cases passed : grown best > state.wmTrigger
    · rw [if_pos passed, if_pos passed, ← entry, List.getD_eq_getElem?_getD,
        List.getD_eq_getElem?_getD, List.getElem?_append_left (by simp; omega), List.getElem?_map,
        List.getElem?_take_of_lt below, List.getElem?_eq_getElem (by omega)]
      simp [Nat.shiftRight_eq_div_pow]
    · rw [if_neg passed, if_neg passed]
      exact entry
  · intro i above
    have entry := done i
    rw [if_neg (Nat.not_lt.mpr above)] at entry
    dsimp only [Bucket.counter]
    by_cases passed : grown best > state.wmTrigger
    · have front : ((counters.take bpc).map fun counter => counter >>> 1).length = bpc := by
        simp
        omega
      have place : bpc + (i - bpc) = i := by omega
      rw [if_pos passed, List.getD_eq_getElem?_getD, List.getElem?_append_right (by omega), front,
        List.getElem?_drop, place, ← List.getD_eq_getElem?_getD]
      exact entry
    · rw [if_neg passed]
      exact entry

end Update

/-! ### Any sequence of updates -/

/-- The counters are balanced around a least one below the largest trigger, and those of no
code are zero. -/
structure Bucket.Level (bpc : Nat) (bucket : Bucket) : Prop where
  codes : bucket.counters.length = MAXNUMCODES
  balanced : ∃ least, least ≤ 900 ∧ Balanced bpc LONGEST bucket.counter least
  unused : ∀ i, bpc ≤ i → bucket.counter i = 0

theorem Bucket.new_level {bpc : Nat} (some : 0 < bpc) : (Bucket.new bpc).Level bpc := by
  have zero : ∀ i, (Bucket.new bpc).counter i = 0 := by
    intro i
    simp only [counter, Bucket.new, List.getD_eq_getElem?_getD, List.getElem?_replicate]
    split <;> rfl
  constructor
  · exact List.length_replicate
  · exact ⟨0, Nat.zero_le 900, (Balanced.zero some).congr fun i _below => zero i⟩
  · exact fun i _above => zero i

theorem Bucket.Level.bounded {bpc : Nat} {bucket : Bucket} (level : bucket.Level bpc) (i : Nat) :
    bucket.counter i + LONGEST < 2 ^ 15 := by
  obtain ⟨least, low, balanced⟩ := level.balanced
  by_cases below : i < bpc
  · have upper := balanced.upper i below
    have ceiling : LONGEST * (least + 1) ≤ LONGEST * 901 := Nat.mul_le_mul_left LONGEST (by omega)
    unfold LONGEST at *
    omega
  · rw [level.unused i (Nat.not_lt.mp below)]
    decide

structure Updated (bpc : Nat) (state : CommonState) (curval : UInt8) (bucket bucket' : Bucket)
    (grown : Nat → Nat) : Prop where
  sums : ∀ i, i < bpc → ∃ len, familyGolombCodeLen (Family.init bpc) curval i = .ok len ∧
    grown i = bucket.counter i + len
  bounded : ∀ i, i < bpc → grown i < 2 ^ 15
  best : LastMinimum grown 0 bpc bucket'.bestcode
  halved : ∀ i, i < bpc → bucket'.counter i =
    if state.wmTrigger < grown bucket'.bestcode then grown i / 2 else grown i

theorem Bucket.Level.update {bpc : Nat} (family : bpc = 8 ∨ bpc = 5) {state : CommonState}
    (triggered : state.Triggered) (curval : UInt8) {bucket : Bucket} (level : bucket.Level bpc) :
    ∃ bucket' grown, updateModel (Family.init bpc) state bucket curval = .ok bucket' ∧
      bucket'.Level bpc ∧ Updated bpc state curval bucket bucket' grown := by
  have bounded := level.bounded
  have room : ∀ i, i < bpc → bucket.counter i + LONGEST < 2 ^ 32 := by
    intro i _below
    exact Nat.lt_trans (bounded i) (by decide)
  have grows : ∀ i, i < bpc → (fun i => bucket.counter i + codeLen bpc curval i) i =
      bucket.counter i + codeLen bpc curval i := fun _i _below => rfl
  obtain ⟨bucket', updated, codes, minimum, halved, unused⟩ :=
    updateModel_eq family curval state level.codes room grows
  obtain ⟨least, low, balanced⟩ := level.balanced
  have trigger := triggered.wmTrigger_le
  have steps : ∀ i, i < bpc → bucket.counter i + 1 ≤ bucket.counter i + codeLen bpc curval i ∧
      bucket.counter i + codeLen bpc curval i ≤ bucket.counter i + LONGEST := by
    intro i below
    have len := codeLen_bounds ⟨family, below⟩ curval
    omega
  obtain ⟨grownBalanced, rise⟩ := balanced.grow steps minimum
  have unused' : ∀ i, bpc ≤ i → bucket'.counter i = 0 := by
    intro i above
    rw [unused i above]
    exact level.unused i above
  refine ⟨bucket', fun i => bucket.counter i + codeLen bpc curval i, updated, ?_, ?_⟩
  · by_cases passed : state.wmTrigger <
        bucket.counter bucket'.bestcode + codeLen bpc curval bucket'.bestcode
    · refine ⟨codes, ⟨_, ?_, grownBalanced.halve.congr ?_⟩, unused'⟩
      · unfold LONGEST at rise
        omega
      · intro i below
        rw [halved i below]
        exact if_pos passed
    · refine ⟨codes, ⟨_, ?_, grownBalanced.congr ?_⟩, unused'⟩
      · omega
      · intro i below
        rw [halved i below]
        exact if_neg passed
  · constructor
    · intro i below
      exact ⟨_, familyGolombCodeLen_eq ⟨family, below⟩ curval, rfl⟩
    · intro i below
      exact Nat.lt_of_le_of_lt (steps i below).2 (bounded i)
    · exact minimum
    · exact halved

theorem Bucket.Level.updates {bpc : Nat} (family : bpc = 8 ∨ bpc = 5)
    {calls : List (CommonState × UInt8)} (triggered : ∀ call ∈ calls, call.1.Triggered)
    {bucket : Bucket} (level : bucket.Level bpc) :
    ∃ bucket', updateModels (Family.init bpc) bucket calls = .ok bucket' ∧ bucket'.Level bpc := by
  induction calls generalizing bucket with
  | nil => exact ⟨bucket, rfl, level⟩
  | cons call rest ih =>
      obtain ⟨middle, _grown, updated, middleLevel, _sums⟩ :=
        level.update family (triggered call List.mem_cons_self) call.2
      obtain ⟨last, later, lastLevel⟩ :=
        ih (fun other member => triggered other (List.mem_cons_of_mem call member)) middleLevel
      refine ⟨last, ?_, lastLevel⟩
      unfold updateModels
      rw [Program.bind_ok updated]
      exact later

/-- Over any sequence of updates the counters stay below `2 ^ 15`, and each update makes
`bestcode` the last of the cheapest codes before the halving. -/
theorem updateModels_bounded {bpc : Nat} (family : bpc = 8 ∨ bpc = 5)
    (calls : List (CommonState × UInt8)) (triggered : ∀ call ∈ calls, call.1.Triggered) :
    ∃ bucket, updateModels (Family.init bpc) (Bucket.new bpc) calls = .ok bucket ∧
      (∀ i, bucket.counter i < 2 ^ 15) ∧
      ∀ (state : CommonState) (curval : UInt8), state.Triggered →
        ∃ bucket' grown, updateModel (Family.init bpc) state bucket curval = .ok bucket' ∧
          Updated bpc state curval bucket bucket' grown := by
  have some : 0 < bpc := by omega
  obtain ⟨bucket, updated, level⟩ := (Bucket.new_level some).updates family triggered
  refine ⟨bucket, updated, ?_, ?_⟩
  · intro i
    exact Nat.lt_of_le_of_lt (Nat.le_add_right _ _) (level.bounded i)
  · intro state curval current
    obtain ⟨bucket', grown, once, _level, sums⟩ := level.update family current curval
    exact ⟨bucket', grown, once, sums⟩

theorem updateModels_bounded_twice :
    ∃ bucket, updateModels (Family.init 8) (Bucket.new 8) [(.default, 200), (.default, 3)] =
        .ok bucket ∧
      (∀ i, bucket.counter i < 2 ^ 15) ∧
      ∀ (state : CommonState) (curval : UInt8), state.Triggered →
        ∃ bucket' grown, updateModel (Family.init 8) state bucket curval = .ok bucket' ∧
          Updated 8 state curval bucket bucket' grown :=
  updateModels_bounded (Or.inl rfl) [(.default, 200), (.default, 3)] (by
    intro call member
    have start : call.1 = .default := by
      simp only [List.mem_cons, List.not_mem_nil, or_false] at member
      rcases member with rfl | rfl <;> rfl
    rw [start]
    exact ⟨Nat.zero_le _, rfl⟩)

end Capsaicin.Quic
