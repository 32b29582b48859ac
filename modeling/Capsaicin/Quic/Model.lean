/-
The adaptive model of one channel: buckets of code-length counters, the map from
a residual to its bucket, and the row of residuals that selects them.
-/

import Capsaicin.Quic.Family
import Capsaicin.Quic.State

namespace Capsaicin.Quic

open Program (index assign)

structure Bucket where
  counters : List Nat
  bestcode : Nat
  deriving DecidableEq, Repr

def Bucket.new (bpc : Nat) : Bucket :=
  { counters := List.replicate MAXNUMCODES 0, bestcode := bpc - 1 }

structure ChannelDecoder where
  buckets : List Bucket
  bucketPtrs : List Nat
  correlateRow : List UInt8
  prevMinus1 : UInt8
  deriving DecidableEq, Repr

/-- The `loop` of `build_bucket_sizes`; each pass covers at least one level. -/
def bucketSizesLoop (levels : Nat) : Nat → List Nat → Nat → Nat → Nat → List Nat
  | 0, sizes, _, _, _ => sizes
  | fuel + 1, sizes, bend, bsize, repcntr =>
      let bstart := if sizes.isEmpty then 0 else bend + 1
      let grow := repcntr - 1 = 0
      let repcntr := if grow then 1 else repcntr - 1
      let bsize := if grow then bsize * 2 else bsize
      let newBend := bstart + bsize - 1
      let bend := if newBend + bsize ≥ levels then levels - 1 else newBend
      let sizes := sizes ++ [bend - bstart + 1]
      if bend ≥ levels - 1 then sizes else bucketSizesLoop levels fuel sizes bend bsize repcntr

def buildBucketSizes (levels : Nat) : List Nat := bucketSizesLoop levels levels [] 0 1 2

example : buildBucketSizes 256 = [1, 2, 4, 8, 16, 32, 64, 129] := by decide

/-- The sizes add up to the number of levels, so every level gets a bucket and
the last one is filled by the last pass of the source's loop. -/
def ChannelDecoder.new (bpc width : Nat) : ChannelDecoder :=
  let levels := 1 <<< bpc
  let bucketSizes := buildBucketSizes levels
  let filled := bucketSizes.zipIdx.flatMap fun sized => List.replicate sized.1 sized.2
  { buckets := bucketSizes.map fun _ => Bucket.new bpc
    bucketPtrs := filled ++ List.replicate (levels - filled.length) (bucketSizes.length - 1)
    correlateRow := List.replicate width 0
    prevMinus1 := 0 }

def ChannelDecoder.findBucketIdx (chan : ChannelDecoder) (val : UInt8) : Except QuicFault Nat :=
  index chan.bucketPtrs val.toNat

def ChannelDecoder.findBucket (chan : ChannelDecoder) (val : UInt8) : Except QuicFault Bucket := do
  let idx ← chan.findBucketIdx val
  index chan.buckets idx

/-- The residual on the left of position `i`, which selects the bucket there. -/
def ChannelDecoder.context (chan : ChannelDecoder) (i : Nat) : Except QuicFault UInt8 :=
  match i with
  | 0 => .ok chan.prevMinus1
  | left + 1 => index chan.correlateRow left

def countCode (family : Family) (curval : UInt8) (i : Nat) (counters : List Nat) :
    Except QuicFault (List Nat × Nat) := do
  let counter ← index counters i
  let codeLen ← familyGolombCodeLen family curval i
  let counter := (counter + codeLen) % 2 ^ 32
  let counters ← assign counters i counter
  pure (counters, counter)

/-- The descending loop of `update_model` over the codes below `i`. -/
def updateLoop (family : Family) (curval : UInt8) :
    Nat → List Nat → Nat → Nat → Except QuicFault (List Nat × Nat × Nat)
  | 0, counters, bestcode, bestCodelen => .ok (counters, bestcode, bestCodelen)
  | i + 1, counters, bestcode, bestCodelen => do
      let (counters, counter) ← countCode family curval i counters
      if counter < bestCodelen then updateLoop family curval i counters i counter
      else updateLoop family curval i counters bestcode bestCodelen

def updateModel (family : Family) (state : CommonState) (bucket : Bucket) (curval : UInt8) :
    Except QuicFault Bucket := do
  let bestcode := family.bpc - 1
  let (counters, bestCodelen) ← countCode family curval bestcode bucket.counters
  let (counters, bestcode, bestCodelen) ←
    updateLoop family curval (family.bpc - 1) counters bestcode bestCodelen
  let counters :=
    if bestCodelen > state.wmTrigger then
      (counters.take family.bpc).map (fun counter => counter >>> 1) ++ counters.drop family.bpc
    else counters
  pure { counters := counters, bestcode := bestcode }

def ChannelDecoder.updateAt (family : Family) (state : CommonState) (idx : Nat)
    (chan : ChannelDecoder) : Except QuicFault ChannelDecoder := do
  let bucketVal ← chan.context idx
  let curval ← index chan.correlateRow idx
  let bidx ← chan.findBucketIdx bucketVal
  let bucket ← index chan.buckets bidx
  let bucket ← updateModel family state bucket curval
  pure { chan with buckets := chan.buckets.set bidx bucket }

@[simp] theorem Family.init_bpc (bpc : Nat) : (Family.init bpc).bpc = bpc := rfl

/-! ### Well-formed channels -/

structure Bucket.Sound (bpc : Nat) (bucket : Bucket) : Prop where
  codes : bucket.counters.length = MAXNUMCODES
  best : bucket.bestcode < bpc

structure ChannelDecoder.Sound (bpc width : Nat) (chan : ChannelDecoder) : Prop where
  buckets : ∀ bucket ∈ chan.buckets, bucket.Sound bpc
  pointers : ∀ val, val < 2 ^ bpc → ∃ idx, chan.bucketPtrs[val]? = some idx ∧
    idx < chan.buckets.length
  row : chan.correlateRow.length = width

/-- Every stored residual is a symbol of the family. -/
structure ChannelDecoder.InAlphabet (bpc : Nat) (chan : ChannelDecoder) : Prop where
  row : ∀ residual ∈ chan.correlateRow, residual.toNat < 2 ^ bpc
  left : chan.prevMinus1.toNat < 2 ^ bpc

theorem countCode_ok {bpc i : Nat} {curval : UInt8} {counters : List Nat}
    (known : KnownCode bpc i) (codes : counters.length = MAXNUMCODES) :
    ∃ counters' counter, countCode (Family.init bpc) curval i counters = .ok (counters', counter) ∧
      counters'.length = MAXNUMCODES := by
  have inRange : i < counters.length := codes ▸ known.lt_maxnumcodes
  have codeLen : ∃ len, familyGolombCodeLen (Family.init bpc) curval i = .ok len := by
    unfold familyGolombCodeLen Family.init
    rw [Program.bind_ok (index_perCode _ known)]
    by_cases plain : curval.toNat < altprefixlen bpc i <<< i
    · exact ⟨_, if_pos plain⟩
    · rw [if_neg plain]
      exact ⟨_, index_perCode (fun l => altprefixlen bpc l + ceilLog2 (altcodewords bpc l)) known⟩
  obtain ⟨len, lenEq⟩ := codeLen
  refine ⟨counters.set i ((counters[i] + len) % 2 ^ 32), (counters[i] + len) % 2 ^ 32, ?_, ?_⟩
  · unfold countCode
    rw [Program.bind_ok (Program.index_of_lt inRange), Program.bind_ok lenEq,
      Program.bind_ok (Program.assign_of_lt _ inRange)]
    rfl
  · rw [List.length_set]
    exact codes

theorem updateLoop_ok {bpc : Nat} (family : bpc = 8 ∨ bpc = 5) {curval : UInt8} {i : Nat}
    {counters : List Nat} {bestcode : Nat} (bestCodelen : Nat) (inRange : i ≤ bpc)
    (codes : counters.length = MAXNUMCODES) (best : bestcode < bpc) :
    ∃ counters' bestcode' bestCodelen',
      updateLoop (Family.init bpc) curval i counters bestcode bestCodelen =
        .ok (counters', bestcode', bestCodelen') ∧
      counters'.length = MAXNUMCODES ∧ bestcode' < bpc := by
  induction i generalizing counters bestcode bestCodelen with
  | zero => exact ⟨_, _, _, rfl, codes, best⟩
  | succ i ih =>
      obtain ⟨counters', counter, counted, codes'⟩ :=
        countCode_ok ⟨family, inRange⟩ codes
      unfold updateLoop
      rw [Program.bind_ok counted]
      dsimp only
      split
      · exact ih counter (Nat.le_of_lt inRange) codes' inRange
      · exact ih bestCodelen (Nat.le_of_lt inRange) codes' best

theorem updateModel_ok {bpc : Nat} (family : bpc = 8 ∨ bpc = 5) (state : CommonState)
    {bucket : Bucket} (curval : UInt8) (sound : bucket.Sound bpc) :
    ∃ bucket', updateModel (Family.init bpc) state bucket curval = .ok bucket' ∧
      bucket'.Sound bpc := by
  have last : bpc - 1 < bpc := by omega
  obtain ⟨counters, counter, counted, codes⟩ :=
    countCode_ok ⟨family, last⟩ sound.codes
  obtain ⟨counters', bestcode, bestCodelen, looped, codes', best⟩ :=
    updateLoop_ok family counter (Nat.sub_le bpc 1) codes last
  unfold updateModel
  simp only [Family.init_bpc]
  rw [Program.bind_ok counted]
  dsimp only
  rw [Program.bind_ok looped]
  refine ⟨_, rfl, ?_, best⟩
  dsimp only
  split
  · rw [List.length_append, List.length_map, List.length_take, List.length_drop]
    omega
  · exact codes'

theorem ChannelDecoder.findBucket_ok {bpc width : Nat} {chan : ChannelDecoder}
    (sound : chan.Sound bpc width) {val : UInt8} (inAlphabet : val.toNat < 2 ^ bpc) :
    ∃ idx bucket, chan.findBucketIdx val = .ok idx ∧ chan.findBucket val = .ok bucket ∧
      chan.buckets[idx]? = some bucket ∧ bucket.Sound bpc := by
  obtain ⟨idx, pointer, inRange⟩ := sound.pointers val.toNat inAlphabet
  have found : chan.findBucketIdx val = .ok idx := Program.index_eq_ok.mpr pointer
  refine ⟨idx, chan.buckets[idx], found, ?_, List.getElem?_eq_getElem inRange,
    sound.buckets _ (List.getElem_mem inRange)⟩
  unfold findBucket
  rw [Program.bind_ok found]
  exact Program.index_of_lt inRange

theorem ChannelDecoder.context_ok {bpc width i : Nat} {chan : ChannelDecoder}
    (sound : chan.Sound bpc width) (symbols : chan.InAlphabet bpc) (inRange : i < width) :
    ∃ val, chan.context i = .ok val ∧ val.toNat < 2 ^ bpc := by
  cases i with
  | zero => exact ⟨_, rfl, symbols.left⟩
  | succ left =>
      have inRow : left < chan.correlateRow.length := by
        rw [sound.row]
        omega
      exact ⟨_, Program.index_of_lt inRow, symbols.row _ (List.getElem_mem inRow)⟩

theorem ChannelDecoder.inAlphabet_eight (chan : ChannelDecoder) : chan.InAlphabet 8 where
  row := fun residual _member => residual.toNat_lt
  left := chan.prevMinus1.toNat_lt

theorem ChannelDecoder.context_set (chan : ChannelDecoder) (i : Nat) (residual : UInt8) :
    ({ chan with correlateRow := chan.correlateRow.set i residual } : ChannelDecoder).context i =
      chan.context i := by
  cases i with
  | zero => rfl
  | succ left =>
      unfold context Program.index
      dsimp only
      rw [List.getElem?_set_ne (by omega)]

theorem ChannelDecoder.Sound.place {bpc width i : Nat} {chan : ChannelDecoder}
    (sound : chan.Sound bpc width) (residual : UInt8) :
    ({ chan with correlateRow := chan.correlateRow.set i residual } : ChannelDecoder).Sound
      bpc width where
  buckets := sound.buckets
  pointers := sound.pointers
  row := (List.length_set).trans sound.row

theorem ChannelDecoder.InAlphabet.place {bpc i : Nat} {chan : ChannelDecoder}
    (symbols : chan.InAlphabet bpc) {residual : UInt8} (inAlphabet : residual.toNat < 2 ^ bpc) :
    ({ chan with correlateRow := chan.correlateRow.set i residual } : ChannelDecoder).InAlphabet
      bpc where
  row := by
    intro other member
    rcases List.mem_or_eq_of_mem_set member with old | new
    · exact symbols.row other old
    · exact new ▸ inAlphabet
  left := symbols.left

theorem ChannelDecoder.updateAt_ok {bpc width idx : Nat} (family : bpc = 8 ∨ bpc = 5)
    (state : CommonState) {chan : ChannelDecoder} (sound : chan.Sound bpc width)
    (symbols : chan.InAlphabet bpc) (inRange : idx < width) :
    ∃ chan', chan.updateAt (Family.init bpc) state idx = .ok chan' ∧ chan'.Sound bpc width ∧
      chan'.correlateRow = chan.correlateRow ∧ chan'.prevMinus1 = chan.prevMinus1 := by
  obtain ⟨val, contextEq, valIn⟩ := ChannelDecoder.context_ok sound symbols inRange
  have inRow : idx < chan.correlateRow.length := sound.row ▸ inRange
  obtain ⟨bidx, bucket, pointer, _found, bucketAt, bucketSound⟩ :=
    ChannelDecoder.findBucket_ok sound valIn
  obtain ⟨bucket', updated, sound'⟩ :=
    updateModel_ok family state chan.correlateRow[idx] bucketSound
  refine ⟨{ chan with buckets := chan.buckets.set bidx bucket' }, ?_, ?_, rfl, rfl⟩
  · unfold updateAt
    rw [Program.bind_ok contextEq, Program.bind_ok (Program.index_of_lt inRow),
      Program.bind_ok pointer, Program.bind_ok (Program.index_eq_ok.mpr bucketAt),
      Program.bind_ok updated]
    rfl
  · refine ⟨?_, ?_, sound.row⟩
    · intro other member
      rcases List.mem_or_eq_of_mem_set member with old | new
      · exact sound.buckets other old
      · subst new
        exact sound'
    · intro other inAlphabet
      obtain ⟨place, at_, inside⟩ := sound.pointers other inAlphabet
      refine ⟨place, at_, ?_⟩
      rw [List.length_set]
      exact inside

def AllSound (bpc width : Nat) (chans : List ChannelDecoder) : Prop :=
  ∀ chan ∈ chans, chan.Sound bpc width ∧ chan.InAlphabet bpc

theorem updateAll_ok {bpc width idx : Nat} (family : bpc = 8 ∨ bpc = 5) (state : CommonState)
    {chans : List ChannelDecoder} (sound : AllSound bpc width chans) (inRange : idx < width) :
    ∃ chans', chans.mapM (ChannelDecoder.updateAt (Family.init bpc) state idx) = .ok chans' ∧
      chans'.length = chans.length ∧ AllSound bpc width chans' := by
  apply Program.mapM_ok
  intro chan member
  obtain ⟨chan', updated, sound', row, left⟩ :=
    ChannelDecoder.updateAt_ok family state (sound chan member).1 (sound chan member).2 inRange
  exact ⟨chan', updated, sound', row ▸ (sound chan member).2.row, left ▸ (sound chan member).2.left⟩

def ChannelDecoder.latch (chan : ChannelDecoder) : Except QuicFault ChannelDecoder := do
  let first ← index chan.correlateRow 0
  pure { chan with prevMinus1 := first }

theorem latchAll_ok {bpc width : Nat} (some : 0 < width) {chans : List ChannelDecoder}
    (sound : AllSound bpc width chans) :
    ∃ chans', chans.mapM ChannelDecoder.latch = .ok chans' ∧ chans'.length = chans.length ∧
      AllSound bpc width chans' := by
  apply Program.mapM_ok
  intro chan member
  have inRow : 0 < chan.correlateRow.length := by
    rw [(sound chan member).1.row]
    exact some
  refine ⟨{ chan with prevMinus1 := chan.correlateRow[0] }, ?_, ?_, ?_⟩
  · unfold ChannelDecoder.latch
    rw [Program.bind_ok (Program.index_of_lt inRow)]
    rfl
  · exact ⟨(sound chan member).1.buckets, (sound chan member).1.pointers, (sound chan member).1.row⟩
  · exact ⟨(sound chan member).2.row, (sound chan member).2.row _ (List.getElem_mem inRow)⟩

theorem ChannelDecoder.new_sound {bpc : Nat} (family : bpc = 8 ∨ bpc = 5) (width : Nat) :
    (ChannelDecoder.new bpc width).Sound bpc width := by
  have pointers : (ChannelDecoder.new bpc width).bucketPtrs.length = 2 ^ bpc ∧
      ∀ idx ∈ (ChannelDecoder.new bpc width).bucketPtrs,
        idx < (ChannelDecoder.new bpc width).buckets.length := by
    rcases family with rfl | rfl
    · change (ChannelDecoder.new 8 0).bucketPtrs.length = 2 ^ 8 ∧ ∀ idx ∈
        (ChannelDecoder.new 8 0).bucketPtrs, idx < (ChannelDecoder.new 8 0).buckets.length
      decide +kernel
    · change (ChannelDecoder.new 5 0).bucketPtrs.length = 2 ^ 5 ∧ ∀ idx ∈
        (ChannelDecoder.new 5 0).bucketPtrs, idx < (ChannelDecoder.new 5 0).buckets.length
      decide +kernel
  refine ⟨?_, ?_, List.length_replicate⟩
  · intro bucket member
    obtain ⟨_size, _listed, rfl⟩ := List.mem_map.mp member
    exact ⟨List.length_replicate, by change bpc - 1 < bpc; omega⟩
  · intro val inAlphabet
    have inRange : val < (ChannelDecoder.new bpc width).bucketPtrs.length := by
      rw [pointers.1]
      exact inAlphabet
    exact ⟨_, List.getElem?_eq_getElem inRange, pointers.2 _ (List.getElem_mem inRange)⟩

theorem ChannelDecoder.new_inAlphabet (bpc width : Nat) :
    (ChannelDecoder.new bpc width).InAlphabet bpc where
  row := by
    intro residual member
    rw [List.eq_of_mem_replicate member]
    exact Nat.two_pow_pos bpc
  left := Nat.two_pow_pos bpc

theorem newChannels_sound (bpc channels width : Nat) (family : bpc = 8 ∨ bpc = 5) :
    AllSound bpc width (List.replicate channels (ChannelDecoder.new bpc width)) := by
  intro chan member
  rw [List.eq_of_mem_replicate member]
  exact ⟨ChannelDecoder.new_sound family width, ChannelDecoder.new_inAlphabet bpc width⟩

end Capsaicin.Quic
