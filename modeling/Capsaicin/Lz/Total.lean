/-
The LZ decoder on any input. Whatever it takes from a stream are the legal encodings of
some tokens, but it copies their lengths modulo the size of the type that it adds them up in.
-/

import Capsaicin.Lz.Legal
import Mathlib.Algebra.Order.BigOperators.Group.List

namespace Capsaicin.Lz

open ByteCode (Ahead extension lengthBytes extendLen_within takeByte takeByte_within)
open Bytes (toBe)
open Lz77 (Token Filled Puts Reached Parse PrefixFree expand)
open Program (Ends Within)

/-! ### The fields of a copy as they are read -/

section Read

variable {input : List UInt8} {ip ctrl : Nat} {hurt : Prop}

theorem readByte_within (input : List UInt8) (ip : Nat) :
    Within (readByte input ip) (fun result => result.2 = ip + 1 ∧ Ahead input ip [result.1]) hurt :=
  takeByte_within input ip

theorem readLen_within (long : MAX_COPY ≤ ctrl) (byte : ctrl < 256) :
    Within (readLen input ip ctrl)
      (fun result => ∃ stored, 0 < stored ∧ ctrl >>> 5 = min stored 7 ∧
        Ahead input ip (lengthBytes stored) ∧
        result = ((stored - 1) % 2 ^ 32, ip + (lengthBytes stored).length)) hurt := by
  have top : ctrl >>> 5 = ctrl / 32 := Nat.shiftRight_eq_div_pow ctrl 5
  unfold MAX_COPY at long
  have less : wrappingSub (ctrl / 32) 1 = ctrl / 32 - 1 := by
    unfold wrappingSub
    omega
  rw [readLen, top, less]
  by_cases long : ctrl / 32 - 1 = 6
  · have six : 6 = 6 % 2 ^ 32 := rfl
    rw [if_pos long, long, six]
    have added := @extendLen_within _ (fun left right => .ok (wrappingAdd left right))
      (fun _sum => True) (· % 2 ^ 32) (LzError.short 1 0) .overflow
      (fun {left right} _small => congrArg Except.ok (Nat.mod_add_mod left _ right))
      (fun large => absurd trivial large) input (input.length + 1) ip 6 (Nat.succ_pos _) (by omega)
    refine added.weaken ?_ ?_
    · intro result found
      obtain ⟨value, shown, _small, ahead⟩ := found
      have bytes : lengthBytes (7 + value) = extension value := by
        rw [lengthBytes, if_neg (by omega), Nat.add_sub_cancel_left]
      have less : 7 + value - 1 = 6 + value := by omega
      refine ⟨7 + value, by omega, by omega, ?_, ?_⟩
      · rw [bytes]
        exact ahead
      · rw [shown, bytes, less]
    · intro overflows
      obtain ⟨_count, _last, _ahead, large⟩ := overflows
      exact absurd trivial large
  · rw [if_neg long]
    have bytes : lengthBytes (ctrl / 32) = [] := if_pos (by omega)
    have small : (ctrl / 32 - 1) % 2 ^ 32 = ctrl / 32 - 1 := by omega
    refine ⟨ctrl / 32, by omega, by omega, ?_, ?_⟩
    · rw [bytes]
      exact List.nil_prefix
    · rw [bytes, small]
      rfl

/-- A distance as it is read: the fields of the control byte and of the bytes behind it. -/
structure Laid (input : List UInt8) (ip ctrl back : Nat) : Prop where
  far : back ≤ 73726
  low : ctrl &&& 31 = backHigh back
  ahead : Ahead input ip (encodeBack back)

private theorem laid_near {code : UInt8}
    (near : (ctrl &&& 31) * 256 + code.toNat < MAX_DISTANCE) (ahead : Ahead input ip [code]) :
    Laid input ip ctrl ((ctrl &&& 31) * 256 + code.toNat) := by
  have bound := code.toNat_lt
  have bytes : encodeBack ((ctrl &&& 31) * 256 + code.toNat) = [code] := by
    have last : ((ctrl &&& 31) * 256 + code.toNat) % 256 = code.toNat := by omega
    rw [encodeBack, if_pos near, last, UInt8.ofNat_toNat]
  refine ⟨?_, ?_, ?_⟩
  · unfold MAX_DISTANCE at near
    omega
  · rw [backHigh, if_pos near]
    omega
  · rw [bytes]
    exact ahead

private theorem laid_far {hi lo : UInt8} (top : ctrl &&& 31 = 31)
    (ahead : Ahead input ip [255, hi, lo]) :
    Laid input ip ctrl (hi.toNat * 256 + lo.toNat + 8191) := by
  have boundHi := hi.toNat_lt
  have boundLo := lo.toNat_lt
  have beyond : ¬ hi.toNat * 256 + lo.toNat + 8191 < 8191 := by omega
  have bytes : encodeBack (hi.toNat * 256 + lo.toNat + 8191) = [255, hi, lo] := by
    have high : UInt8.ofNat ((hi.toNat * 256 + lo.toNat) / 256) = hi := by
      apply UInt8.toNat_inj.mp
      rw [Bytes.toNat_ofNat]
      omega
    have low : UInt8.ofNat (hi.toNat * 256 + lo.toNat) = lo := by
      apply UInt8.toNat_inj.mp
      rw [Bytes.toNat_ofNat]
      omega
    have both : toBe 2 (hi.toNat * 256 + lo.toNat) =
        [UInt8.ofNat ((hi.toNat * 256 + lo.toNat) / 256), UInt8.ofNat (hi.toNat * 256 + lo.toNat)] :=
      rfl
    unfold encodeBack MAX_DISTANCE
    rw [if_neg beyond, Nat.add_sub_cancel, both, high, low]
  refine ⟨by omega, ?_, ?_⟩
  · rw [top]
    exact (if_neg beyond).symm
  · rw [bytes]
    exact ahead

private theorem byte_or_short (input : List UInt8) (ip : Nat) :
    (∃ byte, Ahead input ip [byte]) ∨ readByte input ip = .error (.error (.short 1 0)) := by
  cases found : input[ip]? with
  | none =>
      right
      rw [readByte, takeByte, found]
  | some byte =>
      have taken : readByte input ip = .ok (byte, ip + 1) := by
        rw [readByte, takeByte, found]
      exact Or.inl ⟨byte, ((@readByte_within False input ip).returned taken).2⟩

private theorem readDistance_far (top : ctrl &&& 31 = 31) (ahead : Ahead input ip [255]) :
    readDistance input ip ctrl =
      (do
        let (hi, ip) ← readByte input (ip + 1)
        let (lo, ip) ← readByte input ip
        .ok (wrappingAdd ((hi.toNat <<< 8) ||| lo.toNat) MAX_DISTANCE, ip)) := by
  rw [readDistance, top, Program.bind_ok (readByte_ok ahead).1]
  rfl

theorem readDistance_within :
    Within (readDistance input ip ctrl)
      (fun result => ∃ back, Laid input ip ctrl back ∧
        result = (back, ip + (encodeBack back).length)) hurt := by
  have done : ∀ {back}, Laid input ip ctrl back →
      Within (readDistance input ip ctrl)
        (fun result => ∃ back, Laid input ip ctrl back ∧
          result = (back, ip + (encodeBack back).length)) hurt := fun {back} laid =>
    .of_ok (readDistance_ok laid.low laid.far laid.ahead) ⟨back, laid, rfl⟩
  rcases byte_or_short input ip with ⟨code, ahead⟩ | missing
  · by_cases near : (ctrl &&& 31) * 256 + code.toNat < MAX_DISTANCE
    · exact done (laid_near near ahead)
    · -- Only the largest control field with a full byte behind it reaches so far.
      have high : ctrl &&& 31 ≤ 31 := Nat.and_le_right
      have bound := code.toNat_lt
      unfold MAX_DISTANCE at near
      have top : ctrl &&& 31 = 31 := by omega
      have full : code = 255 := by
        apply UInt8.toNat_inj.mp
        change code.toNat = 255
        omega
      subst full
      have started := readDistance_far top ahead
      rcases byte_or_short input (ip + 1) with ⟨hi, aheadHi⟩ | missing
      · rcases byte_or_short input (ip + 1 + 1) with ⟨lo, aheadLo⟩ | missing
        · exact done (laid_far top (ahead.append (aheadHi.append aheadLo)))
        · rw [started, Program.bind_ok (readByte_ok aheadHi).1]
          dsimp only
          rw [missing]
          exact trivial
      · rw [started, missing]
        exact trivial
  · rw [readDistance, missing]
    exact trivial

end Read

/-! ### Literal items -/

/-- A buffer in which literal items are taken from any input. -/
def Coding.Takes {α : Type} (coding : Coding α) (count : Nat) (fits : List UInt8 → Prop) : Prop :=
  ∀ {input ip dst out}, fits out → dst < count →
    Within (literalPixel coding.stage input ip dst out)
      (fun result => ∃ item, Ahead input ip (coding.bytes item) ∧
        result.1 = ip + (coding.bytes item).length ∧
        Puts coding.shows fits dst item out result.2) False

theorem colours_take (count : Nat) : colours.Takes count fun out => out.length = count * 4 := by
  intro input ip dst out fits inside
  refine (takeOpaque_within fits inside (readByte_within input)).weaken ?_ id
  rintro _ ⟨pixel, ahead, rfl⟩
  exact ⟨pixel, ahead, rfl, setOpaque_puts fits inside pixel⟩

theorem alphas_take (count : Nat) (pixels : List Bgr) :
    alphas.Takes count (Coloured count pixels) := by
  intro input ip dst out fits inside
  rcases byte_or_short input ip with ⟨a, ahead⟩ | missing
  · obtain ⟨out', took, puts⟩ := (alphas_sound count pixels).literals fits inside ahead
    exact .of_ok took ⟨a, ahead, rfl, puts⟩
  · change Within (readByte input ip >>= _) _ _
    rw [missing]
    exact trivial

/-! ### Tokens -/

section Tokens

-- Unfolding these counts down from `2 ^ 32`.
attribute [local irreducible] wrappingAdd wrappingSub

variable {α : Type} {coding : Coding α} {count : Nat} {fits : List UInt8 → Prop} {input : List UInt8}
  {produced result : List α} {cursor : Cursor}

private theorem copy_ahead {ctrl : UInt8} {ip stored back : Nat}
    (top : ctrl.toNat >>> 5 = min stored 7) (positive : 0 < stored) (ahead : Ahead input ip [ctrl])
    (aheadLen : Ahead input (ip + 1) (lengthBytes stored))
    (laid : Laid input (ip + 1 + (lengthBytes stored).length) ctrl.toNat back) :
    ∃ len, coding.stage.stored len = stored ∧ coding.Legal (.copy len (back + 1)) ∧
      Ahead input ip (coding.encodeToken (.copy len (back + 1))) := by
  obtain ⟨far, low, aheadBack⟩ := laid
  have shortest : 1 ≤ coding.stage.shortest := by
    unfold Stage.shortest
    split <;> omega
  have same : coding.stage.stored (stored + coding.stage.shortest - 1) = stored := by
    unfold Stage.stored
    omega
  have control : UInt8.ofNat (min stored 7 * 32 + backHigh back) = ctrl := by
    apply UInt8.toNat_inj.mp
    rw [copyControl, ← top, ← low, Nat.shiftRight_eq_div_pow, show 31 = 2 ^ 5 - 1 from rfl,
      Nat.and_two_pow_sub_one_eq_mod]
    omega
  refine ⟨stored + coding.stage.shortest - 1, same, ⟨by omega, by omega, by omega⟩, ?_⟩
  change Ahead input ip (encodeCopy (coding.stage.stored _) (back + 1 - 1))
  rw [same, Nat.add_sub_cancel, encodeCopy, control]
  exact ahead.append (aheadLen.append aheadBack)

/-- What a step of the decoder finds before it. -/
def Finds (coding : Coding α) (input : List UInt8) (count : Nat) (produced : List α) (ip : Nat) :
    Prop :=
  ∃ token bytes longer, coding.Encodes token bytes ∧ Ahead input ip bytes ∧
    appends produced token = some longer ∧ longer.length ≤ count

theorem copy_found {ctrl : UInt8} (sound : coding.Sound count fits)
    (reached : Reached coding.shows fits cursor produced) (long : MAX_COPY ≤ ctrl.toNat)
    (ahead : Ahead input cursor.ip [ctrl]) :
    Within
      (backReference coding.stage input count ctrl.toNat { cursor with ip := cursor.ip + 1 })
      (fun _ => Finds coding input count produced cursor.ip) False := by
  have byte : ctrl.toNat < 256 := ctrl.toNat_lt
  rw [backReference]
  refine (readLen_within long byte).bind ?_
  intro length read
  obtain ⟨stored, positive, top, aheadLen, same⟩ := read
  rw [same]
  refine readDistance_within.bind ?_
  intro distance read
  obtain ⟨back, laid, same⟩ := read
  rw [same]
  have far := laid.far
  obtain ⟨len, shown, legal, whole⟩ :=
    @copy_ahead _ coding _ _ _ _ _ top positive ahead aheadLen laid
  have biased := (stored_ok coding.stage legal.1).1
  rw [shown] at biased
  have offset : wrappingAdd back 1 = back + 1 := by
    unfold wrappingAdd
    omega
  dsimp only
  rw [biased, offset]
  by_cases rejected : back + 1 = 0 ∨ back + 1 > cursor.op ∨ cursor.op + len % 2 ^ 32 > count
  · rw [if_pos rejected]
    exact trivial
  · rw [if_neg rejected]
    have op := reached.op
    have inside : back + 1 ≤ produced.length := by omega
    obtain ⟨longer, copied⟩ := @Lz77.copyBack_some _ (back + 1) (len % 2 ^ 32) produced
      (Nat.succ_pos _) inside
    have total := Lz77.copyBack_length copied
    have room : longer.length ≤ count := by omega
    obtain ⟨out, ran, _fit, _filled⟩ :=
      Lz77.copyRun_ok sound.copies reached.filled reached.fits inside copied room
    rw [← op] at ran
    rw [Program.bind_ok ran]
    have extended : appends produced (.copy len (back + 1)) = some longer := by
      rw [appends, wrapped, Token.extend, if_neg (by omega), copied]
    exact ⟨.copy len (back + 1), _, longer, ⟨legal, rfl⟩, whole, extended, room⟩

theorem literal_found {ctrl : UInt8} (takes : coding.Takes count fits)
    (reached : Reached coding.shows fits cursor produced) (few : ctrl.toNat < MAX_COPY)
    (ahead : Ahead input cursor.ip [ctrl]) :
    Within (literal coding.stage input count ctrl.toNat { cursor with ip := cursor.ip + 1 })
      (fun _ => Finds coding input count produced cursor.ip) False := by
  have op := reached.op
  rw [literal]
  dsimp only
  by_cases rejected : cursor.op + (ctrl.toNat + 1) > count
  · rw [if_pos rejected]
    exact trivial
  · rw [if_neg rejected, op]
    refine (Lz77.takeRun_shows takes reached.filled reached.fits (by omega)).bind ?_
    intro result found
    obtain ⟨items, size, behind, _position, _fit, _filled⟩ := found
    have control : UInt8.ofNat (items.length - 1) = ctrl := by
      rw [size, Nat.add_sub_cancel, UInt8.ofNat_toNat]
    have whole : Ahead input cursor.ip (coding.encodeToken (.literal items)) := by
      change Ahead input cursor.ip (UInt8.ofNat (items.length - 1) :: items.flatMap coding.bytes)
      rw [control]
      exact ahead.append behind
    unfold MAX_COPY at few
    have room : (produced ++ items).length ≤ count := by
      rw [List.length_append]
      omega
    exact ⟨.literal items, _, produced ++ items, ⟨⟨by omega, by omega⟩, rfl⟩, whole, rfl, room⟩

theorem token_finds (sound : coding.Sound count fits) (takes : coding.Takes count fits)
    (reached : Reached coding.shows fits cursor produced) :
    Within (token coding.stage input count cursor)
      (fun _ => Finds coding input count produced cursor.ip) False := by
  rw [token]
  refine (readByte_within input cursor.ip).bind ?_
  intro taken read
  obtain ⟨ctrl, behind⟩ := taken
  obtain ⟨position, ahead⟩ := read
  dsimp only at position ahead ⊢
  rw [position]
  by_cases long : MAX_COPY ≤ ctrl.toNat
  · rw [if_pos long]
    exact copy_found sound reached long ahead
  · rw [if_neg long]
    exact literal_found takes reached (Nat.not_le.mp long) ahead

end Tokens

/-! ### Passes -/

section Passes

variable {α : Type} {coding : Coding α} {count last : Nat} {fits : List UInt8 → Prop}
  {input out : List UInt8} {tokens : List (Token α)} {items : List α}

/-- The tokens that a stream begins with, until their items are enough as the decoder counts
them. -/
def Fills (coding : Coding α) (count : Nat) (input : List UInt8) (tokens : List (Token α)) (last : Nat)
    (items : List α) : Prop :=
  Parse coding.Encodes appends count input 0 [] tokens last items

private theorem start (fit : fits out) :
    Reached coding.shows fits { ip := 0, op := 0, out := out } [] := ⟨rfl, fit, Filled.nil out⟩

private theorem room (sound : coding.Sound count fits) (fit : fits out) :
    ¬ out.length < count * 4 := by
  rw [sound.size fit]
  exact Nat.lt_irrefl _

/-- A pass ends with an error, or behind the tokens that fill its image. -/
theorem decompressPass_within (sound : coding.Sound count fits) (takes : coding.Takes count fits)
    (fit : fits out) :
    Within (decompressPass input count out coding.stage)
      (fun result => ∃ tokens items, Fills coding count input tokens result.1 items ∧
        fits result.2 ∧ Filled coding.shows result.2 items) False := by
  rw [decompressPass, if_neg (room sound fit)]
  refine (Lz77.decodeLoop_within (token_wraps sound) encodes_some
    (fun cursor produced reached _more => token_finds sound takes reached) (start fit)
    (by dsimp only; omega) (Nat.succ_pos input.length)).bind ?_
  intro cursor found
  obtain ⟨tokens, items, parse, reached⟩ := found
  exact ⟨tokens, items, parse, reached.fits, reached.filled⟩

theorem decompressPass_fills (sound : coding.Sound count fits) (fit : fits out)
    (parse : Fills coding count input tokens last items) :
    ∃ out', decompressPass input count out coding.stage = .ok (last, out') ∧ fits out' ∧
      Filled coding.shows out' items := by
  have begun : Reached coding.shows fits { ip := 0, op := 0, out := out } [] := start fit
  have enough : input.length < 0 + (input.length + 1) := by omega
  obtain ⟨cursor, ran, position, reached⟩ :=
    @Lz77.decodeLoop_parse _ _ _ _ coding.shows fits _ _ _ _ _ last [] items tokens .fuel
      (token_wraps sound) encodes_some { ip := 0, op := 0, out := out } _ parse begun enough
      (Nat.succ_pos input.length)
  refine ⟨cursor.out, ?_, reached.fits, reached.filled⟩
  rw [decompressPass, if_neg (room sound fit), ← position]
  exact Program.bind_ok ran

end Passes

/-! ### One reading of a stream -/

section Unique

variable {α : Type} {coding : Coding α}

/-- Items of one size, told apart by their bytes. -/
structure Coding.Distinct (coding : Coding α) (size : Nat) : Prop where
  sized : ∀ item, (coding.bytes item).length = size
  apart : ∀ item item', coding.bytes item = coding.bytes item' → item = item'

theorem colours_distinct : colours.Distinct 3 where
  sized := fun _pixel => rfl
  apart := by
    intro pixel pixel' same
    cases pixel
    cases pixel'
    cases same
    rfl

theorem alphas_distinct : alphas.Distinct 1 where
  sized := fun _value => rfl
  apart := fun _value _value' same => (List.cons.inj same).1

theorem items_unique {size : Nat} (distinct : coding.Distinct size) {items items' : List α}
    {rest rest' : List UInt8} (lengths : items.length = items'.length)
    (same : items.flatMap coding.bytes ++ rest = items'.flatMap coding.bytes ++ rest') :
    items = items' := by
  induction items generalizing items' with
  | nil => exact (List.eq_nil_of_length_eq_zero lengths.symm).symm
  | cons item items ih =>
      cases items' with
      | nil => cases lengths
      | cons item' items' =>
          rw [List.flatMap_cons, List.flatMap_cons, List.append_assoc, List.append_assoc] at same
          have widths := (distinct.sized item).trans (distinct.sized item').symm
          obtain ⟨here, behind⟩ := List.append_inj same widths
          rw [distinct.apart item item' here, ih (Nat.succ.inj lengths) behind]

theorem encodeBack_unique {back back' : Nat} {rest rest' : List UInt8} (far : back ≤ 73726)
    (far' : back' ≤ 73726) (high : backHigh back = backHigh back')
    (same : encodeBack back ++ rest = encodeBack back' ++ rest') : back = back' := by
  have code : ∀ back, (UInt8.ofNat (back % 256)).toNat = back % 256 := by
    intro back
    rw [UInt8.toNat_ofNat']
    omega
  have full : (255 : UInt8).toNat = 255 := rfl
  unfold encodeBack at same
  unfold backHigh at high
  by_cases near : back < MAX_DISTANCE
  · by_cases near' : back' < MAX_DISTANCE
    · rw [if_pos near, if_pos near'] at same high
      have low := congrArg UInt8.toNat (List.cons.inj same).1
      rw [code, code] at low
      omega
    · rw [if_pos near, if_neg near'] at same high
      have low := congrArg UInt8.toNat (List.cons.inj same).1
      rw [code, full] at low
      unfold MAX_DISTANCE at near
      omega
  · by_cases near' : back' < MAX_DISTANCE
    · rw [if_neg near, if_pos near'] at same high
      have low := congrArg UInt8.toNat (List.cons.inj same).1
      rw [code, full] at low
      unfold MAX_DISTANCE at near'
      omega
    · rw [if_neg near, if_neg near'] at same
      have widths : (toBe 2 (back - MAX_DISTANCE)).length = (toBe 2 (back' - MAX_DISTANCE)).length := by
        rw [Bytes.length_toBe, Bytes.length_toBe]
      have values := (List.append_inj (List.cons.inj same).2 widths).1
      unfold MAX_DISTANCE at near near' values
      have value := @Bytes.ofBe_toBe 2 (back - 8191) (by omega)
      have value' := @Bytes.ofBe_toBe 2 (back' - 8191) (by omega)
      rw [values, value'] at value
      omega

theorem encodeToken_unique {size : Nat} (distinct : coding.Distinct size) {token token' : Token α}
    {rest rest' : List UInt8} (legal : coding.Legal token) (legal' : coding.Legal token')
    (same : coding.encodeToken token ++ rest = coding.encodeToken token' ++ rest') :
    token = token' := by
  cases token with
  | literal items =>
      obtain ⟨some, few⟩ := legal
      cases token' with
      | literal items' =>
          obtain ⟨some', few'⟩ := legal'
          obtain ⟨first, behind⟩ := List.cons.inj same
          have lengths := congrArg UInt8.toNat first
          rw [UInt8.toNat_ofNat', UInt8.toNat_ofNat'] at lengths
          rw [items_unique distinct (by omega) behind]
      | copy len dist =>
          have first := congrArg UInt8.toNat (List.cons.inj same).1
          have positive := (stored_ok coding.stage legal'.1).2
          rw [UInt8.toNat_ofNat', copyControl] at first
          omega
  | copy len dist =>
      have positive := (stored_ok coding.stage legal.1).2
      cases token' with
      | literal items =>
          obtain ⟨some, few⟩ := legal'
          have first := congrArg UInt8.toNat (List.cons.inj same).1
          rw [copyControl, UInt8.toNat_ofNat'] at first
          omega
      | copy len' dist' =>
          obtain ⟨long, one, far⟩ := legal
          obtain ⟨long', one', far'⟩ := legal'
          have bound := backHigh_lt (dist - 1)
          have bound' := backHigh_lt (dist' - 1)
          obtain ⟨first, behind⟩ := List.cons.inj same
          have fields := congrArg UInt8.toNat first
          rw [copyControl, copyControl] at fields
          change (lengthBytes (coding.stage.stored len) ++ encodeBack (dist - 1)) ++ rest =
            (lengthBytes (coding.stage.stored len') ++ encodeBack (dist' - 1)) ++ rest' at behind
          rw [List.append_assoc, List.append_assoc] at behind
          obtain ⟨sameLen, behindLen⟩ := ByteCode.lengthBytes_unique (by omega) behind
          have sameBack := encodeBack_unique (by omega) (by omega) (by omega) behindLen
          unfold Stage.stored at sameLen
          have lengths : len = len' := by omega
          have dists : dist = dist' := by omega
          rw [lengths, dists]

theorem encodes_prefixFree {size : Nat} (distinct : coding.Distinct size) :
    PrefixFree coding.Encodes := by
  intro token token' bytes bytes' input ip encoded encoded' ahead ahead'
  obtain ⟨legal, rfl⟩ := encoded
  obtain ⟨legal', rfl⟩ := encoded'
  obtain ⟨rest, whole⟩ := ahead
  obtain ⟨rest', whole'⟩ := ahead'
  have same := encodeToken_unique distinct legal legal' (whole.trans whole'.symm)
  exact ⟨same, congrArg coding.encodeToken same⟩

end Unique

/-! ### Legal streams -/

section Legal

variable {α : Type} {coding : Coding α} {count last : Nat} {input : List UInt8}
  {tokens : List (Token α)} {items : List α}

/-- No copy is so long that its length outgrows the type it is added up in. -/
def Short (tokens : List (Token α)) : Prop := ∀ len dist, .copy len dist ∈ tokens → len < 2 ^ 32

/-- The first `consumed` bytes are the encoding of legal tokens that expand to the items of an
image, with the lengths and distances that the format gives them. -/
structure Coding.Reads (coding : Coding α) (input : List UInt8) (count consumed : Nat)
    (tokens : List (Token α)) (items : List α) : Prop where
  legal : ∀ token ∈ tokens, coding.Legal token
  begins : coding.encode tokens <+: input
  ends : consumed = (coding.encode tokens).length
  expanded : expand [] tokens = some items
  lengths : (tokens.map Token.size).sum = count

theorem Short.appends (short : Short tokens) :
    ∀ token ∈ tokens, ∀ produced, appends produced token = token.extend produced := by
  intro token member produced
  cases token with
  | literal items => rfl
  | copy len dist => rw [Lz.appends, wrapped, Nat.mod_eq_of_lt (short len dist member)]

theorem encodes_pieces {pieces : List (List UInt8)}
    (encoded : List.Forall₂ coding.Encodes tokens pieces) :
    (∀ token ∈ tokens, coding.Legal token) ∧ pieces.flatten = coding.encode tokens := by
  induction encoded with
  | nil => exact ⟨fun _token member => absurd member List.not_mem_nil, rfl⟩
  | cons first _rest ih =>
      obtain ⟨legal, rfl⟩ := first
      obtain ⟨legalRest, bytes⟩ := ih
      constructor
      · intro token member
        rcases List.mem_cons.mp member with here | later
        · exact here ▸ legal
        · exact legalRest token later
      · rw [List.flatten_cons, bytes]
        rfl

theorem Fills.begins (fills : Fills coding count input tokens last items) :
    coding.encode tokens <+: input ∧ last = (coding.encode tokens).length := by
  obtain ⟨pieces, encoded, ahead, position⟩ := Parse.encoded fills
  rw [(encodes_pieces encoded).2] at ahead position
  rw [Nat.zero_add] at position
  exact ⟨ahead, position⟩

/-- A copy that outgrows the type takes more bytes than a stream of sixteen million has. -/
theorem Fills.short (fills : Fills coding count input tokens last items)
    (brief : input.length ≤ 16000000) : Short tokens := by
  intro len dist member
  have whole := (Fills.begins fills).1.length_le
  have piece := (List.sublist_flatten_of_mem (List.mem_map_of_mem (f := coding.encodeToken)
    member)).length_le
  have shortest : coding.stage.shortest ≤ 3 := by
    unfold Stage.shortest
    split <;> omega
  change (encodeCopy (coding.stage.stored len) (dist - 1)).length ≤ (coding.encode tokens).length
    at piece
  rw [encodeCopy, List.length_cons, List.length_append, lengthBytes] at piece
  unfold Stage.stored at piece
  by_cases few : len + 1 - coding.stage.shortest < 7
  · omega
  · rw [if_neg few, ByteCode.extension_length] at piece
    omega

theorem Fills.reads (fills : Fills coding count input tokens last items) (short : Short tokens) :
    coding.Reads input count last tokens items := by
  obtain ⟨begins, ends⟩ := Fills.begins fills
  obtain ⟨pieces, encoded, _ahead, _position⟩ := Parse.encoded fills
  have expanded := (Parse.congr fills short.appends).expanded
  refine ⟨(encodes_pieces encoded).1, begins, ends, expanded, ?_⟩
  have total := Lz77.expand_size expanded
  rw [Parse.size fills (Nat.zero_le count), List.length_nil, Nat.zero_add] at total
  exact total.symm

theorem Coding.Reads.fills (small : count ≤ 2 ^ 24)
    (reads : coding.Reads input count last tokens items) :
    Fills coding count input tokens last items ∧ Short tokens := by
  obtain ⟨legal, begins, ends, expanded, lengths⟩ := reads
  have short : Short tokens := by
    intro len dist member
    have bound := List.single_le_sum (fun _size _member => Nat.zero_le _) _
      (List.mem_map_of_mem (f := Token.size) member)
    rw [lengths] at bound
    change len ≤ count at bound
    omega
  have size : items.length = count := by
    rw [Lz77.expand_size expanded, lengths, List.length_nil, Nat.zero_add]
  have parse := @Parse.of_expanded _ _ count input _ Token.extend encodes_grows tokens _ [] items 0
    (encodes_all legal) expanded size begins
  rw [Nat.zero_add] at parse
  rw [ends]
  exact ⟨parse.congr fun token member produced => (short.appends token member produced).symm, short⟩

end Legal

/-! ### Streams -/

section Streams

variable {stream : List UInt8} {count last : Nat} {tokens : List (Token Bgr)} {pixels : List Bgr}
  {alphaTokens : List (Token UInt8)} {values : List UInt8}

/-- The colours are the expansion of what the pass has taken from the stream, or the stream
is refused. -/
def ExpandsRgb32 (stream : List UInt8) (count : Nat) : Prop :=
  Ends (decompressRgb32 stream count) fun out =>
    ∃ consumed tokens pixels,
      decompressPass stream count (List.replicate (count * 4) 0) .bgr = .ok (consumed, out) ∧
      colours.Reads stream count consumed tokens pixels ∧
      out = packed (pixels.map fun pixel => pixel.withAlpha 0)

def ExpandsRgba (stream : List UInt8) (count : Nat) : Prop :=
  Ends (decompressRgba stream count) fun out =>
    ∃ consumed tokens pixels consumedAlpha alphaTokens values,
      decompressPass stream count (List.replicate (count * 4) 0) .bgr =
        .ok (consumed, packed (pixels.map fun pixel => pixel.withAlpha 0)) ∧
      colours.Reads stream count consumed tokens pixels ∧
      decompressPass (stream.drop consumed) count
          (packed (pixels.map fun pixel => pixel.withAlpha 0)) .alpha = .ok (consumedAlpha, out) ∧
      alphas.Reads (stream.drop consumed) count consumedAlpha alphaTokens values ∧
      out = packed (List.zipWith Bgr.withAlpha pixels values)

theorem boundedPixels_eq_ok (accepted : boundedPixels count = .ok ()) : count ≤ 2 ^ 24 := by
  unfold boundedPixels at accepted
  by_cases none : count = 0
  · omega
  · rw [if_neg none] at accepted
    by_cases overflows : 2 ^ 64 ≤ count * 4
    · rw [if_pos overflows] at accepted
      cases accepted
    · rw [if_neg overflows] at accepted
      by_cases large : count * 4 > MAX_IMAGE_BYTES
      · rw [if_pos large] at accepted
        cases accepted
      · unfold MAX_IMAGE_BYTES at large
        omega

theorem colourPass_within (stream : List UInt8) (count : Nat) :
    Within (decompressPass stream count (List.replicate (count * 4) 0) .bgr)
      (fun result => ∃ tokens pixels, Fills colours count stream tokens result.1 pixels ∧
        result.2 = blank pixels ∧ Coloured count pixels (blank pixels)) False := by
  refine (decompressPass_within (colours_sound count) (colours_take count) (blank_room count)).weaken
    ?_ id
  intro result found
  obtain ⟨tokens, pixels, fills, fit, filled⟩ := found
  exact ⟨tokens, pixels, fills, colours_blank (Parse.size fills (Nat.zero_le count)) fit filled⟩

theorem colourPass_fills (fills : Fills colours count stream tokens last pixels) :
    decompressPass stream count (List.replicate (count * 4) 0) .bgr = .ok (last, blank pixels) ∧
      Coloured count pixels (blank pixels) := by
  obtain ⟨out, ran, fit, filled⟩ := decompressPass_fills (colours_sound count) (blank_room count) fills
  obtain ⟨shown, coloured⟩ := colours_blank (Parse.size fills (Nat.zero_le count)) fit filled
  rw [shown] at ran
  exact ⟨ran, coloured⟩

theorem alphaPass_within (size : pixels.length = count)
    (coloured : Coloured count pixels (blank pixels)) :
    Within (decompressPass stream count (blank pixels) .alpha)
      (fun result => ∃ tokens values, Fills alphas count stream tokens result.1 values ∧
        result.2 = packed (List.zipWith Bgr.withAlpha pixels values)) False := by
  refine (decompressPass_within (alphas_sound count pixels) (alphas_take count pixels)
    coloured).weaken ?_ id
  intro result found
  obtain ⟨tokens, values, fills, fit, filled⟩ := found
  exact ⟨tokens, values, fills,
    alphas_over size (Parse.size fills (Nat.zero_le count)) fit filled⟩

theorem alphaPass_fills (size : pixels.length = count)
    (coloured : Coloured count pixels (blank pixels))
    (fills : Fills alphas count stream alphaTokens last values) :
    decompressPass stream count (blank pixels) .alpha =
      .ok (last, packed (List.zipWith Bgr.withAlpha pixels values)) := by
  obtain ⟨out, ran, fit, filled⟩ :=
    decompressPass_fills (alphas_sound count pixels) coloured fills
  rw [alphas_over size (Parse.size fills (Nat.zero_le count)) fit filled] at ran
  exact ran

def ShortRgb32 (stream : List UInt8) (count : Nat) : Prop :=
  ∀ tokens last pixels, Fills colours count stream tokens last pixels → Short tokens

def ShortRgba (stream : List UInt8) (count : Nat) : Prop :=
  ∀ tokens last pixels, Fills colours count stream tokens last pixels →
    ∀ alphaTokens lastAlpha values,
      Fills alphas count (stream.drop last) alphaTokens lastAlpha values →
        Short tokens ∧ Short alphaTokens

theorem rgb32_fills (accepted : boundedPixels count = .ok ())
    (fills : Fills colours count stream tokens last pixels) :
    decompressRgb32 stream count = .ok (blank pixels) := by
  rw [decompressRgb32, Program.bind_ok accepted, Program.bind_ok (colourPass_fills fills).1]

theorem rgba_fills (accepted : boundedPixels count = .ok ())
    {lastAlpha : Nat} (fills : Fills colours count stream tokens last pixels)
    (fillsAlpha : Fills alphas count (stream.drop last) alphaTokens lastAlpha values) :
    decompressRgba stream count = .ok (packed (List.zipWith Bgr.withAlpha pixels values)) := by
  have size := Parse.size fills (Nat.zero_le count)
  obtain ⟨ran, coloured⟩ := colourPass_fills fills
  rw [decompressRgba, Program.bind_ok accepted, Program.bind_ok ran]
  dsimp only
  rw [Program.bind_ok (alphaPass_fills size coloured fillsAlpha)]

theorem rgb32_within (accepted : boundedPixels count = .ok ()) :
    Within (decompressRgb32 stream count)
      (fun out => ∃ consumed tokens pixels,
        decompressPass stream count (List.replicate (count * 4) 0) .bgr = .ok (consumed, out) ∧
        Fills colours count stream tokens consumed pixels ∧ out = blank pixels) False := by
  rw [decompressRgb32, Program.bind_ok accepted]
  refine (colourPass_within stream count).known.bind ?_
  intro result found
  obtain ⟨pass, tokens, pixels, fills, shown, _coloured⟩ := found
  exact ⟨result.1, tokens, pixels, pass, fills, shown⟩

theorem rgba_within (accepted : boundedPixels count = .ok ()) :
    Within (decompressRgba stream count)
      (fun out => ∃ consumed tokens pixels consumedAlpha alphaTokens values,
        decompressPass stream count (List.replicate (count * 4) 0) .bgr =
          .ok (consumed, blank pixels) ∧
        Fills colours count stream tokens consumed pixels ∧
        decompressPass (stream.drop consumed) count (blank pixels) .alpha =
          .ok (consumedAlpha, out) ∧
        Fills alphas count (stream.drop consumed) alphaTokens consumedAlpha values ∧
        out = packed (List.zipWith Bgr.withAlpha pixels values)) False := by
  rw [decompressRgba, Program.bind_ok accepted]
  refine (colourPass_within stream count).known.bind ?_
  intro result found
  obtain ⟨consumed, out⟩ := result
  obtain ⟨pass, tokens, pixels, fills, shown, coloured⟩ := found
  dsimp only at shown ⊢
  rw [shown] at pass ⊢
  refine (alphaPass_within (Parse.size fills (Nat.zero_le count)) coloured).known.bind ?_
  intro result found
  obtain ⟨passAlpha, alphaTokens, values, fillsAlpha, shownAlpha⟩ := found
  exact ⟨consumed, tokens, pixels, result.1, alphaTokens, values, pass, fills, passAlpha, fillsAlpha,
    shownAlpha⟩

/-- On any stream the decoders end, with an image of the right size or with an error. -/
theorem streams_end (accepted : boundedPixels count = .ok ()) :
    Ends (decompressRgb32 stream count) (fun out => out.length = count * 4) ∧
      Ends (decompressRgba stream count) (fun out => out.length = count * 4) := by
  constructor
  · refine (Within.ends_iff ((rgb32_within accepted).weaken ?_ id) False.elim).mpr not_false
    intro out found
    obtain ⟨_consumed, _tokens, pixels, _pass, fills, shown⟩ := found
    rw [shown, blank, packed_length, List.length_map, Parse.size fills (Nat.zero_le count)]
  · refine (Within.ends_iff ((rgba_within accepted).weaken ?_ id) False.elim).mpr not_false
    intro out found
    obtain ⟨_consumed, _tokens, pixels, _consumedAlpha, _alphaTokens, values, _pass, fills, _passAlpha,
      fillsAlpha, shown⟩ := found
    rw [shown, packed_length, List.length_zipWith, Parse.size fills (Nat.zero_le count),
      Parse.size fillsAlpha (Nat.zero_le count), Nat.min_self]

theorem rgb32_expands_iff (accepted : boundedPixels count = .ok ()) :
    ExpandsRgb32 stream count ↔ ShortRgb32 stream count := by
  have small := boundedPixels_eq_ok accepted
  constructor
  · intro expands tokens last pixels fills
    have ran := rgb32_fills accepted fills
    rcases expands with ⟨reason, failed⟩ | ⟨out, _ran, consumed, tokens', pixels', _pass, reads, _out⟩
    · rw [ran] at failed
      cases failed
    · obtain ⟨fills', short⟩ := reads.fills small
      rw [Parse.unique (encodes_prefixFree colours_distinct) fills fills']
      exact short
  · intro short
    refine (Within.ends_iff ((rgb32_within accepted).weaken ?_ id) False.elim).mpr not_false
    intro out found
    obtain ⟨consumed, tokens, pixels, pass, fills, shown⟩ := found
    exact ⟨consumed, tokens, pixels, pass, fills.reads (short _ _ _ fills), shown⟩

theorem rgba_expands_iff (accepted : boundedPixels count = .ok ()) :
    ExpandsRgba stream count ↔ ShortRgba stream count := by
  have small := boundedPixels_eq_ok accepted
  constructor
  · intro expands tokens last pixels fills alphaTokens lastAlpha values fillsAlpha
    have ran := rgba_fills accepted fills fillsAlpha
    rcases expands with ⟨reason, failed⟩ | ⟨out, _ran, consumed, tokens', pixels', consumedAlpha,
      alphaTokens', values', pass, reads, _passAlpha, readsAlpha, _out⟩
    · rw [ran] at failed
      cases failed
    · obtain ⟨fills', short⟩ := reads.fills small
      obtain ⟨fillsAlpha', shortAlpha⟩ := readsAlpha.fills small
      rw [(colourPass_fills fills).1] at pass
      obtain ⟨same, _blank⟩ := Prod.mk.inj (Except.ok.inj pass)
      subst same
      rw [Parse.unique (encodes_prefixFree colours_distinct) fills fills',
        Parse.unique (encodes_prefixFree alphas_distinct) fillsAlpha fillsAlpha']
      exact ⟨short, shortAlpha⟩
  · intro short
    refine (Within.ends_iff ((rgba_within accepted).weaken ?_ id) False.elim).mpr not_false
    intro out found
    obtain ⟨consumed, tokens, pixels, consumedAlpha, alphaTokens, values, pass, fills, passAlpha,
      fillsAlpha, shown⟩ := found
    obtain ⟨shortColours, shortAlphas⟩ := short _ _ _ fills _ _ _ fillsAlpha
    exact ⟨consumed, tokens, pixels, consumedAlpha, alphaTokens, values, pass,
      fills.reads shortColours, passAlpha, fillsAlpha.reads shortAlphas, shown⟩

/-- The decoders end with an image or an error on any stream, and the image is the expansion of
what they have taken from the stream unless a copy among it is of `2 ^ 32` pixels or more. -/
theorem lz_expands_iff (accepted : boundedPixels count = .ok ()) :
    (Ends (decompressRgb32 stream count) (fun out => out.length = count * 4) ∧
        Ends (decompressRgba stream count) fun out => out.length = count * 4) ∧
      (ExpandsRgb32 stream count ↔ ShortRgb32 stream count) ∧
      (ExpandsRgba stream count ↔ ShortRgba stream count) :=
  ⟨streams_end accepted, rgb32_expands_iff accepted, rgba_expands_iff accepted⟩

/-- A pixel and three copies of it. -/
theorem lz_expands_iff_overlap : ExpandsRgb32 [0, 7, 8, 9, 0x60, 0] 4 := by
  apply (@lz_expands_iff [0, 7, 8, 9, 0x60, 0] 4 rfl).2.1.mpr
  intro tokens last pixels fills
  exact fills.short (by decide)

/-- A pixel, and a copy of `2 ^ 32 + 1` pixels: a control byte, the length and the distance. -/
def longStream : List UInt8 := [0, 7, 8, 9] ++ 0xE0 :: (List.replicate 16843008 255 ++ [250, 0])

private theorem long_encoded :
    colours.encodeToken (.copy (2 ^ 32 + 1) 1) =
      0xE0 :: (List.replicate 16843008 255 ++ [250, 0]) := by
  have stored : colours.stage.stored (2 ^ 32 + 1) = 4294967297 := rfl
  have blocks : (4294967297 - 7) / 255 = 16843008 := rfl
  have last : (4294967297 - 7) % 255 = 250 := rfl
  change encodeCopy (colours.stage.stored _) 0 = _
  rw [stored, encodeCopy, lengthBytes, if_neg (by decide), extension, blocks, last, List.append_assoc]
  rfl

private theorem long_fills :
    ∃ last, Fills colours 2 longStream [.literal [⟨7, 8, 9⟩], .copy (2 ^ 32 + 1) 1] last
      [⟨7, 8, 9⟩, ⟨7, 8, 9⟩] := by
  have first : Ahead longStream 0 [0, 7, 8, 9] := List.prefix_append _ _
  have second : Ahead longStream (0 + 4) (colours.encodeToken (.copy (2 ^ 32 + 1) 1)) := by
    rw [long_encoded]
    exact List.prefix_rfl
  have encodedFirst : colours.Encodes (.literal [⟨7, 8, 9⟩]) [0, 7, 8, 9] := by
    constructor <;> decide
  have encodedSecond : colours.Encodes (.copy (2 ^ 32 + 1) 1)
      (colours.encodeToken (.copy (2 ^ 32 + 1) 1)) := ⟨by decide, rfl⟩
  have copied : appends [⟨7, 8, 9⟩] (.copy (2 ^ 32 + 1) 1) =
      some [(⟨7, 8, 9⟩ : Bgr), ⟨7, 8, 9⟩] := by decide
  exact ⟨_, .token (by decide) encodedFirst first rfl (by decide)
    (.token (by decide) encodedSecond second copied (by decide) (.done (by decide)))⟩

/-- The copy is taken for one of a single pixel. -/
theorem long_copy_accepted :
    boundedPixels 2 = .ok () ∧ decompressRgb32 longStream 2 = .ok [7, 8, 9, 0, 7, 8, 9, 0] ∧
      ¬ ExpandsRgb32 longStream 2 := by
  have accepted : boundedPixels 2 = .ok () := rfl
  obtain ⟨last, fills⟩ := long_fills
  refine ⟨accepted, rgb32_fills accepted fills, ?_⟩
  intro expands
  have short := (rgb32_expands_iff accepted).mp expands _ _ _ fills
  have bound := short (2 ^ 32 + 1) 1 (List.mem_cons_of_mem _ List.mem_cons_self)
  exact absurd bound (by decide)

end Streams

end Capsaicin.Lz
