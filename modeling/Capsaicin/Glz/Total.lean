/-
The GLZ decoder on any input: where a stream can bring it to an end that is neither an
image nor an error.
-/

import Capsaicin.Glz.Eviction
import Capsaicin.Glz.Legal

namespace Capsaicin.Glz

open ByteCode (Ahead extension lengthBytes extendLen extendLen_within takeByte_within)
open Bytes (toLe)
open Lz (Cursor)
open Program (Aborts Ends Within index assign)

/-! ### References as they are read -/

section Read

variable {body : List UInt8} {ip ctrl : Nat} {hurt : Prop}

theorem take_within (body : List UInt8) (ip : Nat) :
    Within (take body ip) (fun result => result.2 = ip + 1 ∧ Ahead body ip [result.1]) hurt :=
  takeByte_within body ip

theorem addU32_within {left right : Nat} (small : left + right < 2 ^ 32) :
    Within (addU32 left right) (fun sum => sum = left + right) hurt :=
  Within.of_ok (addU32_ok small) rfl

def Overlong (body : List UInt8) (ip : Nat) : Prop :=
  ∃ count last, Ahead body ip (List.replicate count 255 ++ [last]) ∧
    2 ^ 32 ≤ 7 + (255 * count + last.toNat)

theorem readLen_within (byte : ctrl < 256) :
    Within (readLen body ip ctrl)
      (fun result => ctrl >>> 5 = min result.1 7 ∧ result.1 < 2 ^ 32 ∧
        result.2 = ip + (lengthBytes result.1).length ∧ Ahead body ip (lengthBytes result.1))
      (ctrl >>> 5 = 7 ∧ Overlong body ip) := by
  have top : ctrl >>> 5 ≤ 7 := by
    rw [Nat.shiftRight_eq_div_pow]
    omega
  rw [readLen]
  by_cases long : ctrl >>> 5 = 7
  · rw [if_pos long, long]
    have added := @extendLen_within _ addU32 (· < 2 ^ 32) id (.short 1 0) .overflow addU32_ok
      (fun heavy => if_neg heavy) body (body.length + 1) ip 7 (Nat.succ_pos _) (by omega)
    refine added.weaken ?_ ?_
    · rintro _ ⟨value, rfl, small, ahead⟩
      have bytes : lengthBytes (7 + value) = extension value := by
        rw [lengthBytes, if_neg (by omega), Nat.add_sub_cancel_left]
      dsimp only [id]
      rw [bytes]
      exact ⟨by omega, small, rfl, ahead⟩
    · rintro ⟨count, last, ahead, heavy⟩
      exact ⟨rfl, count, last, ahead, Nat.not_lt.mp heavy⟩
  · rw [if_neg long]
    have short : ctrl >>> 5 < 7 := by omega
    have bytes : lengthBytes (ctrl >>> 5) = [] := if_pos short
    refine ⟨by dsimp only; omega, by dsimp only; omega, ?_, ?_⟩
    · rw [bytes]
      rfl
    · rw [bytes]
      exact List.nil_prefix

theorem readExtras_within {count shift imageDist : Nat}
    (small : imageDist + (256 ^ count - 1) * 2 ^ shift < 2 ^ 32) :
    Within (readExtras body count shift ip imageDist)
      (fun result => ∃ value, value < 256 ^ count ∧ Ahead body ip (toLe count value) ∧
        result = (imageDist + value * 2 ^ shift, ip + count)) hurt := by
  induction count generalizing shift imageDist ip with
  | zero => exact ⟨0, Nat.one_pos, List.nil_prefix, by simp⟩
  | succ count ih =>
      rw [readExtras]
      refine (take_within body ip).bind ?_
      rintro ⟨extra, _⟩ ⟨rfl, ahead⟩
      have bound := extra.toNat_lt
      obtain ⟨most, power⟩ : ∃ most, 256 ^ count = most + 1 :=
        Nat.exists_eq_succ_of_ne_zero (Nat.pos_iff_ne_zero.mp (Nat.pow_pos (by decide)))
      have longer : 256 ^ (count + 1) - 1 = 255 + 256 * most := by
        rw [pow_succ, power]
        omega
      have split : imageDist + (255 + 256 * most) * 2 ^ shift =
          imageDist + 255 * 2 ^ shift + most * 2 ^ (shift + 8) := by ring
      have byte : extra.toNat * 2 ^ shift ≤ 255 * 2 ^ shift :=
        Nat.mul_le_mul_right _ (Nat.le_of_lt_succ bound)
      rw [longer, split] at small
      dsimp only
      rw [Nat.shiftLeft_eq]
      refine (addU32_within (by omega)).bind ?_
      rintro _ rfl
      have room : imageDist + extra.toNat * 2 ^ shift + (256 ^ count - 1) * 2 ^ (shift + 8) <
          2 ^ 32 := by
        rw [power, Nat.add_sub_cancel]
        omega
      refine (ih room).weaken ?_ id
      rintro _ ⟨value, below, later, rfl⟩
      have low : (extra.toNat + 256 * value) % 256 = extra.toNat := by omega
      have high : (extra.toNat + 256 * value) / 256 = value := by omega
      refine ⟨extra.toNat + 256 * value, ?_, ?_, ?_⟩
      · rw [pow_succ]
        omega
      · have bytes : toLe (count + 1) (extra.toNat + 256 * value) = [extra] ++ toLe count value := by
          have first : UInt8.ofNat (extra.toNat + 256 * value) = extra := by
            apply UInt8.toNat_inj.mp
            rw [Bytes.toNat_ofNat, low]
          rw [toLe, first, high]
          rfl
        rw [bytes]
        exact ahead.append later
      · have total : imageDist + extra.toNat * 2 ^ shift + value * 2 ^ (shift + 8) =
            imageDist + (extra.toNat + 256 * value) * 2 ^ shift := by ring
        rw [total, Nat.add_assoc ip, Nat.add_comm 1 count]

theorem count_byte (code : UInt8) :
    (code.toNat >>> 6) &&& 3 = code.toNat / 64 ∧ code.toNat &&& 0x3f = code.toNat % 64 ∧
      (code.toNat >>> 5) &&& 1 = code.toNat / 32 % 2 ∧ code.toNat &&& 0x1f = code.toNat % 32 ∧
      code.toNat / 64 ≤ 3 := by
  have bound := code.toNat_lt
  refine ⟨?_, Nat.and_two_pow_sub_one_eq_mod _ 6, ?_, Nat.and_two_pow_sub_one_eq_mod _ 5, by omega⟩
  · rw [Nat.shiftRight_eq_div_pow]
    refine (Nat.and_two_pow_sub_one_eq_mod _ 2).trans ?_
    omega
  · rw [Nat.shiftRight_eq_div_pow, Nat.and_one_is_mod]

theorem control_byte (ctrl : Nat) :
    ctrl >>> 5 = ctrl / 32 ∧ (ctrl >>> 4) &&& 1 = ctrl / 16 % 2 ∧ ctrl &&& 0x0f = ctrl % 16 := by
  refine ⟨Nat.shiftRight_eq_div_pow ctrl 5, ?_, Nat.and_two_pow_sub_one_eq_mod _ 4⟩
  rw [Nat.shiftRight_eq_div_pow, Nat.and_one_is_mod]

/-- The fields of a reference are those of a form that its bytes are laid out in. -/
structure Laid (body : List UInt8) (ip ctrl : Nat) (fields : Reference) (form : Form) : Prop where
  fits : form.Fits fields.pixelOfs fields.imageDist
  len_lt : fields.len < 2 ^ 32
  control : ctrl = min fields.len 7 * 32 + form.flag * 16 + fields.pixelOfs % 16
  ahead : Ahead body ip (lengthBytes fields.len ++ form.tail fields.pixelOfs fields.imageDist)
  ip_eq : fields.ip =
    ip + (lengthBytes fields.len ++ form.tail fields.pixelOfs fields.imageDist).length

private theorem ofNat_eq {value : Nat} {byte : UInt8} (same : value % 256 = byte.toNat) :
    UInt8.ofNat value = byte := by
  apply UInt8.toNat_inj.mp
  rw [Bytes.toNat_ofNat, same]

private theorem laid_short {len imageDist : Nat} {middle count : UInt8}
    (top : ctrl / 32 = min len 7) (small : len < 2 ^ 32) (flag : ctrl / 16 % 2 = 0)
    (aheadLen : Ahead body ip (lengthBytes len))
    (aheadMiddle : Ahead body (ip + (lengthBytes len).length) [middle])
    (aheadCount : Ahead body (ip + (lengthBytes len).length + 1) [count])
    (far : imageDist < 256 ^ (count.toNat / 64))
    (aheadExtras : Ahead body (ip + (lengthBytes len).length + 1 + 1)
      (toLe (count.toNat / 64) imageDist)) :
    Laid body ip ctrl
      { len := len
        pixelOfs := ctrl % 16 + middle.toNat * 2 ^ 4
        imageDist := count.toNat % 64 + imageDist * 2 ^ 6
        ip := ip + (lengthBytes len).length + 1 + 1 + count.toNat / 64 }
      (.short (count.toNat / 64)) := by
  have middleBound := middle.toNat_lt
  have countBound := count.toNat_lt
  have tail : (Form.short (count.toNat / 64)).tail (ctrl % 16 + middle.toNat * 2 ^ 4)
      (count.toNat % 64 + imageDist * 2 ^ 6) =
        [middle] ++ ([count] ++ toLe (count.toNat / 64) imageDist) := by
    have first : UInt8.ofNat ((ctrl % 16 + middle.toNat * 2 ^ 4) / 16) = middle :=
      ofNat_eq (by omega)
    have second : UInt8.ofNat (count.toNat / 64 * 64 +
        (count.toNat % 64 + imageDist * 2 ^ 6) % 64) = count := ofNat_eq (by omega)
    have rest : (count.toNat % 64 + imageDist * 2 ^ 6) / 64 = imageDist := by omega
    rw [Form.tail, first, second, rest]
    rfl
  have few : count.toNat / 64 ≤ 3 := by omega
  have near : ctrl % 16 + middle.toNat * 2 ^ 4 < 2 ^ 12 := by omega
  have close : count.toNat % 64 + imageDist * 2 ^ 6 < 2 ^ 6 * 256 ^ (count.toNat / 64) := by omega
  refine ⟨⟨few, near, close⟩, small, ?_, ?_, ?_⟩
  · simp only [Form.flag]
    omega
  · rw [tail]
    exact aheadLen.append (aheadMiddle.append (aheadCount.append aheadExtras))
  · rw [tail]
    simp only [List.length_append, List.length_singleton, Bytes.length_toLe]
    omega

private theorem laid_long {len imageDist : Nat} {middle count : UInt8} {last : List UInt8}
    {wide : Bool} {high : Nat} (top : ctrl / 32 = min len 7) (small : len < 2 ^ 32)
    (flag : ctrl / 16 % 2 = 1) (flagged : count.toNat / 32 % 2 = wide.toNat)
    (aheadLen : Ahead body ip (lengthBytes len))
    (aheadMiddle : Ahead body (ip + (lengthBytes len).length) [middle])
    (aheadCount : Ahead body (ip + (lengthBytes len).length + 1) [count])
    (far : imageDist < 256 ^ (count.toNat / 64))
    (aheadExtras : Ahead body (ip + (lengthBytes len).length + 1 + 1)
      (toLe (count.toNat / 64) imageDist))
    (aheadLast : Ahead body (ip + (lengthBytes len).length + 1 + 1 + count.toNat / 64) last)
    (highest : if wide then high < 256 ∧ last = [UInt8.ofNat high] else high = 0 ∧ last = []) :
    Laid body ip ctrl
      { len := len
        pixelOfs := ctrl % 16 + middle.toNat * 2 ^ 4 + count.toNat % 32 * 2 ^ 12 + high * 2 ^ 17
        imageDist := imageDist
        ip := ip + (lengthBytes len).length + 1 + 1 + count.toNat / 64 + last.length }
      (.long (count.toNat / 64) wide) := by
  have middleBound := middle.toNat_lt
  have countBound := count.toNat_lt
  generalize offset : ctrl % 16 + middle.toNat * 2 ^ 4 + count.toNat % 32 * 2 ^ 12 +
    high * 2 ^ 17 = pixelOfs
  have tail : (Form.long (count.toNat / 64) wide).tail pixelOfs imageDist =
      [middle] ++ ([count] ++ (toLe (count.toNat / 64) imageDist ++ last)) := by
    have first : UInt8.ofNat (pixelOfs / 16) = middle := ofNat_eq (by omega)
    have second : UInt8.ofNat (count.toNat / 64 * 64 +
        (wide.toNat * 32 + pixelOfs / 2 ^ 12 % 32)) = count := ofNat_eq (by omega)
    have third : (if wide then [UInt8.ofNat (pixelOfs / 2 ^ 17)] else []) = last := by
      cases wide with
      | false => exact highest.2.symm
      | true =>
          have same : pixelOfs / 2 ^ 17 = high := by omega
          rw [if_pos rfl, same]
          exact highest.2.symm
    rw [Form.tail, first, second, third]
    rfl
  refine ⟨⟨by omega, ?_, far⟩, small, ?_, ?_, ?_⟩
  · cases wide with
    | false =>
        obtain ⟨zero, _none⟩ := highest
        rw [if_neg Bool.false_ne_true]
        dsimp only
        omega
    | true =>
        obtain ⟨bound, _one⟩ := highest
        rw [if_pos rfl]
        dsimp only
        omega
  · simp only [Form.flag]
    omega
  · rw [tail]
    exact aheadLen.append (aheadMiddle.append (aheadCount.append (aheadExtras.append (by
      rw [Bytes.length_toLe]
      exact aheadLast))))
  · rw [tail]
    simp only [List.length_append, List.length_singleton, Bytes.length_toLe]
    omega

/-- Whatever a reference is read from is one of its layouts, unless its length is too
long for its type. -/
theorem readReference_within (byte : ctrl < 256) :
    Within (readReference body ip ctrl) (fun fields => ∃ form, Laid body ip ctrl fields form)
      (ctrl >>> 5 = 7 ∧ Overlong body ip) := by
  obtain ⟨topBits, flagBit, lowBits⟩ := control_byte ctrl
  rw [readReference]
  refine (readLen_within byte).bind ?_
  rintro ⟨len, behind⟩ ⟨top, small, position, aheadLen⟩
  dsimp only at top small position aheadLen ⊢
  subst position
  rw [topBits] at top
  refine (take_within body _).bind ?_
  rintro ⟨middle, _⟩ ⟨rfl, aheadMiddle⟩
  have middleBound := middle.toNat_lt
  dsimp only at aheadMiddle ⊢
  rw [lowBits, Nat.shiftLeft_eq]
  refine (addU32_within (by omega)).bind ?_
  rintro _ rfl
  refine (take_within body _).bind ?_
  rintro ⟨count, _⟩ ⟨rfl, aheadCount⟩
  obtain ⟨extras, shortDist, wideBit, highBits, few⟩ := count_byte count
  dsimp only at aheadCount ⊢
  rw [extras, shortDist, wideBit, highBits, flagBit]
  have most : 256 ^ (count.toNat / 64) ≤ 256 ^ 3 := Nat.pow_le_pow_right (by decide) few
  by_cases flag : ctrl / 16 % 2 = 0
  · rw [if_pos flag]
    refine (readExtras_within (by omega)).bind ?_
    rintro _ ⟨imageDist, far, aheadExtras, rfl⟩
    exact ⟨_, laid_short top small flag aheadLen aheadMiddle aheadCount far aheadExtras⟩
  · have set : ctrl / 16 % 2 = 1 := by omega
    rw [if_neg flag, Nat.shiftLeft_eq]
    refine (addU32_within (by omega)).bind ?_
    rintro _ rfl
    refine (readExtras_within (by omega)).bind ?_
    rintro _ ⟨imageDist, far, aheadExtras, rfl⟩
    dsimp only
    rw [Nat.zero_add, Nat.pow_zero, Nat.mul_one]
    by_cases wide : count.toNat / 32 % 2 ≠ 0
    · rw [if_pos wide]
      refine (take_within body _).bind ?_
      intro extra holds
      have aheadLast := holds.2
      have bound := extra.1.toNat_lt
      rw [holds.1, Nat.shiftLeft_eq]
      refine (addU32_within (by omega)).bind ?_
      intro pixelOfs sum
      rw [sum]
      have laid := @laid_long body ip ctrl len imageDist middle count [extra.1] true extra.1.toNat top
        small set (by simp only [Bool.toNat_true]; omega) aheadLen aheadMiddle aheadCount far
        aheadExtras aheadLast (by rw [if_pos rfl, UInt8.ofNat_toNat]; exact ⟨bound, rfl⟩)
      rw [List.length_singleton] at laid
      exact ⟨_, laid⟩
    · rw [if_neg wide]
      have laid := @laid_long body ip ctrl len imageDist middle count [] false 0 top small set
        (by simp only [Bool.toNat_false]; omega) aheadLen aheadMiddle aheadCount far aheadExtras
        List.nil_prefix ⟨rfl, rfl⟩
      rw [Nat.zero_mul, Nat.add_zero, List.length_nil, Nat.add_zero] at laid
      exact ⟨_, laid⟩

end Read

/-! ### Copies that stay inside their buffers -/

section Copies

variable {count : Nat} {body pixels out : List UInt8} {hurt : Prop}

theorem copyPixel_fits {src dst : Nat} (room : Room count out) (source : src < count)
    (target : dst < count) : ∃ out', copyPixel src dst out = .ok out' ∧ Room count out' := by
  unfold Room at room
  have inside : ∀ {lane}, lane < 4 → src * 4 + lane < out.length := by
    intro lane small
    omega
  have there : ∀ {lane} (small : lane < 4) (changed : List UInt8), changed.length = out.length →
      ∃ byte, index (ε := GlzError) changed (src * 4 + lane) = .ok byte := by
    intro lane small changed same
    exact ⟨_, Program.index_of_lt (by rw [same]; exact inside small)⟩
  obtain ⟨blue, readBlue⟩ := there (by decide : 0 < 4) out rfl
  obtain ⟨green, readGreen⟩ := there (by decide : 1 < 4) (out.set (dst * 4) blue) (by simp)
  obtain ⟨red, readRed⟩ :=
    there (by decide : 2 < 4) ((out.set (dst * 4) blue).set (dst * 4 + 1) green) (by simp)
  refine ⟨setOpaque out dst ⟨blue, green, red⟩, ?_, ?_⟩
  · exact assignOpaque_ok (fun out => index out (src * 4)) (fun out => index out (src * 4 + 1))
      (fun out => index out (src * 4 + 2)) room target readBlue readGreen readRed
  · rw [Room, setOpaque_length, room]

theorem literalPixel_within {ip dst : Nat} (room : Room count out) (target : dst < count) :
    Within (literalPixel body ip dst out)
      (fun result => Room count result.2 ∧ result.1 = ip + 3 ∧
        ∃ bytes, bytes.length = 3 ∧ Ahead body ip bytes) hurt := by
  refine (takeOpaque_within room target (take_within body)).weaken ?_ id
  rintro _ ⟨pixel, ahead, rfl⟩
  refine ⟨?_, rfl, pixel.bytes, rfl, ahead⟩
  rw [Room, setOpaque_length, room]

theorem literalPixel_fits {ip dst : Nat} {bytes : List UInt8} (room : Room count out)
    (target : dst < count) (whole : bytes.length = 3) (ahead : Ahead body ip bytes) :
    ∃ out', literalPixel body ip dst out = .ok (ip + 3, out') ∧ Room count out' := by
  match bytes with
  | [] | [_] | [_, _] | _ :: _ :: _ :: _ :: _ => cases whole
  | [blue, green, red] =>
      obtain ⟨takenBlue, ahead⟩ := take_ok ahead
      obtain ⟨takenGreen, ahead⟩ := take_ok ahead
      obtain ⟨takenRed, _ahead⟩ := take_ok ahead
      refine ⟨setOpaque out dst ⟨blue, green, red⟩, ?_, ?_⟩
      · exact takeOpaque_ok room target takenBlue takenGreen takenRed
      · rw [Room, setOpaque_length, room]

theorem crossPixel_fits {s dst : Nat} (room : Room count out) (target : dst < count)
    (source : s + 3 ≤ pixels.length) :
    ∃ out', crossPixel pixels s dst out = .ok out' ∧ Room count out' := by
  have read : ∀ {lane}, lane < 3 →
      ∃ byte, index (ε := GlzError) pixels (s + lane) = .ok byte := fun small =>
    ⟨_, Program.index_of_lt (by omega)⟩
  obtain ⟨blue, readBlue⟩ := read (by decide : 0 < 3)
  obtain ⟨green, readGreen⟩ := read (by decide : 1 < 3)
  obtain ⟨red, readRed⟩ := read (by decide : 2 < 3)
  refine ⟨setOpaque out dst ⟨blue, green, red⟩, ?_, ?_⟩
  · exact assignOpaque_ok (fun _ => index pixels s) (fun _ => index pixels (s + 1))
      (fun _ => index pixels (s + 2)) room target readBlue readGreen readRed
  · rw [Room, setOpaque_length, room]

theorem crossPixel_aborts {s dst : Nat} (room : Room count out) (target : dst < count)
    (outside : pixels.length < s + 3) : Aborts (crossPixel pixels s dst out) := by
  unfold Room at room
  rw [crossPixel]
  by_cases first : s < pixels.length
  · refine Aborts.behind (Program.index_of_lt first) ?_
    refine Aborts.behind (Program.assign_of_lt _ (by omega)) ?_
    by_cases second : s + 1 < pixels.length
    · refine Aborts.behind (Program.index_of_lt second) ?_
      refine Aborts.behind (Program.assign_of_lt _ (by rw [List.length_set]; omega)) ?_
      exact (Program.index_aborts (by omega)).bind
    · exact (Program.index_aborts (Nat.not_lt.mp second)).bind
  · exact (Program.index_aborts (Nat.not_lt.mp first)).bind

theorem crossRun_fits {bpp len s dst : Nat} (room : Room count out) (target : dst + len ≤ count)
    (source : s + (len - 1) * bpp + 3 ≤ pixels.length) :
    ∃ out', crossRun pixels bpp len s dst out = .ok out' ∧ Room count out' := by
  induction len generalizing s dst out with
  | zero => exact ⟨out, rfl, room⟩
  | succ len ih =>
      obtain ⟨next, wrote, roomNext⟩ :=
        @crossPixel_fits count pixels out s dst room (by omega) (by omega)
      rw [crossRun, Program.bind_ok wrote]
      cases len with
      | zero => exact ⟨next, rfl, roomNext⟩
      | succ len =>
          rw [Nat.add_sub_cancel, Nat.succ_mul] at source
          apply ih roomNext (by omega)
          rw [Nat.add_sub_cancel]
          omega

theorem crossRun_aborts {bpp len s dst : Nat} (room : Room count out) (target : dst + len ≤ count)
    (some : 1 ≤ len) (outside : pixels.length < s + (len - 1) * bpp + 3) :
    Aborts (crossRun pixels bpp len s dst out) := by
  induction len generalizing s dst out with
  | zero => cases some
  | succ len ih =>
      rw [crossRun]
      by_cases first : s + 3 ≤ pixels.length
      · obtain ⟨next, wrote, roomNext⟩ :=
          @crossPixel_fits count pixels out s dst room (by omega) first
        refine Aborts.behind wrote ?_
        cases len with
        | zero =>
            rw [Nat.zero_add, Nat.sub_self, Nat.zero_mul] at outside
            omega
        | succ len =>
            rw [Nat.add_sub_cancel, Nat.succ_mul] at outside
            apply ih roomNext (by omega) (by omega)
            rw [Nat.add_sub_cancel]
            omega
      · exact (crossPixel_aborts room (by omega) (Nat.not_le.mp first)).bind

end Copies

/-! ### The tokens of any stream -/

/-- A reference to a stored image that passes the decoder's checks. -/
structure Refers (window : Option GlzWindow) (selfId count op len pixelOfs imageDist : Nat)
    (form : Form) (entry : WindowEntry) : Prop where
  some : 1 ≤ len
  away : 1 ≤ imageDist
  fits : form.Fits pixelOfs imageDist
  inside : op + len ≤ count
  found : referred window selfId imageDist = Option.some entry
  within : pixelOfs * entry.bpp + len * entry.bpp ≤ entry.pixels.length

/-- The end of the last pixel that a reference reads, which takes three bytes. -/
def lastRead (len pixelOfs : Nat) (entry : WindowEntry) : Nat :=
  pixelOfs * entry.bpp + (len - 1) * entry.bpp + 3

/-- The bytes of one token, and the numbers of pixels before and behind it. -/
inductive Moves (window : Option GlzWindow) (selfId count : Nat) :
    Nat → List UInt8 → Nat → Prop where
  | literal {op ctrl bytes} :
      ctrl.toNat < MAX_COPY → bytes.length = 3 * (ctrl.toNat + 1) →
        op + (ctrl.toNat + 1) ≤ count →
          Moves window selfId count op (ctrl :: bytes) (op + (ctrl.toNat + 1))
  | intra {op len pixelOfs form} :
      1 ≤ len → Form.Fits pixelOfs 0 form → op + len ≤ count → pixelOfs + 1 ≤ op →
        Moves window selfId count op (encodeReference len pixelOfs 0 form) (op + len)
  | cross {op len pixelOfs imageDist form entry} :
      Refers window selfId count op len pixelOfs imageDist form entry →
        lastRead len pixelOfs entry ≤ entry.pixels.length →
          Moves window selfId count op (encodeReference len pixelOfs imageDist form) (op + len)

/-- The tokens at which the decoder aborts. -/
inductive Hazard (window : Option GlzWindow) (selfId count : Nat) (body : List UInt8)
    (ip op : Nat) : Prop where
  | length {ctrl : UInt8} :
      Ahead body ip [ctrl] → ctrl.toNat >>> 5 = 7 → Overlong body (ip + 1) →
        Hazard window selfId count body ip op
  | image {len pixelOfs imageDist form entry} :
      Refers window selfId count op len pixelOfs imageDist form entry →
        Ahead body ip (encodeReference len pixelOfs imageDist form) →
          entry.pixels.length < lastRead len pixelOfs entry →
            Hazard window selfId count body ip op

/-- The positions at which a token of the stream begins, with the pixels before it. -/
inductive Walk (window : Option GlzWindow) (selfId count : Nat) (body : List UInt8) :
    Nat → Nat → Prop where
  | start : Walk window selfId count body 0 0
  | next {ip op bytes op'} :
      Walk window selfId count body ip op → op < count → Ahead body ip bytes →
        Moves window selfId count op bytes op' →
          Walk window selfId count body (ip + bytes.length) op'

section Tokens

variable {window : Option GlzWindow} {selfId count ip op : Nat} {body bytes out : List UInt8}
  {cursor : Cursor}

theorem token_literal {ctrl : UInt8} (ahead : Ahead body cursor.ip [ctrl])
    (low : ctrl.toNat < MAX_COPY) :
    token window selfId body count cursor =
      literal body count ctrl.toNat { cursor with ip := cursor.ip + 1 } := by
  obtain ⟨taken, _ahead⟩ := take_ok ahead
  rw [token, Program.bind_ok taken]
  exact if_neg (Nat.not_le.mpr low)

theorem token_copies {ctrl : UInt8} (ahead : Ahead body cursor.ip [ctrl])
    (high : MAX_COPY ≤ ctrl.toNat) :
    token window selfId body count cursor =
      backReference window selfId body count ctrl.toNat { cursor with ip := cursor.ip + 1 } := by
  obtain ⟨taken, _ahead⟩ := take_ok ahead
  rw [token, Program.bind_ok taken]
  exact if_pos high

theorem intra_runs {reference : Reference} (room : Room count cursor.out)
    (inside : cursor.op + reference.len ≤ count) (some : 1 ≤ reference.pixelOfs)
    (back : reference.pixelOfs ≤ cursor.op) :
    ∃ out, intra reference cursor =
        .ok { ip := reference.ip, op := cursor.op + reference.len, out := out } ∧
      Room count out := by
  obtain ⟨out, ran, fits⟩ := Lz77.copyRun_fits (fun fit source target => copyPixel_fits fit source target)
    room (by omega : cursor.op - reference.pixelOfs + reference.len ≤ count) inside
  refine ⟨out, ?_, fits⟩
  rw [intra, if_neg (by omega), Program.bind_ok ran]

theorem Refers.small {len pixelOfs imageDist : Nat} {form : Form} {entry : WindowEntry}
    (refers : Refers window selfId count op len pixelOfs imageDist form entry)
    (cap : count ≤ 2 ^ 24) : len ≤ 2 ^ 24 := by
  have inside := refers.inside
  omega

theorem token_refers {len pixelOfs imageDist : Nat} {form : Form} {entry : WindowEntry}
    (cap : count ≤ 2 ^ 24) (bpp : entry.bpp < 2 ^ 32)
    (refers : Refers window selfId count cursor.op len pixelOfs imageDist form entry)
    (ahead : Ahead body cursor.ip (encodeReference len pixelOfs imageDist form)) :
    token window selfId body count cursor = (do
      let out ← crossRun entry.pixels entry.bpp len (pixelOfs * entry.bpp) cursor.op cursor.out
      .ok
        { ip := cursor.ip + (encodeReference len pixelOfs imageDist form).length
          op := cursor.op + len
          out := out }) := by
  have short := refers.small cap
  have away : imageDist ≠ 0 := Nat.ne_of_gt refers.away
  rw [token_reference window selfId refers.some (by omega) refers.fits ahead,
    if_neg (Nat.not_lt.mpr refers.inside), if_neg away,
    cross_stored refers.found bpp refers.fits.pixelOfs_lt short]
  exact if_neg (Nat.not_lt.mpr refers.within)

theorem token_moves {op' : Nat} (cap : count ≤ 2 ^ 24)
    (sized : ∀ imageDist entry, referred window selfId imageDist = some entry → entry.bpp < 2 ^ 32)
    (moves : Moves window selfId count op bytes op') (room : Room count out)
    (ahead : Ahead body ip bytes) :
    ∃ out', token window selfId body count { ip := ip, op := op, out := out } =
        .ok { ip := ip + bytes.length, op := op', out := out' } ∧ Room count out' := by
  cases moves with
  | @literal ctrl bytes low size inside =>
      obtain ⟨first, behind⟩ := @Ahead.split body ip [ctrl] bytes ahead
      obtain ⟨out', ran, fits⟩ := Lz77.takeRun_fits
        (fun room target whole ahead => literalPixel_fits room target whole ahead) room inside size
        behind
      refine ⟨out', ?_, fits⟩
      rw [token_literal first low, literal]
      dsimp only
      rw [if_neg (Nat.not_lt.mpr inside)]
      rw [List.length_singleton] at ran
      rw [Program.bind_ok ran, List.length_cons, Nat.add_assoc, Nat.add_comm 1]
  | @intra len pixelOfs form some fits inside back =>
      have short : len < 2 ^ 32 := by omega
      rw [token_reference window selfId some short fits ahead,
        if_neg (Nat.not_lt.mpr inside), if_pos rfl]
      exact @intra_runs count
        { ip := ip + 1
          op := op
          out := out }
        { len := len
          pixelOfs := pixelOfs + 1
          imageDist := 0
          ip := ip + (encodeReference len pixelOfs 0 form).length }
        room inside (Nat.succ_pos pixelOfs) back
  | @cross len pixelOfs imageDist form entry refers enough =>
      obtain ⟨out', ran, fits⟩ := crossRun_fits room refers.inside enough
      refine ⟨out', ?_, fits⟩
      rw [token_refers cap (sized _ _ refers.found) refers ahead, Program.bind_ok ran]

theorem token_aborts (cap : count ≤ 2 ^ 24)
    (sized : ∀ imageDist entry, referred window selfId imageDist = some entry → entry.bpp < 2 ^ 32)
    (hazard : Hazard window selfId count body ip op) (room : Room count out) :
    Aborts (token window selfId body count { ip := ip, op := op, out := out }) := by
  cases hazard with
  | @length ctrl first top heavy =>
      obtain ⟨number, last, ahead, long⟩ := heavy
      have copies : MAX_COPY ≤ ctrl.toNat := by
        rw [Nat.shiftRight_eq_div_pow] at top
        unfold MAX_COPY
        omega
      have inside := ahead.inside (List.concat_ne_nil last _)
      rw [List.length_append, List.length_replicate] at inside
      have added : readLen body (ip + 1) ctrl.toNat = .error (.panic .overflow) := by
        rw [readLen, top]
        exact ByteCode.extendLen_aborts addU32_ok (fun past => if_neg (Nat.not_lt.mpr past)) ahead
          long (by omega)
      rw [token_copies first copies, backReference, readReference]
      dsimp only
      rw [added]
      exact ⟨.overflow, rfl⟩
  | @image len pixelOfs imageDist form entry refers ahead outside =>
      rw [token_refers cap (sized _ _ refers.found) refers ahead]
      exact (crossRun_aborts room refers.inside refers.some outside).bind

theorem Laid.encoded {ctrl : UInt8} {fields : Reference} {form : Form}
    (laid : Laid body (ip + 1) ctrl.toNat fields form) (first : Ahead body ip [ctrl]) :
    Ahead body ip (encodeReference fields.len fields.pixelOfs fields.imageDist form) := by
  have control : UInt8.ofNat (min fields.len 7 * 32 + form.flag * 16 + fields.pixelOfs % 16) =
      ctrl := by
    rw [← laid.control]
    exact UInt8.ofNat_toNat
  have whole : encodeReference fields.len fields.pixelOfs fields.imageDist form =
      [ctrl] ++ (lengthBytes fields.len ++ form.tail fields.pixelOfs fields.imageDist) := by
    rw [encodeReference, control]
    rfl
  rw [whole]
  exact first.append laid.ahead

def Advanced (window : Option GlzWindow) (selfId count : Nat) (body : List UInt8) (ip op : Nat)
    (next : Cursor) : Prop :=
  Room count next.out ∧ ∃ bytes, Ahead body ip bytes ∧ bytes ≠ [] ∧
    next.ip = ip + bytes.length ∧ Moves window selfId count op bytes next.op

theorem literal_within {ctrl : UInt8} {hurt : Prop} (room : Room count out)
    (here : Ahead body ip [ctrl]) (low : ctrl.toNat < MAX_COPY) :
    Within (literal body count ctrl.toNat { ip := ip + 1, op := op, out := out })
      (Advanced window selfId count body ip op) hurt := by
  rw [literal]
  dsimp only
  by_cases inside : op + (ctrl.toNat + 1) ≤ count
  · rw [if_neg (Nat.not_lt.mpr inside)]
    refine (Lz77.takeRun_within (fun room target => literalPixel_within room target) room
      inside).bind ?_
    rintro ⟨next, out'⟩ ⟨fits, position, bytes, size, later⟩
    have ahead := here.append later
    refine ⟨fits, [ctrl] ++ bytes, ahead, List.cons_ne_nil _ _, ?_, .literal low size inside⟩
    rw [position, List.length_append, List.length_singleton, size, Nat.add_assoc]
  · rw [if_pos (Nat.not_le.mp inside)]
    exact trivial

theorem reference_within {len pixelOfs imageDist : Nat} {form : Form} (cap : count ≤ 2 ^ 24)
    (sized : ∀ imageDist entry, referred window selfId imageDist = some entry → entry.bpp < 2 ^ 32)
    (room : Room count out) (some : 1 ≤ len) (small : len < 2 ^ 32)
    (fits : form.Fits pixelOfs imageDist)
    (ahead : Ahead body ip (encodeReference len pixelOfs imageDist form)) :
    Within (token window selfId body count { ip := ip, op := op, out := out })
      (Advanced window selfId count body ip op) (Hazard window selfId count body ip op) := by
  have bytes : encodeReference len pixelOfs imageDist form ≠ [] := List.cons_ne_nil _ _
  rw [token_reference window selfId some small fits ahead]
  dsimp only
  by_cases inside : op + len ≤ count
  · rw [if_neg (Nat.not_lt.mpr inside)]
    by_cases near : imageDist = 0
    · subst near
      rw [if_pos rfl]
      by_cases back : pixelOfs + 1 ≤ op
      · obtain ⟨out', ran, fits'⟩ := @intra_runs count
          { ip := ip + 1
            op := op
            out := out }
          { len := len
            pixelOfs := pixelOfs + 1
            imageDist := 0
            ip := ip + (encodeReference len pixelOfs 0 form).length }
          room inside (Nat.succ_pos pixelOfs) back
        rw [ran]
        exact ⟨fits', _, ahead, bytes, rfl, .intra some fits inside back⟩
      · rw [intra, if_pos (Or.inr (Nat.not_le.mp back))]
        exact trivial
    · rw [if_neg near]
      cases found : referred window selfId imageDist with
      | none =>
          rw [cross_referred]
          dsimp only
          rw [found]
          exact trivial
      | some entry =>
          rw [cross_stored found (sized _ _ found) fits.pixelOfs_lt (by dsimp only; omega)]
          dsimp only
          by_cases within : pixelOfs * entry.bpp + len * entry.bpp ≤ entry.pixels.length
          · rw [if_neg (Nat.not_lt.mpr within)]
            have refers : Refers window selfId count op len pixelOfs imageDist form entry :=
              ⟨some, Nat.pos_of_ne_zero near, fits, inside, found, within⟩
            by_cases enough : lastRead len pixelOfs entry ≤ entry.pixels.length
            · obtain ⟨out', ran, fits'⟩ := crossRun_fits room inside enough
              rw [Program.bind_ok ran]
              exact ⟨fits', _, ahead, bytes, rfl, .cross refers enough⟩
            · have outside := Nat.not_le.mp enough
              rcases crossRun_aborts room inside some outside with ⟨kind, aborted⟩
              rw [aborted]
              exact .image refers ahead outside
          · rw [if_pos (Nat.not_le.mp within)]
            exact trivial
  · rw [if_pos (Nat.not_le.mp inside)]
    exact trivial

theorem copies_within {ctrl : UInt8} (cap : count ≤ 2 ^ 24)
    (sized : ∀ imageDist entry, referred window selfId imageDist = some entry → entry.bpp < 2 ^ 32)
    (room : Room count out) (here : Ahead body ip [ctrl]) (high : MAX_COPY ≤ ctrl.toNat) :
    Within (token window selfId body count { ip := ip, op := op, out := out })
      (Advanced window selfId count body ip op) (Hazard window selfId count body ip op) := by
  have read := @readReference_within body (ip + 1) ctrl.toNat ctrl.toNat_lt
  cases ran : readReference body (ip + 1) ctrl.toNat with
  | error fault =>
      rw [token_copies here high, backReference]
      dsimp only
      rw [ran] at read ⊢
      cases fault with
      | error reason => exact trivial
      | panic kind => exact .length here read.1 read.2
      | fuel => exact read.elim
  | ok fields =>
      rw [ran] at read
      rcases read with ⟨form, laid⟩
      have control := laid.control
      have bit : form.flag ≤ 1 := by cases form <;> simp [Form.flag]
      have some : 1 ≤ fields.len := by
        unfold MAX_COPY at high
        omega
      exact reference_within cap sized room some laid.len_lt laid.fits (laid.encoded here)

theorem token_within (cap : count ≤ 2 ^ 24)
    (sized : ∀ imageDist entry, referred window selfId imageDist = some entry → entry.bpp < 2 ^ 32)
    (room : Room count out) :
    Within (token window selfId body count { ip := ip, op := op, out := out })
      (Advanced window selfId count body ip op) (Hazard window selfId count body ip op) := by
  have first := @take_within False body ip
  cases taken : take body ip with
  | error fault =>
      rw [taken] at first
      rw [token, taken]
      cases fault with
      | error reason => exact trivial
      | panic kind => exact first.elim
      | fuel => exact first.elim
  | ok result =>
      rw [taken] at first
      rcases first with ⟨_position, here⟩
      by_cases low : result.1.toNat < MAX_COPY
      · rw [token_literal here low]
        exact literal_within room here low
      · exact copies_within cap sized room here (Nat.not_lt.mp low)

/-! ### Whole streams -/

/-- The decoder comes by every position of a walk. -/
theorem walk_reached (cap : count ≤ 2 ^ 24)
    (sized : ∀ imageDist entry, referred window selfId imageDist = some entry → entry.bpp < 2 ^ 32)
    (walk : Walk window selfId count body ip op) (room : Room count out) :
    ∃ fuel out', imageLoop window selfId body count (body.length + 1)
        { ip := 0, op := 0, out := out } =
          imageLoop window selfId body count fuel { ip := ip, op := op, out := out' } ∧
      Room count out' ∧ body.length < ip + fuel := by
  induction walk with
  | start => exact ⟨body.length + 1, out, rfl, room, by omega⟩
  | @next ip op bytes op' _walk more ahead moves ih =>
      rcases ih with ⟨fuel, before, reached, roomBefore, enough⟩
      obtain ⟨out', stepped, roomBehind⟩ := token_moves cap sized moves roomBefore ahead
      have some : bytes ≠ [] := by cases moves <;> exact List.cons_ne_nil _ _
      have inside := ahead.inside some
      have positive := List.length_pos_iff.mpr some
      obtain ⟨fuel, rfl⟩ := Nat.exists_eq_succ_of_ne_zero (by omega : fuel ≠ 0)
      refine ⟨fuel, out', ?_, roomBehind, by omega⟩
      rw [reached]
      change Lz77.decodeLoop _ _ _ (fuel + 1) _ = _
      rw [Lz77.decodeLoop, if_pos more, Program.bind_ok stepped]
      rfl

/-- From any position of a walk the decoder ends in a full image or in an error, unless
there is a hazard further on. -/
theorem imageLoop_within {fuel : Nat} (cap : count ≤ 2 ^ 24)
    (sized : ∀ imageDist entry, referred window selfId imageDist = some entry → entry.bpp < 2 ^ 32)
    (walk : Walk window selfId count body ip op) (room : Room count out)
    (enough : body.length < ip + fuel) (positive : 0 < fuel) :
    Within (imageLoop window selfId body count fuel { ip := ip, op := op, out := out })
      (fun last => Room count last.out)
      (∃ ip op, Walk window selfId count body ip op ∧ op < count ∧
        Hazard window selfId count body ip op) := by
  induction fuel generalizing ip op out with
  | zero => cases positive
  | succ fuel ih =>
      change Within (Lz77.decodeLoop _ _ _ (fuel + 1) _) _ _
      rw [Lz77.decodeLoop]
      dsimp only
      by_cases more : op < count
      · rw [if_pos more]
        refine ((token_within cap sized room).weaken (fun _ advanced => advanced)
          fun hazard => ⟨ip, op, walk, more, hazard⟩).bind ?_
        rintro ⟨ip', op', out'⟩ ⟨roomBehind, bytes, ahead, some, position, moves⟩
        dsimp only at position roomBehind moves
        subst position
        have inside := ahead.inside some
        have longer := List.length_pos_iff.mpr some
        exact ih (.next walk more ahead moves) roomBehind (by omega) (by omega)
      · rw [if_neg more]
        exact room

theorem imageLoop_aborts (cap : count ≤ 2 ^ 24)
    (sized : ∀ imageDist entry, referred window selfId imageDist = some entry → entry.bpp < 2 ^ 32)
    (room : Room count out) (walk : Walk window selfId count body ip op) (more : op < count)
    (hazard : Hazard window selfId count body ip op) :
    Aborts (imageLoop window selfId body count (body.length + 1)
      { ip := 0, op := 0, out := out }) := by
  obtain ⟨fuel, out', reached, roomThere, enough⟩ := walk_reached cap sized walk room
  have first : ∃ byte bytes, Ahead body ip (byte :: bytes) := by
    cases hazard with
    | length first _top _heavy => exact ⟨_, _, first⟩
    | image _refers ahead _outside => exact ⟨_, _, ahead⟩
  rcases first with ⟨byte, bytes, ahead⟩
  have inside := ahead.inside (List.cons_ne_nil byte bytes)
  rw [List.length_cons] at inside
  obtain ⟨fuel, rfl⟩ := Nat.exists_eq_succ_of_ne_zero (by omega : fuel ≠ 0)
  rw [reached]
  change Aborts (Lz77.decodeLoop _ _ _ (fuel + 1) _)
  rw [Lz77.decodeLoop, if_pos more]
  exact (token_aborts cap sized hazard roomThere).bind

end Tokens

/-- Where the body is decoded at all, no token that the decoder comes by is a hazard. -/
def Harmless (window : Option GlzWindow) (stream : List UInt8) (header : GlzHeader) : Prop :=
  (∃ bytes, validateDims header.width header.height 4 = .ok bytes) → header.imageType = .rgb32 →
    ∀ ip op,
      Walk window header.id (header.width * header.height) (stream.drop GLZ_HEADER_SIZE) ip op →
        op < header.width * header.height →
          ¬ Hazard window header.id (header.width * header.height) (stream.drop GLZ_HEADER_SIZE)
            ip op

/-- An image of the header's size, or an error. -/
def Answers (header : GlzHeader) (computation : Except GlzFault (List UInt8)) : Prop :=
  Ends computation fun out => out.length = 4 * (header.width * header.height)

section Inner

variable {window : Option GlzWindow} {stream : List UInt8} {header : GlzHeader} {bytes : Nat}

private theorem inner_body (whole : GLZ_HEADER_SIZE ≤ stream.length)
    (valid : validateDims header.width header.height 4 = .ok bytes)
    (rgb32 : header.imageType = .rgb32) :
    header.width * header.height ≤ 2 ^ 24 ∧
      decompressRgb32Inner stream header window header.id =
        (do
          let cursor ←
            imageLoop window header.id (stream.drop GLZ_HEADER_SIZE) (header.width * header.height)
              ((stream.drop GLZ_HEADER_SIZE).length + 1)
              { ip := 0
                op := 0
                out := List.replicate (header.width * header.height * 4) 0 }
          .ok cursor.out) := by
  have checked : (validateDims header.width header.height 4).mapError Program.Fault.error =
      .ok bytes := by
    rw [valid]
    rfl
  obtain ⟨_bytes, _width, _height, _maxWidth, _maxHeight, cap⟩ := checkDims_ok valid
  constructor
  · unfold MAX_IMAGE_BYTES at cap
    omega
  · rw [decompressRgb32Inner, Program.bind_ok checked, if_neg (not_not_intro rgb32),
      if_neg (Nat.not_lt.mpr whole)]

theorem inner_within (whole : GLZ_HEADER_SIZE ≤ stream.length)
    (sized : ∀ imageDist entry, referred window header.id imageDist = some entry →
      entry.bpp < 2 ^ 32) :
    Within (decompressRgb32Inner stream header window header.id)
      (fun out => out.length = 4 * (header.width * header.height))
      (¬ Harmless window stream header) := by
  cases valid : validateDims header.width header.height 4 with
  | error reason =>
      rw [decompressRgb32Inner, valid]
      exact trivial
  | ok bytes =>
      by_cases rgb32 : header.imageType = .rgb32
      · rcases @inner_body window stream header bytes whole valid rgb32 with ⟨few, body⟩
        have room : Room (header.width * header.height)
            (List.replicate (header.width * header.height * 4) 0) := List.length_replicate
        have loop := imageLoop_within few sized Walk.start room
          (by omega : (stream.drop GLZ_HEADER_SIZE).length <
            0 + ((stream.drop GLZ_HEADER_SIZE).length + 1)) (Nat.succ_pos _)
        rw [body]
        refine (loop.weaken (fun _ full => full) ?_).bind fun last (full : Room _ last.out) => ?_
        · rintro ⟨ip, op, walk, more, hazard⟩ harmless
          exact harmless ⟨bytes, valid⟩ rgb32 ip op walk more hazard
        · change last.out.length = 4 * (header.width * header.height)
          rw [full, Nat.mul_comm]
      · have checked : (validateDims header.width header.height 4).mapError Program.Fault.error =
            .ok bytes := by
          rw [valid]
          rfl
        rw [decompressRgb32Inner, Program.bind_ok checked, if_pos rgb32]
        exact trivial

theorem inner_aborts (whole : GLZ_HEADER_SIZE ≤ stream.length)
    (sized : ∀ imageDist entry, referred window header.id imageDist = some entry →
      entry.bpp < 2 ^ 32)
    (harmful : ¬ Harmless window stream header) :
    Aborts (decompressRgb32Inner stream header window header.id) := by
  unfold Harmless at harmful
  push Not at harmful
  rcases harmful with ⟨⟨bytes, valid⟩, rgb32, ip, op, walk, more, hazard⟩
  rcases @inner_body window stream header bytes whole valid rgb32 with ⟨few, body⟩
  rw [body]
  exact (imageLoop_aborts few sized List.length_replicate walk more hazard).bind

theorem inner_answers_iff (whole : GLZ_HEADER_SIZE ≤ stream.length)
    (sized : ∀ imageDist entry, referred window header.id imageDist = some entry →
      entry.bpp < 2 ^ 32) :
    Answers header (decompressRgb32Inner stream header window header.id) ↔
      Harmless window stream header :=
  ((inner_within whole sized).ends_iff (inner_aborts whole sized)).trans not_not

end Inner

/-! ### Windows of any run -/

theorem GlzWindow.Evicts.get {window last : GlzWindow} {subs : List (Nat × Nat)} {id : Nat}
    {entry : WindowEntry} (evicts : GlzWindow.Evicts window subs last)
    (found : last.get id = some entry) : window.get id = some entry := by
  induction evicts with
  | stop _calm => exact found
  | drop _full _present _least _evicts ih => exact (GlzWindow.get_remove (ih found)).2

theorem GlzWindow.Runs.inserted {window last : GlzWindow} {ops : List WindowOp}
    {subs : List (Nat × Nat)} {id : Nat} {entry : WindowEntry}
    (runs : GlzWindow.Runs window ops subs last) (found : last.get id = some entry) :
    window.get id = some entry ∨ .insert id entry.pixels entry.bpp ∈ ops := by
  induction runs with
  | nil window => exact Or.inl found
  | @insert window new pixels bpp subs next ops more last evicts _runs ih =>
      rcases ih found with before | later
      · have stored := evicts.get before
        change ((window.remove new).images.insert new _).lookup id = some entry at stored
        by_cases same : id = new
        · subst same
          rw [AList.lookup_insert] at stored
          cases stored
          exact Or.inr List.mem_cons_self
        · rw [AList.lookup_insert_ne same] at stored
          exact Or.inl (GlzWindow.get_remove stored).2
      · exact Or.inr (List.mem_cons_of_mem _ later)
  | clear _runs ih =>
      rcases ih found with before | later
      · cases before
      · exact Or.inr (List.mem_cons_of_mem _ later)

/-- On any stream and any dictionary, the decoders end in an image of the right size or in
an error, unless they come by a length that outgrows its type, or by a reference whose last
pixel is only in part inside the stored image. -/
theorem decoder_answers_iff {stream : List UInt8} {header : GlzHeader} {capacity : Nat}
    {ops : List WindowOp} {subs : List (Nat × Nat)} {window : GlzWindow}
    (decoded : GlzHeader.decode stream = .ok header)
    (runs : GlzWindow.Runs (.new capacity) ops subs window)
    (fits : ∀ id pixels bpp, .insert id pixels bpp ∈ ops → bpp < 2 ^ 32) :
    (Answers header (decompressRgb32 stream header window) ↔
        Harmless (some window) stream header) ∧
      (Answers header (decompressRgb32Intra stream header) ↔ Harmless none stream header) := by
  have whole := GlzHeader.decode_length decoded
  constructor
  · refine inner_answers_iff whole ?_
    intro imageDist entry found
    rcases runs.inserted found with before | member
    · cases before
    · exact fits _ _ _ member
  · refine inner_answers_iff whole ?_
    intro imageDist entry found
    cases found

/-- Two pixels, one of them from a stored image of three bytes a pixel. -/
theorem decoder_answers_iff_mixed :
    Answers (.mk .rgb32 true 2 1 8 11 0)
        (decompressRgb32 ((GlzHeader.mk .rgb32 true 2 1 8 11 0).encode ++ [0, 1, 2, 3, 0x20, 0, 1])
          (.mk .rgb32 true 2 1 8 11 0)
          ([WindowOp.insert 10 [7, 8, 9] 3].foldl GlzWindow.apply (.new 1024))) ↔
      Harmless (some ([WindowOp.insert 10 [7, 8, 9] 3].foldl GlzWindow.apply (.new 1024)))
        ((GlzHeader.mk .rgb32 true 2 1 8 11 0).encode ++ [0, 1, 2, 3, 0x20, 0, 1])
        (.mk .rgb32 true 2 1 8 11 0) := by
  obtain ⟨subs, runs⟩ := GlzWindow.runs_exec (.new 1024) [.insert 10 [7, 8, 9] 3]
  refine (decoder_answers_iff (GlzHeader.decode_encode ?_ _) runs ?_).1
  · constructor <;> decide
  · intro id pixels bpp member
    cases List.mem_singleton.mp member
    decide

/-- A single pixel whose length is spread over sixteen million bytes, and a single pixel
from a stored image of one byte. -/
theorem decoder_aborts :
    let header := GlzHeader.mk .rgb32 true 1 1 4 11 0
    let long := header.encode ++ 0xE0 :: List.replicate 16843010 255
    let grey := header.encode ++ [0x20, 0, 1]
    let window := [WindowOp.insert 10 [0xAA] 1].foldl GlzWindow.apply (.new 1024)
    GlzHeader.decode long = .ok header ∧ ¬ Answers header (decompressRgb32Intra long header) ∧
      GlzHeader.decode grey = .ok header ∧ ¬ Answers header (decompressRgb32 grey header window) := by
  have fits : (GlzHeader.mk .rgb32 true 1 1 4 11 0).Fits := by constructor <;> decide
  refine ⟨GlzHeader.decode_encode fits _, ?_, GlzHeader.decode_encode fits _, ?_⟩
  · have body : ((GlzHeader.mk .rgb32 true 1 1 4 11 0).encode ++
        0xE0 :: List.replicate 16843010 255).drop GLZ_HEADER_SIZE =
          [0xE0] ++ (List.replicate 16843009 255 ++ [255]) := by
      rw [← List.replicate_succ']
      exact List.drop_left' (GlzHeader.encode_length _)
    have whole : GLZ_HEADER_SIZE ≤ ((GlzHeader.mk .rgb32 true 1 1 4 11 0).encode ++
        0xE0 :: List.replicate 16843010 255).length := by
      rw [List.length_append, GlzHeader.encode_length]
      exact Nat.le_add_right _ _
    have first := Ahead.start [0xE0] (List.replicate 16843009 255 ++ [255])
    have second : Ahead ([0xE0] ++ (List.replicate 16843009 255 ++ [255])) (0 + 1)
        (List.replicate 16843009 255 ++ [255]) := List.prefix_rfl
    intro answers
    have harmless := (inner_answers_iff whole (fun _dist _entry found => by cases found)).mp answers
    rw [Harmless, body] at harmless
    exact harmless ⟨4, rfl⟩ rfl 0 0 .start (by decide)
      (.length first (by decide) ⟨16843009, 255, second, by decide⟩)
  · have aborts : decompressRgb32 ((GlzHeader.mk .rgb32 true 1 1 4 11 0).encode ++ [0x20, 0, 1])
        (GlzHeader.mk .rgb32 true 1 1 4 11 0)
        ([WindowOp.insert 10 [0xAA] 1].foldl GlzWindow.apply (.new 1024)) =
          .error (.panic .index) := by decide +kernel
    exact Aborts.not_ends ⟨.index, aborts⟩

end Capsaicin.Glz
