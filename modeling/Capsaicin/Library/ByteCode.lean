/-
Reading a byte string from a position on, and numbers coded as bytes of 255 with a
smaller last byte.
-/

import Capsaicin.Library.Program

namespace ByteCode

open Program (Fault)

variable {ε : Type}

def takeByte (short : Fault ε) (input : List UInt8) (ip : Nat) : Except (Fault ε) (UInt8 × Nat) :=
  match input[ip]? with
  | some byte => .ok (byte, ip + 1)
  | none => .error short

/-- These bytes are what comes at `ip`. -/
def Ahead (input : List UInt8) (ip : Nat) (bytes : List UInt8) : Prop := bytes <+: input.drop ip

section Ahead

variable {input bytes : List UInt8} {ip : Nat}

theorem Ahead.start (bytes rest : List UInt8) : Ahead (bytes ++ rest) 0 bytes :=
  List.prefix_append bytes rest

theorem Ahead.split {first second : List UInt8} (ahead : Ahead input ip (first ++ second)) :
    Ahead input ip first ∧ Ahead input (ip + first.length) second := by
  obtain ⟨rest, whole⟩ := ahead
  constructor
  · exact ⟨second ++ rest, by rw [← whole, List.append_assoc]⟩
  · refine ⟨rest, ?_⟩
    rw [← List.drop_drop, ← whole, List.append_assoc, List.drop_left]

theorem Ahead.inside (ahead : Ahead input ip bytes) (some : bytes ≠ []) :
    ip + bytes.length ≤ input.length := by
  have within := ahead.length_le
  have positive := List.length_pos_iff.mpr some
  rw [List.length_drop] at within
  omega

theorem Ahead.take (short : Fault ε) {byte : UInt8} (ahead : Ahead input ip (byte :: bytes)) :
    takeByte short input ip = .ok (byte, ip + 1) ∧ Ahead input (ip + 1) bytes := by
  obtain ⟨rest, whole⟩ := ahead
  have found : input[ip]? = some byte := by
    have head := congrArg (fun list : List UInt8 => list[0]?) whole
    rw [List.getElem?_drop, Nat.add_zero] at head
    exact head.symm
  constructor
  · unfold takeByte
    rw [found]
  · refine ⟨rest, ?_⟩
    rw [← List.drop_drop, ← whole]
    rfl

theorem Ahead.append {first second : List UInt8} (here : Ahead input ip first)
    (behind : Ahead input (ip + first.length) second) : Ahead input ip (first ++ second) := by
  obtain ⟨rest, whole⟩ := here
  obtain ⟨last, later⟩ := behind
  refine ⟨last, ?_⟩
  rw [← List.drop_drop, ← whole, List.drop_left] at later
  rw [List.append_assoc, later, whole]

theorem takeByte_within {reason : ε} {hurt : Prop} (input : List UInt8) (ip : Nat) :
    Program.Within (takeByte (.error reason) input ip)
      (fun result => result.2 = ip + 1 ∧ Ahead input ip [result.1]) hurt := by
  unfold takeByte
  cases found : input[ip]? with
  | none => exact trivial
  | some byte =>
      obtain ⟨inside, here⟩ := List.getElem?_eq_some_iff.mp found
      refine ⟨rfl, input.drop (ip + 1), ?_⟩
      rw [List.drop_eq_getElem_cons inside, here]
      rfl

end Ahead

/-- Bytes of 255 and a smaller last one, which add up to `value`. -/
def extension (value : Nat) : List UInt8 :=
  List.replicate (value / 255) 255 ++ [UInt8.ofNat (value % 255)]

/-- What follows a length field of three bits that holds `min len 7`. -/
def lengthBytes (len : Nat) : List UInt8 := if len < 7 then [] else extension (len - 7)

/-- Adds up an extension. `add` is the addition of the length's type. -/
def extendLen (add : Nat → Nat → Except (Fault ε) Nat) (short : Fault ε) (input : List UInt8) :
    Nat → Nat → Nat → Except (Fault ε) (Nat × Nat)
  | 0, _, _ => .error .fuel
  | fuel + 1, ip, len => do
      let (code, ip) ← takeByte short input ip
      let len ← add len code.toNat
      if code = 255 then extendLen add short input fuel ip len else .ok (len, ip)

theorem extension_length (value : Nat) : (extension value).length = value / 255 + 1 := by
  rw [extension, List.length_append, List.length_replicate, List.length_singleton]

theorem extendLen_ok {add : Nat → Nat → Except (Fault ε) Nat} {shown : Nat → Nat} {limit : Nat}
    (adds : ∀ {left right}, left + right < limit →
      add (shown left) right = .ok (shown (left + right)))
    (short : Fault ε) {input : List UInt8} {fuel ip len value : Nat}
    (ahead : Ahead input ip (extension value)) (small : len + value < limit)
    (enough : value / 255 < fuel) :
    extendLen add short input fuel ip (shown len) =
      .ok (shown (len + value), ip + (extension value).length) := by
  rw [extension_length]
  unfold extension at ahead
  generalize blocks : value / 255 = count at ahead enough
  induction fuel generalizing count ip len value with
  | zero => exact absurd enough (Nat.not_lt_zero count)
  | succ fuel ih =>
      have last : value % 255 < 255 := Nat.mod_lt value (by decide)
      unfold extendLen
      cases count with
      | zero =>
          obtain ⟨taken, _ahead⟩ := Ahead.take short ahead
          have byte : (UInt8.ofNat (value % 255)).toNat = value := by
            rw [UInt8.toNat_ofNat']
            omega
          have differs : UInt8.ofNat (value % 255) ≠ 255 := by
            intro same
            rw [same] at byte
            rw [← byte] at blocks
            exact absurd blocks (by decide)
          rw [Program.bind_ok taken]
          dsimp only
          rw [byte, Program.bind_ok (adds small), if_neg differs]
      | succ count =>
          rw [List.replicate_succ, List.cons_append] at ahead
          obtain ⟨taken, ahead⟩ := Ahead.take short ahead
          have code : (255 : UInt8).toNat = 255 := rfl
          rw [Program.bind_ok taken]
          dsimp only
          rw [code, Program.bind_ok (adds (by omega)), if_pos rfl]
          have same : (value - 255) % 255 = value % 255 := by omega
          have shorter : Ahead input (ip + 1)
              (List.replicate count 255 ++ [UInt8.ofNat ((value - 255) % 255)]) := by
            rw [same]
            exact ahead
          have fewer : (value - 255) / 255 = count := by omega
          have rest := ih (show len + 255 + (value - 255) < limit by omega) count fewer shorter
            (Nat.lt_of_succ_lt_succ enough)
          have sum : len + 255 + (value - 255) = len + value := by omega
          have position : ip + 1 + (count + 1) = ip + (count + 1 + 1) := by omega
          rw [sum, position] at rest
          exact rest

theorem Ahead.extension_within {input : List UInt8} {ip value : Nat}
    (ahead : Ahead input ip (extension value)) : value / 255 < input.length + 1 := by
  have some : extension value ≠ [] := by
    apply List.ne_nil_of_length_pos
    rw [extension_length]
    exact Nat.succ_pos _
  have within := ahead.inside some
  rw [extension_length] at within
  omega

theorem extendLen_whole {add : Nat → Nat → Except (Fault ε) Nat} {limit : Nat}
    (adds : ∀ {left right}, left + right < limit → add left right = .ok (left + right))
    (short : Fault ε) {input : List UInt8} {ip len value : Nat}
    (ahead : Ahead input ip (extension value)) (small : len + value < limit) :
    extendLen add short input (input.length + 1) ip len =
      .ok (len + value, ip + (extension value).length) :=
  @extendLen_ok _ _ id limit adds short input (input.length + 1) ip len value ahead small
    ahead.extension_within

theorem extendLen_modulo {add : Nat → Nat → Except (Fault ε) Nat} {size : Nat}
    (adds : ∀ left right, add left right = .ok ((left + right) % size))
    (short : Fault ε) {input : List UInt8} {ip value : Nat} (len : Nat)
    (ahead : Ahead input ip (extension value)) :
    extendLen add short input (input.length + 1) ip (len % size) =
      .ok ((len + value) % size, ip + (extension value).length) := by
  apply @extendLen_ok _ _ (· % size) (len + value + 1) ?_ short _ _ _ _ _ ahead
    (Nat.lt_succ_self _) ahead.extension_within
  intro left right _below
  rw [adds, Nat.mod_add_mod]

/-! ### Any input -/

theorem extension_eq {byte : UInt8} (small : byte ≠ 255) (count : Nat) :
    extension (255 * count + byte.toNat) = List.replicate count 255 ++ [byte] := by
  have below : byte.toNat < 255 := by
    have bound := byte.toNat_lt
    have differs : byte.toNat ≠ 255 := fun same => small (UInt8.toNat_inj.mp same)
    omega
  have blocks : (255 * count + byte.toNat) / 255 = count := by omega
  have rest : (255 * count + byte.toNat) % 255 = byte.toNat := by omega
  rw [extension, blocks, rest, UInt8.ofNat_toNat]

theorem extension_full (value : Nat) : extension (255 + value) = [255] ++ extension value := by
  have blocks : (255 + value) / 255 = value / 255 + 1 := by omega
  have rest : (255 + value) % 255 = value % 255 := by omega
  rw [extension, blocks, rest, List.replicate_succ]
  rfl

theorem extendLen_within {add : Nat → Nat → Except (Fault ε) Nat} {small : Nat → Prop}
    {shown : Nat → Nat} {reason : ε} {kind : Program.Panic}
    (adds : ∀ {left right}, small (left + right) →
      add (shown left) right = .ok (shown (left + right)))
    (aborts : ∀ {left right}, ¬ small (left + right) →
      add (shown left) right = .error (.panic kind))
    {input : List UInt8} {fuel ip len : Nat} (positive : 0 < fuel)
    (enough : input.length < ip + fuel) :
    Program.Within (extendLen add (.error reason) input fuel ip (shown len))
      (fun result => ∃ value, result = (shown (len + value), ip + (extension value).length) ∧
        small (len + value) ∧ Ahead input ip (extension value))
      (∃ count last, Ahead input ip (List.replicate count 255 ++ [last]) ∧
        ¬ small (len + (255 * count + last.toNat))) := by
  induction fuel generalizing ip len with
  | zero => exact absurd positive (Nat.lt_irrefl 0)
  | succ fuel ih =>
      rw [extendLen]
      refine (takeByte_within input ip).bind ?_
      rintro ⟨code, next⟩ ⟨rfl, ahead⟩
      have inside := ahead.inside (List.cons_ne_nil _ _)
      rw [List.length_singleton] at inside
      by_cases fits : small (len + code.toNat)
      · dsimp only
        rw [Program.bind_ok (adds fits)]
        by_cases full : code = 255
        · rw [if_pos full]
          subst full
          have top : (255 : UInt8).toNat = 255 := rfl
          refine (@ih (ip + 1) (len + (255 : UInt8).toNat) (by omega) (by omega)).weaken ?_ ?_
          · rintro _ ⟨value, rfl, below, later⟩
            rw [top, Nat.add_assoc] at below
            refine ⟨255 + value, ?_, below, ?_⟩
            · rw [extension_full, List.length_append, List.length_singleton, top, Nat.add_assoc len,
                ← Nat.add_assoc ip]
            · rw [extension_full]
              exact ahead.append later
          · rintro ⟨count, last, later, heavy⟩
            have sum : len + (255 * (count + 1) + last.toNat) =
                len + (255 : UInt8).toNat + (255 * count + last.toNat) := by omega
            refine ⟨count + 1, last, ?_, ?_⟩
            · rw [List.replicate_succ]
              exact ahead.append later
            · rw [sum]
              exact heavy
        · rw [if_neg full]
          have whole := extension_eq full 0
          rw [Nat.mul_zero, Nat.zero_add] at whole
          refine ⟨code.toNat, ?_, fits, ?_⟩
          · rw [whole]
            rfl
          · rw [whole]
            exact ahead
      · dsimp only
        rw [aborts fits]
        refine ⟨0, code, ahead, ?_⟩
        rw [Nat.mul_zero, Nat.zero_add]
        exact fits

theorem extension_unique {value value' : Nat} {rest rest' : List UInt8}
    (same : extension value ++ rest = extension value' ++ rest') : value = value' ∧ rest = rest' := by
  unfold extension at same
  have small : value % 255 < 255 := Nat.mod_lt value (by decide)
  have small' : value' % 255 < 255 := Nat.mod_lt value' (by decide)
  have last : (UInt8.ofNat (value % 255)).toNat = value % 255 := by
    rw [UInt8.toNat_ofNat']
    omega
  have last' : (UInt8.ofNat (value' % 255)).toNat = value' % 255 := by
    rw [UInt8.toNat_ofNat']
    omega
  have top : (255 : UInt8).toNat = 255 := rfl
  generalize blocks : value / 255 = count at same
  generalize blocks' : value' / 255 = count' at same
  generalize UInt8.ofNat (value % 255) = byte at same last
  generalize UInt8.ofNat (value' % 255) = byte' at same last'
  have equal : count = count' ∧ byte = byte' ∧ rest = rest' := by
    clear blocks blocks'
    induction count generalizing count' with
    | zero =>
        cases count' with
        | zero =>
            obtain ⟨first, behind⟩ := List.cons.inj same
            exact ⟨rfl, first, behind⟩
        | succ count' =>
            obtain ⟨first, _behind⟩ := List.cons.inj same
            rw [first, top] at last
            omega
    | succ count ih =>
        cases count' with
        | zero =>
            obtain ⟨first, _behind⟩ := List.cons.inj same
            rw [← first, top] at last'
            omega
        | succ count' =>
            obtain ⟨_first, behind⟩ := List.cons.inj same
            obtain ⟨fewer, rest⟩ := ih count' behind
            exact ⟨congrArg Nat.succ fewer, rest⟩
  obtain ⟨sameCount, sameByte, sameRest⟩ := equal
  refine ⟨?_, sameRest⟩
  rw [sameByte, last'] at last
  omega

theorem lengthBytes_unique {len len' : Nat} {rest rest' : List UInt8} (top : min len 7 = min len' 7)
    (same : lengthBytes len ++ rest = lengthBytes len' ++ rest') : len = len' ∧ rest = rest' := by
  unfold lengthBytes at same
  by_cases short : len < 7
  · rw [if_pos short, if_pos (by omega)] at same
    exact ⟨by omega, same⟩
  · rw [if_neg short, if_neg (by omega)] at same
    obtain ⟨sameValue, behind⟩ := extension_unique same
    exact ⟨by omega, behind⟩

/-- An extension that reaches the limit is not added up, wherever it would have ended. -/
theorem extendLen_aborts {add : Nat → Nat → Except (Fault ε) Nat} {limit : Nat} {short : Fault ε}
    {kind : Program.Panic}
    (adds : ∀ {left right}, left + right < limit → add left right = .ok (left + right))
    (aborts : ∀ {left right}, limit ≤ left + right → add left right = .error (.panic kind))
    {input : List UInt8} {fuel ip len count : Nat} {last : UInt8}
    (ahead : Ahead input ip (List.replicate count 255 ++ [last]))
    (heavy : limit ≤ len + (255 * count + last.toNat)) (enough : count < fuel) :
    extendLen add short input fuel ip len = .error (.panic kind) := by
  induction count generalizing fuel ip len with
  | zero =>
      obtain ⟨fuel, rfl⟩ := Nat.exists_eq_succ_of_ne_zero (Nat.ne_of_gt enough)
      obtain ⟨taken, _ahead⟩ := Ahead.take short ahead
      have past : limit ≤ len + last.toNat := by omega
      rw [extendLen, Program.bind_ok taken]
      dsimp only
      rw [aborts past]
      rfl
  | succ count ih =>
      obtain ⟨fuel, rfl⟩ := Nat.exists_eq_succ_of_ne_zero (Nat.ne_zero_of_lt enough)
      rw [List.replicate_succ, List.cons_append] at ahead
      obtain ⟨taken, behind⟩ := Ahead.take short ahead
      have top : (255 : UInt8).toNat = 255 := rfl
      rw [extendLen, Program.bind_ok taken]
      dsimp only
      by_cases fits : len + (255 : UInt8).toNat < limit
      · rw [Program.bind_ok (adds fits), if_pos rfl]
        exact ih behind (by omega) (Nat.lt_of_succ_lt_succ enough)
      · rw [aborts (Nat.not_lt.mp fits)]
        rfl

end ByteCode
