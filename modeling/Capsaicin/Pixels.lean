/-
Buffers of pixels of four bytes, without row padding.
-/

import Capsaicin.Library.Lz77
import Capsaicin.Library.Program

namespace Capsaicin

open ByteCode (Ahead)
open Lz77 (Filled Puts)
open Program (Fault Within index assign)

structure Bgra where
  b : UInt8
  g : UInt8
  r : UInt8
  a : UInt8
  deriving DecidableEq, Repr

structure Bgr where
  b : UInt8
  g : UInt8
  r : UInt8
  deriving DecidableEq, Repr

def Bgra.bytes (pixel : Bgra) : List UInt8 := [pixel.b, pixel.g, pixel.r, pixel.a]

def Bgr.bytes (pixel : Bgr) : List UInt8 := [pixel.b, pixel.g, pixel.r]

def Bgr.withAlpha (pixel : Bgr) (a : UInt8) : Bgra :=
  { b := pixel.b, g := pixel.g, r := pixel.r, a := a }

def Bgra.colour (pixel : Bgra) : Bgr := { b := pixel.b, g := pixel.g, r := pixel.r }

def unpacked : List UInt8 → List Bgra
  | b :: g :: r :: a :: rest => { b := b, g := g, r := r, a := a } :: unpacked rest
  | _ => []

def packed (pixels : List Bgra) : List UInt8 := pixels.flatMap Bgra.bytes

/-- The colour bytes of slot `k`. -/
structure ColourAt (out : List UInt8) (k : Nat) (pixel : Bgr) : Prop where
  blue : out[k * 4]? = some pixel.b
  green : out[k * 4 + 1]? = some pixel.g
  red : out[k * 4 + 2]? = some pixel.r

def AlphaAt (out : List UInt8) (k : Nat) (a : UInt8) : Prop := out[k * 4 + 3]? = some a

def OpaqueAt (out : List UInt8) (k : Nat) (pixel : Bgr) : Prop :=
  ColourAt out k pixel ∧ AlphaAt out k 0

theorem packed_length (pixels : List Bgra) : (packed pixels).length = pixels.length * 4 := by
  induction pixels with
  | nil => rfl
  | cons pixel rest ih =>
      change (pixel.bytes ++ packed rest).length = (rest.length + 1) * 4
      rw [List.length_append, ih, Nat.succ_mul, Nat.add_comm]
      rfl

theorem packed_append (first second : List Bgra) :
    packed (first ++ second) = packed first ++ packed second := List.flatMap_append

theorem eq_packed {out : List UInt8} {pixels : List Bgra} (size : out.length = pixels.length * 4)
    (slots : ∀ k pixel, pixels[k]? = some pixel →
      ColourAt out k pixel.colour ∧ AlphaAt out k pixel.a) :
    out = packed pixels := by
  induction pixels generalizing out with
  | nil => exact List.eq_nil_of_length_eq_zero size
  | cons pixel rest ih =>
      rw [List.length_cons] at size
      match out with
      | [] | [_] | [_, _] | [_, _, _] =>
          simp only [List.length_cons, List.length_nil] at size
          omega
      | b :: g :: r :: a :: out =>
          obtain ⟨⟨blue, green, red⟩, alpha⟩ := slots 0 pixel rfl
          cases blue
          cases green
          cases red
          cases Option.some.inj alpha
          have behind : out = packed rest := by
            apply ih
            · simp only [List.length_cons] at size
              omega
            · intro k other found
              obtain ⟨⟨blue, green, red⟩, alpha⟩ := slots (k + 1) other found
              rw [Nat.succ_mul] at blue green red
              refine ⟨⟨blue, green, red⟩, ?_⟩
              unfold AlphaAt at alpha ⊢
              rw [Nat.succ_mul] at alpha
              exact alpha
          rw [behind]
          rfl

theorem eq_packed_opaque {out : List UInt8} {pixels : List Bgr} (size : out.length = pixels.length * 4)
    (filled : Filled OpaqueAt out pixels) :
    out = packed (pixels.map fun pixel => pixel.withAlpha 0) := by
  apply eq_packed
  · rw [List.length_map]
    exact size
  · intro k pixel found
    rw [List.getElem?_map, Option.map_eq_some_iff] at found
    obtain ⟨colour, atColour, rfl⟩ := found
    exact filled k colour atColour

theorem unpacked_packed (pixels : List Bgra) : unpacked (packed pixels) = pixels := by
  induction pixels with
  | nil => rfl
  | cons pixel rest ih => exact congrArg (pixel :: ·) ih

theorem unpacked_length_le (bytes : List UInt8) : (unpacked bytes).length * 4 ≤ bytes.length := by
  fun_induction unpacked bytes with
  | case1 b g r a rest ih =>
      simp only [List.length_cons]
      omega
  | case2 => exact Nat.zero_le _

theorem unpacked_colourAt {bytes : List UInt8} {k : Nat} {pixel : Bgra}
    (found : (unpacked bytes)[k]? = some pixel) : ColourAt bytes k pixel.colour := by
  fun_induction unpacked bytes generalizing k with
  | case1 b g r a rest ih =>
      cases k with
      | zero =>
          cases found
          exact ⟨rfl, rfl, rfl⟩
      | succ k =>
          obtain ⟨blue, green, red⟩ := ih found
          constructor
          · rw [Nat.succ_mul]
            exact blue
          · rw [Nat.succ_mul]
            exact green
          · rw [Nat.succ_mul]
            exact red
  | case2 => cases found

/-! ### Writing one slot -/

section Write

variable {out : List UInt8} {count dst : Nat}

private theorem set_behind {position other : Nat} {value item : UInt8} (differs : other ≠ position)
    (found : out[other]? = some item) : (out.set position value)[other]? = some item := by
  rw [List.getElem?_set_ne (Ne.symm differs)]
  exact found

def setOpaque (out : List UInt8) (dst : Nat) (pixel : Bgr) : List UInt8 :=
  (((out.set (dst * 4) pixel.b).set (dst * 4 + 1) pixel.g).set (dst * 4 + 2) pixel.r).set
    (dst * 4 + 3) 0

theorem setOpaque_length (out : List UInt8) (dst : Nat) (pixel : Bgr) :
    (setOpaque out dst pixel).length = out.length := by
  unfold setOpaque
  simp only [List.length_set]

theorem setOpaque_puts (size : out.length = count * 4) (inside : dst < count) (pixel : Bgr) :
    Puts OpaqueAt (fun out : List UInt8 => out.length = count * 4) dst pixel out
      (setOpaque out dst pixel) where
  here := by
    have room : dst * 4 + 3 < out.length := by omega
    unfold setOpaque
    refine ⟨⟨?_, ?_, ?_⟩, ?_⟩
    · refine set_behind (by omega) (set_behind (by omega) (set_behind (by omega) ?_))
      exact List.getElem?_set_self (by omega)
    · refine set_behind (by omega) (set_behind (by omega) ?_)
      exact List.getElem?_set_self (by rw [List.length_set]; omega)
    · refine set_behind (by omega) ?_
      exact List.getElem?_set_self (by rw [List.length_set, List.length_set]; omega)
    · apply List.getElem?_set_self
      rw [List.length_set, List.length_set, List.length_set]
      exact room
  elsewhere := by
    intro k other differs shown
    have kept : ∀ {position item}, position / 4 = k → out[position]? = some item →
        (setOpaque out dst pixel)[position]? = some item := by
      intro position item slot found
      unfold setOpaque
      refine set_behind (by omega) (set_behind (by omega) ?_)
      exact set_behind (by omega) (set_behind (by omega) found)
    obtain ⟨⟨blue, green, red⟩, alpha⟩ := shown
    exact ⟨⟨kept (by omega) blue, kept (by omega) green, kept (by omega) red⟩,
      kept (by omega) alpha⟩
  fits := (setOpaque_length out dst pixel).trans size

/-- The four writes, each read before its write. The bytes read do not change in
between when they sit in other lanes or other slots. -/
theorem assignOpaque_ok {ε : Type} (readB readG readR : List UInt8 → Except (Fault ε) UInt8)
    {pixel : Bgr} (size : out.length = count * 4) (inside : dst < count)
    (blue : readB out = .ok pixel.b) (green : readG (out.set (dst * 4) pixel.b) = .ok pixel.g)
    (red : readR ((out.set (dst * 4) pixel.b).set (dst * 4 + 1) pixel.g) = .ok pixel.r) :
    (do
      let b ← readB out
      let out ← assign out (dst * 4) b
      let g ← readG out
      let out ← assign out (dst * 4 + 1) g
      let r ← readR out
      let out ← assign out (dst * 4 + 2) r
      assign out (dst * 4 + 3) 0) = .ok (setOpaque out dst pixel) := by
  have room : dst * 4 + 3 < out.length := by omega
  rw [Program.bind_ok blue, Program.bind_ok (Program.assign_of_lt _ (by omega)),
    Program.bind_ok green,
    Program.bind_ok (Program.assign_of_lt _ (by rw [List.length_set]; omega)),
    Program.bind_ok red,
    Program.bind_ok (Program.assign_of_lt _ (by rw [List.length_set, List.length_set]; omega))]
  apply Program.assign_of_lt
  rw [List.length_set, List.length_set, List.length_set]
  exact room

theorem takeOpaque_ok {ε : Type} {take : Nat → Except (Fault ε) (UInt8 × Nat)} {ip : Nat}
    {pixel : Bgr} (size : out.length = count * 4) (inside : dst < count)
    (blue : take ip = .ok (pixel.b, ip + 1)) (green : take (ip + 1) = .ok (pixel.g, ip + 2))
    (red : take (ip + 2) = .ok (pixel.r, ip + 3)) :
    (do
      let (b, ip) ← take ip
      let out ← assign out (dst * 4) b
      let (g, ip) ← take ip
      let out ← assign out (dst * 4 + 1) g
      let (r, ip) ← take ip
      let out ← assign out (dst * 4 + 2) r
      let out ← assign out (dst * 4 + 3) 0
      .ok (ip, out)) = .ok (ip + 3, setOpaque out dst pixel) := by
  have room : dst * 4 + 3 < out.length := by omega
  rw [Program.bind_ok blue]
  dsimp only
  rw [Program.bind_ok (Program.assign_of_lt _ (by omega)), Program.bind_ok green]
  dsimp only
  rw [Program.bind_ok (Program.assign_of_lt _ (by rw [List.length_set]; omega)),
    Program.bind_ok red]
  dsimp only
  rw [Program.bind_ok (Program.assign_of_lt _ (by rw [List.length_set, List.length_set]; omega)),
    Program.bind_ok (Program.assign_of_lt _ (by
      rw [List.length_set, List.length_set, List.length_set]
      exact room))]
  rfl

theorem takeOpaque_within {ε : Type} {take : Nat → Except (Fault ε) (UInt8 × Nat)}
    {input : List UInt8} {ip : Nat} {hurt : Prop} (size : out.length = count * 4)
    (inside : dst < count)
    (takes : ∀ ip, Within (take ip) (fun result => result.2 = ip + 1 ∧ Ahead input ip [result.1]) hurt) :
    Within
      (do
        let (b, ip) ← take ip
        let out ← assign out (dst * 4) b
        let (g, ip) ← take ip
        let out ← assign out (dst * 4 + 1) g
        let (r, ip) ← take ip
        let out ← assign out (dst * 4 + 2) r
        let out ← assign out (dst * 4 + 3) 0
        .ok (ip, out))
      (fun result => ∃ pixel : Bgr, Ahead input ip pixel.bytes ∧
        result = (ip + 3, setOpaque out dst pixel)) hurt := by
  refine (takes ip).bind ?_
  rintro ⟨blue, _⟩ ⟨rfl, here⟩
  dsimp only at here ⊢
  rw [Program.bind_ok (Program.assign_of_lt blue (by omega))]
  refine (takes (ip + 1)).bind ?_
  rintro ⟨green, _⟩ ⟨rfl, next⟩
  dsimp only at next ⊢
  rw [Program.bind_ok (Program.assign_of_lt green (by rw [List.length_set]; omega))]
  refine (takes (ip + 1 + 1)).bind ?_
  rintro ⟨red, _⟩ ⟨rfl, last⟩
  dsimp only at last ⊢
  rw [Program.bind_ok (Program.assign_of_lt red (by simp only [List.length_set]; omega)),
    Program.bind_ok (Program.assign_of_lt 0 (by simp only [List.length_set]; omega))]
  exact ⟨⟨blue, green, red⟩, here.append (next.append last), rfl⟩

theorem copyOpaque_ok {ε : Type} {src : Nat} {pixel : Bgr} (size : out.length = count * 4)
    (inside : dst < count) (shown : OpaqueAt out src pixel) :
    (do
      let b ← index out (src * 4)
      let out ← assign out (dst * 4) b
      let g ← index out (src * 4 + 1)
      let out ← assign out (dst * 4 + 1) g
      let r ← index out (src * 4 + 2)
      let out ← assign out (dst * 4 + 2) r
      assign out (dst * 4 + 3) 0 : Except (Fault ε) (List UInt8)) =
      .ok (setOpaque out dst pixel) := by
  obtain ⟨⟨blue, green, red⟩, _alpha⟩ := shown
  have behindBlue : (out.set (dst * 4) pixel.b)[src * 4 + 1]? = some pixel.g :=
    set_behind (by omega) green
  have behindGreen :
      ((out.set (dst * 4) pixel.b).set (dst * 4 + 1) pixel.g)[src * 4 + 2]? = some pixel.r :=
    set_behind (by omega) (set_behind (by omega) red)
  exact assignOpaque_ok (fun out => index out (src * 4)) (fun out => index out (src * 4 + 1))
    (fun out => index out (src * 4 + 2)) size inside (Program.index_eq_ok.mpr blue)
    (Program.index_eq_ok.mpr behindBlue)
    (Program.index_eq_ok.mpr behindGreen)

end Write

end Capsaicin
