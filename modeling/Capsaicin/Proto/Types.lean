/-
Primitive types of the protocol, and reading and writing them. Integers are
little-endian.
-/

import Mathlib.Algebra.Group.Nat.Defs
import Capsaicin.Library.Bytes
import Capsaicin.Library.Codec
import Capsaicin.Library.Program

namespace Capsaicin.Proto

open Bytes (ofLe toLe)
open Codec (Exact)

inductive ProtoError where
  | short (need have_ : Nat)
  | badMagic (expected got : Nat)
  | badVersion (major minor : Nat)
  | badChannelType (value : Nat)
  | badLinkError (value : Nat)
  | badCapsOffset (offset len : Nat)
  | sizeTooLarge (declared max : Nat)
  deriving DecidableEq, Repr

/-- A reader passes on what is left of its buffer. -/
abbrev Reader := StateT (List UInt8) (Except ProtoError)

namespace Reader

def take (n : Nat) : Reader (List UInt8) := fun buf =>
  if buf.length < n then .error (.short n buf.length) else .ok (buf.take n, buf.drop n)

def u8 : Reader Nat := do
  let bytes ← take 1
  pure (ofLe bytes)

def u16 : Reader Nat := do
  let bytes ← take 2
  pure (ofLe bytes)

def u32 : Reader Nat := do
  let bytes ← take 4
  pure (ofLe bytes)

def u64 : Reader Nat := do
  let bytes ← take 8
  pure (ofLe bytes)

def signed (bits value : Nat) : Int :=
  if value < 2 ^ (bits - 1) then value else (value : Int) - 2 ^ bits

def i16 : Reader Int := do
  let value ← u16
  pure (signed 16 value)

def i32 : Reader Int := do
  let value ← u32
  pure (signed 32 value)

def bytes (n : Nat) : Reader (List UInt8) := take n

def remaining : Reader Nat := fun buf => .ok (buf.length, buf)

/-- A reader on a whole buffer. What it leaves is ignored. -/
def decode {α : Type} (reader : Reader α) (buf : List UInt8) : Except ProtoError α :=
  (reader buf).map fun result => result.1

section Run

variable {α β : Type} {buf rest : List UInt8}

theorem decode_ok {reader : Reader α} {value : α} (ran : reader buf = .ok (value, rest)) :
    reader.decode buf = .ok value := by
  unfold decode
  rw [ran]
  rfl

theorem decode_eq_ok {reader : Reader α} {value : α} (decoded : reader.decode buf = .ok value) :
    ∃ rest, reader buf = .ok (value, rest) := by
  unfold decode at decoded
  cases ran : reader buf with
  | error reason =>
      rw [ran] at decoded
      cases decoded
  | ok result =>
      rw [ran] at decoded
      cases decoded
      exact ⟨result.2, rfl⟩

theorem decode_error {reader : Reader α} {reason : ProtoError} (stopped : reader buf = .error reason) :
    reader.decode buf = .error reason := by
  unfold decode
  rw [stopped]
  rfl

theorem take_ok {n : Nat} (enough : n ≤ buf.length) :
    take n buf = .ok (buf.take n, buf.drop n) := if_neg (Nat.not_lt.mpr enough)

theorem take_error {n : Nat} (short : buf.length < n) :
    take n buf = .error (.short n buf.length) := if_pos short

theorem u32_ok (enough : 4 ≤ buf.length) : u32 buf = .ok (ofLe (buf.take 4), buf.drop 4) := by
  unfold u32
  rw [Codec.bind_ok (take_ok enough)]
  rfl

theorem u32_error (short : buf.length < 4) : u32 buf = .error (.short 4 buf.length) :=
  Codec.bind_error (take_error short)

theorem words_ok (make : Nat → Nat → α) (enough : 8 ≤ buf.length) :
    Reader.decode (do
      let first ← u32
      let second ← u32
      pure (make first second)) buf =
      .ok (make (ofLe (buf.take 4)) (ofLe ((buf.drop 4).take 4))) := by
  have behind : 4 ≤ (buf.drop 4).length := by
    rw [List.length_drop]
    omega
  apply decode_ok
  · rw [Codec.bind_ok (u32_ok (Nat.le_trans (by decide) enough)), Codec.bind_ok (u32_ok behind)]
    rfl

theorem words_error (make : Nat → Nat → α) (short : buf.length < 8) :
    ∃ reason, Reader.decode (do
      let first ← u32
      let second ← u32
      pure (make first second)) buf = .error reason := by
  by_cases head : buf.length < 4
  · exact ⟨_, decode_error (Codec.bind_error (u32_error head))⟩
  · have behind : (buf.drop 4).length < 4 := by
      rw [List.length_drop]
      omega
    refine ⟨.short 4 (buf.drop 4).length, decode_error ?_⟩
    rw [Codec.bind_ok (u32_ok (Nat.not_lt.mp head)), Codec.bind_error (u32_error behind)]

end Run

end Reader

/-! ### Writing -/

def writeU8 (value : Nat) : List UInt8 := toLe 1 value
def writeU16 (value : Nat) : List UInt8 := toLe 2 value
def writeU32 (value : Nat) : List UInt8 := toLe 4 value
def writeU64 (value : Nat) : List UInt8 := toLe 8 value

def unsigned (bits : Nat) (value : Int) : Nat := (value % 2 ^ bits).toNat

def writeI16 (value : Int) : List UInt8 := writeU16 (unsigned 16 value)
def writeI32 (value : Int) : List UInt8 := writeU32 (unsigned 32 value)

/-! ### Reading what was written -/

theorem Reader.take_exact (bytes : List UInt8) : Exact (Reader.take bytes.length) bytes bytes where
  whole := by
    intro rest
    have enough : bytes.length ≤ (bytes ++ rest).length := by simp
    rw [Reader.take_ok enough]
    simp
  cut := by
    intro short within differs
    have less : short.length < bytes.length := by
      apply Nat.lt_of_le_of_ne within.length_le
      intro same
      exact differs (within.eq_of_length same)
    exact ⟨_, Reader.take_error less⟩

theorem Reader.le_exact {count value : Nat} (fits : value < 256 ^ count) :
    Exact (do let bytes ← Reader.take count; pure (ofLe bytes)) (toLe count value) value := by
  have taken := Reader.take_exact (toLe count value)
  rw [Bytes.length_toLe] at taken
  have read := Exact.map ofLe taken
  rw [Bytes.ofLe_toLe fits] at read
  exact read

theorem Reader.u8_exact {value : Nat} (fits : value < 256 ^ 1) :
    Exact Reader.u8 (writeU8 value) value := Reader.le_exact fits

theorem Reader.u16_exact {value : Nat} (fits : value < 256 ^ 2) :
    Exact Reader.u16 (writeU16 value) value := Reader.le_exact fits

theorem Reader.u32_exact {value : Nat} (fits : value < 256 ^ 4) :
    Exact Reader.u32 (writeU32 value) value := Reader.le_exact fits

theorem Reader.u64_exact {value : Nat} (fits : value < 256 ^ 8) :
    Exact Reader.u64 (writeU64 value) value := Reader.le_exact fits

theorem Reader.decode_exact {α : Type} {reader : Reader α} {bytes : List UInt8} {value : α}
    (taken : Exact reader bytes value) : reader.decode bytes = .ok value := by
  have whole := taken.whole []
  rw [List.append_nil] at whole
  exact Reader.decode_ok whole

/-! ### Shared structures -/

structure Point where
  x : Int
  y : Int
  deriving DecidableEq, Repr

def Point.decode : Reader Point := do
  let x ← Reader.i32
  let y ← Reader.i32
  pure { x := x, y := y }

def Point.encode (point : Point) : List UInt8 := writeI32 point.x ++ writeI32 point.y

structure Rect where
  top : Int
  left : Int
  bottom : Int
  right : Int
  deriving DecidableEq, Repr

def Rect.decode : Reader Rect := do
  let top ← Reader.i32
  let left ← Reader.i32
  let bottom ← Reader.i32
  let right ← Reader.i32
  pure { top := top, left := left, bottom := bottom, right := right }

def Rect.encode (rect : Rect) : List UInt8 :=
  writeI32 rect.top ++ writeI32 rect.left ++ writeI32 rect.bottom ++ writeI32 rect.right

/-- The extents of a rectangle, which may not fit into an `i32`. -/
def Rect.width {ε : Type} (rect : Rect) : Except (Program.Fault ε) Int :=
  Program.checkI32 (rect.right - rect.left)

def Rect.height {ε : Type} (rect : Rect) : Except (Program.Fault ε) Int :=
  Program.checkI32 (rect.bottom - rect.top)

structure ChannelId where
  channelType : Nat
  id : Nat
  deriving DecidableEq, Repr

/-! ### Bounds on what a peer can ask for -/

def MAX_CHANNELS_LIST : Nat := 256
def MAX_CHUNK_BYTES : Nat := 32 * 1024 * 1024
def MAX_CHUNK_COUNT : Nat := MAX_CHUNK_BYTES / 4

def boundedSize (claimed max : Nat) : Reader Nat := fun buf =>
  if claimed > max then .error (.sizeTooLarge claimed (min max (2 ^ 32 - 1)))
  else .ok (claimed, buf)

def boundedCount (claimed max : Nat) : Reader Nat := boundedSize claimed max

theorem boundedSize_ok {claimed max : Nat} {buf : List UInt8} (within : claimed ≤ max) :
    boundedSize claimed max buf = .ok (claimed, buf) := if_neg (Nat.not_lt.mpr within)

theorem boundedSize_exact {claimed max : Nat} (within : claimed ≤ max) :
    Exact (boundedSize claimed max) [] claimed where
  whole := fun _rest => boundedSize_ok within
  cut := fun _short inside differs => absurd (List.prefix_nil.mp inside) differs

end Capsaicin.Proto
