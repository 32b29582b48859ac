/-
Chunk tables. `read_chunks` accepts exactly the well-formed ones, and walks them with a
cursor that never leaves the body.
-/

import Capsaicin.Proto.Grammar
import Mathlib.Algebra.Ring.Nat

namespace Capsaicin.Proto

open Program (Fault)
open Bytes (ofLe)

/-! ### The cursor -/

/-- A reader as it is in memory: a buffer and a position in it. -/
structure BufCursor where
  buf : List UInt8
  pos : Nat
  deriving DecidableEq, Repr

abbrev BufCursor.Reading := StateT BufCursor (Except (Fault ProtoError))

namespace BufCursor

/-- `buf.len() - pos` on unsigned words. -/
def remaining (cursor : BufCursor) : Except (Fault ProtoError) Nat :=
  if cursor.pos ≤ cursor.buf.length then .ok (cursor.buf.length - cursor.pos)
  else .error (.panic .overflow)

/-- The slice is taken with its bounds check. -/
def take (n : Nat) : Reading (List UInt8) := fun cursor => do
  let left ← cursor.remaining
  if left < n then .error (.error (.short n left))
  else
    let out ← Program.range cursor.buf cursor.pos (cursor.pos + n)
    .ok (out, { cursor with pos := cursor.pos + n })

def u32 : Reading Nat := do
  let bytes ← take 4
  pure (ofLe bytes)

def boundedSize (claimed max : Nat) : Reading Nat := fun cursor =>
  if claimed > max then .error (.error (.sizeTooLarge claimed (min max (2 ^ 32 - 1))))
  else .ok (claimed, cursor)

def readChunkLoop : Nat → List UInt8 → Reading (List UInt8)
  | 0, out => pure out
  | count + 1, out => do
      let claimed ← u32
      let len ← boundedSize claimed MAX_CHUNK_BYTES
      let bytes ← take len
      readChunkLoop count (out ++ bytes)

def chunks : Reading (List UInt8) := do
  let claimedSize ← u32
  let dataSize ← boundedSize claimedSize MAX_CHUNK_BYTES
  let claimedCount ← u32
  let numChunks ← boundedSize claimedCount MAX_CHUNK_COUNT
  let out ← readChunkLoop numChunks []
  if out.length ≠ dataSize then throw (.error (.short dataSize out.length)) else pure out

/-- `read_chunks` with every index it makes: `&msg_body[start..]` and the slices of the cursor. -/
def readChunks (msgBody : List UInt8) (offset : Nat) : Except (Fault ProtoError) (List UInt8) :=
  if offset + 8 > msgBody.length then .error (.error (.short 8 (msgBody.length - offset)))
  else do
    let table ← Program.range msgBody offset msgBody.length
    let result ← chunks { buf := table, pos := 0 }
    pure result.1

end BufCursor

/-- The cursor does what the reader does on what is left of the buffer. -/
structure Walks {α : Type} (cursor : BufCursor.Reading α) (reader : Reader α) : Prop where
  failed : ∀ buf pos reason, pos ≤ buf.length → reader (buf.drop pos) = .error reason →
    cursor { buf := buf, pos := pos } = .error (.error reason)
  took : ∀ buf pos value rest, pos ≤ buf.length → reader (buf.drop pos) = .ok (value, rest) →
    ∃ next, next ≤ buf.length ∧ rest = buf.drop next ∧
      cursor { buf := buf, pos := pos } = .ok (value, { buf := buf, pos := next })

theorem Walks.pure {α : Type} (value : α) :
    Walks (Pure.pure value : BufCursor.Reading α) (Pure.pure value) where
  failed := by
    intro buf pos reason inside stopped
    cases stopped
  took := by
    intro buf pos result rest inside ran
    cases ran
    exact ⟨pos, inside, rfl, rfl⟩

theorem Walks.bind {α β : Type} {cursor : BufCursor.Reading α} {reader : Reader α}
    {next : α → BufCursor.Reading β} {next' : α → Reader β} (here : Walks cursor reader)
    (behind : ∀ value, Walks (next value) (next' value)) :
    Walks (cursor >>= next) (reader >>= next') where
  failed := by
    intro buf pos reason inside stopped
    cases ran : reader (buf.drop pos) with
    | error first =>
        rw [Codec.bind_error ran] at stopped
        cases stopped
        change (cursor { buf := buf, pos := pos } >>= _) = _
        rw [here.failed buf pos reason inside ran]
        rfl
    | ok result =>
        rw [Codec.bind_ok ran] at stopped
        obtain ⟨middle, within, rest, walked⟩ := here.took buf pos result.1 result.2 inside ran
        rw [rest] at stopped
        change (cursor { buf := buf, pos := pos } >>= _) = _
        rw [walked]
        exact (behind result.1).failed buf middle reason within stopped
  took := by
    intro buf pos value rest inside ran
    obtain ⟨item, left, ranFirst, ranNext⟩ := Codec.bind_eq_ok ran
    obtain ⟨middle, within, leftEq, walked⟩ := here.took buf pos item left inside ranFirst
    rw [leftEq] at ranNext
    obtain ⟨last, lastWithin, restEq, walkedNext⟩ :=
      (behind item).took buf middle value rest within ranNext
    refine ⟨last, lastWithin, restEq, ?_⟩
    change (cursor { buf := buf, pos := pos } >>= _) = _
    rw [walked]
    exact walkedNext

theorem BufCursor.take_walks (n : Nat) : Walks (BufCursor.take n) (Reader.take n) where
  failed := by
    intro buf pos reason inside stopped
    by_cases enough : n ≤ (buf.drop pos).length
    · rw [Reader.take_ok enough] at stopped
      cases stopped
    · have short : (buf.drop pos).length < n := Nat.lt_of_not_le enough
      rw [Reader.take_error short] at stopped
      rw [List.length_drop] at short stopped
      cases stopped
      simp only [BufCursor.take, BufCursor.remaining, if_pos inside, Program.bind_ok rfl, if_pos short]
  took := by
    intro buf pos value rest inside ran
    obtain ⟨split, length⟩ := Reader.take_faithful n ran
    have enough : n ≤ (buf.drop pos).length := by
      rw [split, List.length_append]
      omega
    rw [Reader.take_ok enough] at ran
    rw [List.length_drop] at enough
    cases ran
    have width : pos + n - pos = n := by omega
    have sliced : Program.range (ε := ProtoError) buf pos (pos + n) =
        .ok ((buf.drop pos).take n) := by
      rw [Program.range, if_pos (by omega), width]
    refine ⟨pos + n, by omega, by rw [List.drop_drop], ?_⟩
    simp only [BufCursor.take, BufCursor.remaining, if_pos inside, Program.bind_ok rfl,
      if_neg (Nat.not_lt.mpr enough), sliced]

theorem BufCursor.u32_walks : Walks BufCursor.u32 Reader.u32 :=
  (BufCursor.take_walks 4).bind fun bytes => Walks.pure (ofLe bytes)

theorem BufCursor.boundedSize_walks (claimed max : Nat) :
    Walks (BufCursor.boundedSize claimed max) (Proto.boundedSize claimed max) where
  failed := by
    intro buf pos reason inside stopped
    unfold Proto.boundedSize at stopped
    unfold BufCursor.boundedSize
    split at stopped
    · rename_i large
      cases stopped
      exact if_pos large
    · cases stopped
  took := by
    intro buf pos value rest inside ran
    unfold Proto.boundedSize at ran
    unfold BufCursor.boundedSize
    split at ran
    · cases ran
    · rename_i small
      cases ran
      exact ⟨pos, inside, rfl, if_neg small⟩

theorem BufCursor.readChunkLoop_walks (count : Nat) (out : List UInt8) :
    Walks (BufCursor.readChunkLoop count out)
      (do let rest ← readChunkList count; Pure.pure (out ++ rest)) := by
  induction count generalizing out with
  | zero =>
      have empty : (do let rest ← readChunkList 0; Pure.pure (out ++ rest) : Reader (List UInt8)) =
          Pure.pure out := by
        funext buf
        change Except.ok (out ++ [], buf) = .ok (out, buf)
        rw [List.append_nil]
      rw [empty]
      exact Walks.pure out
  | succ count ih =>
      have regroup : (do let rest ← readChunkList (count + 1); Pure.pure (out ++ rest) :
          Reader (List UInt8)) = (do
            let claimed ← Reader.u32
            let len ← Proto.boundedSize claimed MAX_CHUNK_BYTES
            let bytes ← Reader.bytes len
            let rest ← readChunkList count
            Pure.pure (out ++ bytes ++ rest)) := by
        simp only [readChunkList, bind_assoc, pure_bind, List.append_assoc]
      rw [regroup]
      apply BufCursor.u32_walks.bind
      intro claimed
      apply (BufCursor.boundedSize_walks claimed MAX_CHUNK_BYTES).bind
      intro len
      apply (BufCursor.take_walks len).bind
      intro bytes
      exact ih (out ++ bytes)

theorem BufCursor.chunks_walks : Walks BufCursor.chunks chunksReader := by
  apply BufCursor.u32_walks.bind
  intro claimedSize
  apply (BufCursor.boundedSize_walks claimedSize MAX_CHUNK_BYTES).bind
  intro dataSize
  apply BufCursor.u32_walks.bind
  intro claimedCount
  apply (BufCursor.boundedSize_walks claimedCount MAX_CHUNK_COUNT).bind
  intro numChunks
  have loop := BufCursor.readChunkLoop_walks numChunks []
  simp only [List.nil_append, bind_pure] at loop
  apply loop.bind
  intro out
  split
  · constructor
    · intro buf pos reason inside stopped
      cases stopped
      rfl
    · intro buf pos value rest inside ran
      cases ran
  · exact Walks.pure out

/-- No index of `read_chunks` is out of range: the cursor returns what the reader returns. -/
theorem BufCursor.readChunks_eq (msgBody : List UInt8) (offset : Nat) :
    BufCursor.readChunks msgBody offset = (Proto.readChunks msgBody offset).mapError .error := by
  unfold BufCursor.readChunks Proto.readChunks
  split
  · rfl
  · rename_i inside
    have sliced : Program.range (ε := ProtoError) msgBody offset msgBody.length =
        .ok (msgBody.drop offset) := by
      rw [Program.range, if_pos (by omega), List.take_of_length_le]
      rw [List.length_drop]
    rw [Program.bind_ok sliced]
    have walks := BufCursor.chunks_walks
    cases ran : chunksReader (msgBody.drop offset) with
    | error reason =>
        have stopped := walks.failed (msgBody.drop offset) 0 reason (Nat.zero_le _)
          (by rw [List.drop_zero]; exact ran)
        rw [stopped, Reader.decode_error ran]
        rfl
    | ok result =>
        obtain ⟨next, _within, _rest, walked⟩ :=
          walks.took (msgBody.drop offset) 0 result.1 result.2 (Nat.zero_le _)
            (by rw [List.drop_zero]; exact ran)
        rw [walked, Reader.decode_ok (show chunksReader (msgBody.drop offset) =
          .ok (result.1, result.2) from ran)]
        rfl

/-! ### Chunk tables -/

/-- The records of a table: each chunk behind its length. -/
def chunkRecords (chunks : List (List UInt8)) : List UInt8 :=
  chunks.flatMap fun chunk => writeU32 chunk.length ++ chunk

/-- The body from `offset` on starts with a table of chunks within the caps, whose
concatenation is `data`. -/
structure ChunkTable (msgBody : List UInt8) (offset dataSize numChunks : Nat)
    (chunks : List (List UInt8)) (data : List UInt8) : Prop where
  size : dataSize ≤ 32 * 1024 * 1024
  count : numChunks ≤ 8388608
  records : ∀ chunk ∈ chunks, chunk.length ≤ 32 * 1024 * 1024
  listed : chunks.length = numChunks
  total : (chunks.map List.length).sum = dataSize
  placed : writeU32 dataSize ++ writeU32 numChunks ++ chunkRecords chunks <+: msgBody.drop offset
  joined : data = chunks.flatten

theorem boundedSize_step {α : Type} {claimed max : Nat} {next : Nat → Reader α}
    {buf rest : List UInt8} {value : α}
    (ran : (boundedSize claimed max >>= next) buf = .ok (value, rest)) :
    claimed ≤ max ∧ next claimed buf = .ok (value, rest) := by
  by_cases small : claimed ≤ max
  · rw [Codec.bind_ok (boundedSize_ok small)] at ran
    exact ⟨small, ran⟩
  · have stopped : boundedSize claimed max buf = _ := if_pos (Nat.lt_of_not_le small)
    rw [Codec.bind_error stopped] at ran
    cases ran

theorem readChunkList_taken {count : Nat} {buf data rest : List UInt8}
    (ran : readChunkList count buf = .ok (data, rest)) :
    ∃ chunks, chunks.length = count ∧ (∀ chunk ∈ chunks, chunk.length ≤ MAX_CHUNK_BYTES) ∧
      data = chunks.flatten ∧ buf = chunkRecords chunks ++ rest := by
  induction count generalizing buf data rest with
  | zero =>
      cases ran
      exact ⟨[], rfl, by simp, rfl, rfl⟩
  | succ count ih =>
      obtain ⟨claimed, afterLen, splitLen, ran⟩ := Reader.u32_faithful.step ran
      obtain ⟨small, ran⟩ := boundedSize_step ran
      obtain ⟨bytes, afterBytes, taken, ran⟩ := Codec.bind_eq_ok ran
      obtain ⟨splitBytes, length⟩ := Reader.take_faithful _ taken
      obtain ⟨others, afterOthers, listed, returned⟩ := Codec.bind_eq_ok ran
      obtain ⟨chunks, number, fits, joined, table⟩ := ih listed
      cases returned
      refine ⟨bytes :: chunks, congrArg Nat.succ number, ?_, ?_, ?_⟩
      · intro chunk member
        rcases List.mem_cons.mp member with rfl | later
        · rw [length]
          exact small
        · exact fits chunk later
      · rw [joined]
        rfl
      · rw [splitLen, splitBytes, table]
        simp only [chunkRecords, List.flatMap_cons, length, List.append_assoc]

theorem chunksReader_taken {msgBody data rest : List UInt8} {offset : Nat}
    (ran : chunksReader (msgBody.drop offset) = .ok (data, rest)) :
    ∃ dataSize numChunks chunks, ChunkTable msgBody offset dataSize numChunks chunks data := by
  obtain ⟨claimedSize, afterSize, splitSize, ran⟩ := Reader.u32_faithful.step ran
  obtain ⟨sizeSmall, ran⟩ := boundedSize_step ran
  obtain ⟨claimedCount, afterCount, splitCount, ran⟩ := Reader.u32_faithful.step ran
  obtain ⟨countSmall, ran⟩ := boundedSize_step ran
  obtain ⟨out, afterList, listed, ran⟩ := Codec.bind_eq_ok ran
  obtain ⟨chunks, number, fits, joined, table⟩ := readChunkList_taken listed
  split at ran
  · cases ran
  · rename_i same
    cases ran
    refine ⟨claimedSize, claimedCount, chunks, sizeSmall, countSmall, fits, number, ?_, ?_, joined⟩
    · rw [← List.length_flatten, ← joined]
      exact Classical.not_not.mp same
    · rw [splitSize, splitCount, table]
      simp only [← List.append_assoc]
      exact List.prefix_append _ _

theorem ChunkTable.reads {msgBody data : List UInt8} {offset dataSize numChunks : Nat}
    {chunks : List (List UInt8)}
    (table : ChunkTable msgBody offset dataSize numChunks chunks data) :
    Proto.readChunks msgBody offset = .ok data := by
  obtain ⟨rest, placed⟩ := table.placed
  have size : dataSize ≤ MAX_CHUNK_BYTES := table.size
  have count : numChunks ≤ MAX_CHUNK_COUNT := table.count
  have total : chunks.flatten.length = dataSize := by
    rw [List.length_flatten]
    exact table.total
  have inside : offset + 8 ≤ msgBody.length := by
    have length := congrArg List.length placed
    simp only [List.length_append, writeU32, Bytes.length_toLe, List.length_drop] at length
    omega
  have written : writeU32 dataSize ++ writeU32 numChunks ++ chunkRecords chunks =
      encodeChunks chunks := by
    rw [← total, ← table.listed, List.append_assoc]
    rfl
  rw [← total] at size
  rw [← table.listed] at count
  rw [Proto.readChunks, if_neg (Nat.not_lt.mpr inside), ← placed, written, table.joined]
  exact Reader.decode_ok ((chunksReader_exact size count table.records).whole rest)

/-- `read_chunks` accepts exactly the well-formed chunk tables, returns their bytes in order,
and ends in an error of its own on any other body. -/
theorem readChunks_iff (msgBody : List UInt8) (offset : Nat) :
    (∀ data, BufCursor.readChunks msgBody offset = .ok data ↔
        ∃ dataSize numChunks chunks, ChunkTable msgBody offset dataSize numChunks chunks data) ∧
      ((¬∃ data dataSize numChunks chunks,
          ChunkTable msgBody offset dataSize numChunks chunks data) →
        ∃ reason, BufCursor.readChunks msgBody offset = .error (.error reason)) := by
  have accepts : ∀ data, BufCursor.readChunks msgBody offset = .ok data ↔
      ∃ dataSize numChunks chunks, ChunkTable msgBody offset dataSize numChunks chunks data := by
    intro data
    rw [BufCursor.readChunks_eq]
    constructor
    · intro returned
      cases ran : Proto.readChunks msgBody offset with
      | error reason =>
          rw [ran] at returned
          cases returned
      | ok value =>
          rw [ran] at returned
          cases returned
          unfold Proto.readChunks at ran
          split at ran
          · cases ran
          · obtain ⟨rest, read⟩ := Reader.decode_eq_ok ran
            exact chunksReader_taken read
    · rintro ⟨dataSize, numChunks, chunks, table⟩
      rw [table.reads]
      rfl
  constructor
  · exact accepts
  · intro none
    cases ran : Proto.readChunks msgBody offset with
    | error reason =>
        exact ⟨reason, by rw [BufCursor.readChunks_eq, ran]; rfl⟩
    | ok value =>
        have returned : BufCursor.readChunks msgBody offset = .ok value := by
          rw [BufCursor.readChunks_eq, ran]
          rfl
        obtain ⟨dataSize, numChunks, chunks, table⟩ := (accepts value).mp returned
        exact absurd ⟨value, dataSize, numChunks, chunks, table⟩ none

/-- An empty chunk between two others, behind three bytes of something else. -/
example : BufCursor.readChunks
    [9, 9, 9, 3, 0, 0, 0, 3, 0, 0, 0, 2, 0, 0, 0, 5, 6, 0, 0, 0, 0, 1, 0, 0, 0, 7, 9] 3 =
      .ok [5, 6, 7] := by
  decide

end Capsaicin.Proto
