/-
What the drawing decoders accept. Each field is taken as its own encoding, but for two
tags: a clip or a brush of an unknown type is read as a value that is written otherwise.
-/

import Capsaicin.Proto.RoundTrip

namespace Capsaicin.Proto

open Codec (Faithful)
open Bytes (ofLe toLe slice)

/-! ### Fields -/

theorem Reader.take_faithful (n : Nat) {buf bytes rest : List UInt8}
    (ran : Reader.take n buf = .ok (bytes, rest)) : buf = bytes ++ rest ∧ bytes.length = n := by
  by_cases enough : n ≤ buf.length
  · rw [Reader.take_ok enough] at ran
    cases ran
    exact ⟨(List.take_append_drop n buf).symm, List.length_take_of_le enough⟩
  · rw [Reader.take_error (Nat.lt_of_not_le enough)] at ran
    cases ran

theorem Reader.le_taken (count : Nat) {buf rest : List UInt8} {value : Nat}
    (ran : (do let bytes ← Reader.take count; pure (ofLe bytes) : Reader Nat) buf =
      .ok (value, rest)) : buf = toLe count value ++ rest ∧ value < 256 ^ count := by
  obtain ⟨bytes, middle, taken, returned⟩ := Codec.bind_eq_ok ran
  obtain ⟨split, length⟩ := Reader.take_faithful count taken
  cases returned
  constructor
  · rw [split, ← length, Bytes.toLe_ofLe]
  · rw [← length]
    exact Bytes.ofLe_lt bytes

theorem Reader.u8_faithful : Faithful Reader.u8 writeU8 :=
  fun _buf _value _rest ran => (Reader.le_taken 1 ran).1

theorem Reader.u16_faithful : Faithful Reader.u16 writeU16 :=
  fun _buf _value _rest ran => (Reader.le_taken 2 ran).1

theorem Reader.u32_faithful : Faithful Reader.u32 writeU32 :=
  fun _buf _value _rest ran => (Reader.le_taken 4 ran).1

theorem Reader.u64_faithful : Faithful Reader.u64 writeU64 :=
  fun _buf _value _rest ran => (Reader.le_taken 8 ran).1

theorem unsigned_signed {value : Nat} (fits : value < 256 ^ 4) :
    unsigned 32 (Reader.signed 32 value) = value := by
  unfold Reader.signed unsigned
  split <;> omega

theorem Reader.i32_faithful : Faithful Reader.i32 writeI32 := by
  intro buf value rest ran
  obtain ⟨word, middle, taken, returned⟩ := Codec.bind_eq_ok ran
  obtain ⟨split, fits⟩ := Reader.le_taken 4 taken
  cases returned
  rw [split, writeI32, unsigned_signed fits]
  rfl

theorem Point.faithful : Faithful Point.decode Point.encode := by
  intro buf point rest ran
  obtain ⟨x, afterX, splitX, ran⟩ := Reader.i32_faithful.step ran
  obtain ⟨y, afterY, splitY, ran⟩ := Reader.i32_faithful.step ran
  cases ran
  rw [splitX, splitY, Point.encode, List.append_assoc]

theorem Rect.faithful : Faithful Rect.decode Rect.encode := by
  intro buf rect rest ran
  obtain ⟨top, afterTop, splitTop, ran⟩ := Reader.i32_faithful.step ran
  obtain ⟨left, afterLeft, splitLeft, ran⟩ := Reader.i32_faithful.step ran
  obtain ⟨bottom, afterBottom, splitBottom, ran⟩ := Reader.i32_faithful.step ran
  obtain ⟨right, afterRight, splitRight, ran⟩ := Reader.i32_faithful.step ran
  cases ran
  rw [splitTop, splitLeft, splitBottom, splitRight]
  simp only [Rect.encode, List.append_assoc]

theorem QMask.faithful : Faithful QMask.reader QMask.encode := by
  intro buf mask rest ran
  obtain ⟨flags, afterFlags, splitFlags, ran⟩ := Reader.u8_faithful.step ran
  obtain ⟨pos, afterPos, splitPos, ran⟩ := Point.faithful.step ran
  obtain ⟨bitmapOffset, afterOffset, splitOffset, ran⟩ := Reader.u32_faithful.step ran
  cases ran
  rw [splitFlags, splitPos, splitOffset]
  simp only [QMask.encode, Point.encode, List.append_assoc]

theorem VideoCodec.fromU8_taken {value : Nat} {codec : VideoCodec} {buf rest : List UInt8}
    (ran : VideoCodec.fromU8 value buf = .ok (codec, rest)) : codec.toU8 = value ∧ buf = rest := by
  unfold VideoCodec.fromU8 at ran
  split at ran
  · rename_i is
    cases ran
    exact ⟨is.symm, rfl⟩
  split at ran
  · rename_i is
    cases ran
    exact ⟨is.symm, rfl⟩
  split at ran
  · rename_i is
    cases ran
    exact ⟨is.symm, rfl⟩
  split at ran
  · rename_i is
    cases ran
    exact ⟨is.symm, rfl⟩
  split at ran
  · rename_i is
    cases ran
    exact ⟨is.symm, rfl⟩
  · cases ran

/-! ### Tags -/

/-- The tag of the clip, at its place in the body, is one the format defines. -/
def ClipKnown (position : Nat) (body : List UInt8) : Prop :=
  ∃ tag, body[position]? = some tag ∧ tag.toNat ≤ 1

/-- Where the brush of a fill stands: behind a clip with or without an offset. -/
def brushPosition (body : List UInt8) : Nat := if body[20]? = some 0 then 21 else 25

/-- The tag of the brush of a fill is one the format defines. -/
def BrushKnown (body : List UInt8) : Prop :=
  ofLe (slice body (brushPosition body) (brushPosition body + 4)) ≤ 2

theorem Clip.taken {buf rest : List UInt8} {clip : Clip} (ran : Clip.reader buf = .ok (clip, rest)) :
    ∃ tag behind, buf = tag :: behind ∧
      ((tag.toNat ≤ 1 ∧ buf = clip.encode ++ rest) ∨ (2 ≤ tag.toNat ∧ clip = .rects 0)) := by
  obtain ⟨value, middle, taken, ran⟩ := Codec.bind_eq_ok ran
  obtain ⟨split, small⟩ := Reader.le_taken 1 taken
  have byte : (UInt8.ofNat value).toNat = value := by
    rw [Bytes.toNat_ofNat]
    exact Nat.mod_eq_of_lt small
  refine ⟨UInt8.ofNat value, middle, split, ?_⟩
  rw [byte]
  by_cases none : value = 0
  · subst none
    rw [if_pos rfl] at ran
    cases ran
    exact Or.inl ⟨Nat.zero_le 1, split⟩
  · rw [if_neg none] at ran
    by_cases rects : value = 1
    · subst rects
      rw [if_pos rfl] at ran
      obtain ⟨offset, behind, rfl, returned⟩ := Reader.u32_faithful.step ran
      cases returned
      exact Or.inl ⟨Nat.le_refl 1, split⟩
    · rw [if_neg rects] at ran
      cases ran
      exact Or.inr ⟨by omega, rfl⟩

theorem Clip.prefix_iff {front body rest more : List UInt8} {clip : Clip} {position : Nat}
    (place : front.length = position) (ran : Clip.reader body = .ok (clip, rest)) :
    front ++ (clip.encode ++ more) <+: front ++ body ↔
      ClipKnown position (front ++ body) ∧ more <+: rest := by
  obtain ⟨tag, behind, split, known | unknown⟩ := Clip.taken ran
  · have here : ClipKnown position (front ++ body) := by
      refine ⟨tag, ?_, known.1⟩
      rw [← place, List.getElem?_append_right (Nat.le_refl _), Nat.sub_self, split]
      rfl
    rw [List.prefix_append_right_inj, known.2, List.prefix_append_right_inj, ← known.2]
    exact ⟨fun within => ⟨here, within⟩, fun both => both.2⟩
  · obtain ⟨large, rfl⟩ := unknown
    constructor
    · intro within
      rw [List.prefix_append_right_inj, split] at within
      have first := (List.cons_prefix_cons.mp within).1
      subst first
      exact absurd large (by decide)
    · rintro ⟨⟨found, at_, small⟩, _⟩
      rw [← place, List.getElem?_append_right (Nat.le_refl _), Nat.sub_self, split] at at_
      cases at_
      omega

theorem Brush.taken {buf rest : List UInt8} {brush : Brush}
    (ran : Brush.reader buf = .ok (brush, rest)) :
    ∃ tag behind, tag < 256 ^ 4 ∧ buf = writeU32 tag ++ behind ∧
      ((tag ≤ 2 ∧ buf = brush.encode ++ rest) ∨ (3 ≤ tag ∧ brush = .none)) := by
  obtain ⟨tag, middle, taken, ran⟩ := Codec.bind_eq_ok ran
  obtain ⟨split, small⟩ := Reader.le_taken 4 taken
  refine ⟨tag, middle, small, split, ?_⟩
  by_cases none : tag = 0
  · subst none
    rw [if_pos rfl] at ran
    cases ran
    exact Or.inl ⟨by omega, split⟩
  · rw [if_neg none] at ran
    by_cases solid : tag = 1
    · subst solid
      rw [if_pos rfl] at ran
      obtain ⟨color, behind, rfl, returned⟩ := Reader.u32_faithful.step ran
      cases returned
      exact Or.inl ⟨by omega, split⟩
    · rw [if_neg solid] at ran
      by_cases pattern : tag = 2
      · subst pattern
        rw [if_pos rfl] at ran
        obtain ⟨offset, afterOffset, splitOffset, ran⟩ := Reader.u32_faithful.step ran
        obtain ⟨pos, afterPos, splitPos, returned⟩ := Point.faithful.step ran
        cases returned
        refine Or.inl ⟨by omega, ?_⟩
        rw [split, splitOffset, splitPos]
        simp only [Brush.encode, Point.encode, List.append_assoc]
        rfl
      · rw [if_neg pattern] at ran
        cases ran
        exact Or.inr ⟨by omega, rfl⟩

theorem Brush.prefix_iff {body rest more : List UInt8} {brush : Brush}
    (ran : Brush.reader body = .ok (brush, rest)) :
    brush.encode ++ more <+: body ↔ ofLe (body.take 4) ≤ 2 ∧ more <+: rest := by
  obtain ⟨tag, behind, small, split, known⟩ := Brush.taken ran
  have word : ofLe (body.take 4) = tag := by
    rw [split, writeU32, List.take_left' (Bytes.length_toLe 4 tag), Bytes.ofLe_toLe small]
  rw [word]
  rcases known with ⟨low, whole⟩ | ⟨high, rfl⟩
  · rw [whole, List.prefix_append_right_inj]
    exact ⟨fun within => ⟨low, within⟩, fun both => both.2⟩
  · constructor
    · intro within
      have tags := (List.prefix_append (Brush.none.encode) more).trans within
      rw [split] at tags
      have same := List.IsPrefix.eq_of_length
        (List.prefix_of_prefix_length_le tags (List.prefix_append (writeU32 tag) behind)
          (Nat.le_of_eq rfl)) rfl
      have value := congrArg ofLe same
      rw [writeU32, Bytes.ofLe_toLe small] at value
      change 0 = tag at value
      omega
    · intro both
      omega

/-! ### The decoders -/

theorem DrawBase.taken {buf rest : List UInt8} {base : DrawBase}
    (ran : DrawBase.reader buf = .ok (base, rest)) :
    ∃ body, buf = writeU32 base.surfaceId ++ base.bounds.encode ++ body ∧
      Clip.reader body = .ok (base.clip, rest) := by
  obtain ⟨surfaceId, afterId, splitId, ran⟩ := Reader.u32_faithful.step ran
  obtain ⟨bounds, body, splitBounds, ran⟩ := Rect.faithful.step ran
  obtain ⟨clip, behind, clipRead, ran⟩ := Codec.bind_eq_ok ran
  cases ran
  exact ⟨body, by rw [splitId, splitBounds, List.append_assoc], clipRead⟩

theorem DrawBase.length_front (base : DrawBase) :
    (writeU32 base.surfaceId ++ base.bounds.encode).length = 20 := by
  simp [writeU32, writeI32, Rect.encode]

/-- A command behind its base goes on with its own encoding exactly when the clip is known and
the rest goes on with the encoding of the rest. -/
theorem DrawBase.prefix_iff {buf rest more : List UInt8} {base : DrawBase}
    (ran : DrawBase.reader buf = .ok (base, rest)) :
    base.encode ++ more <+: buf ↔ ClipKnown 20 buf ∧ more <+: rest := by
  obtain ⟨body, split, clipRead⟩ := DrawBase.taken ran
  have whole : base.encode ++ more =
      writeU32 base.surfaceId ++ base.bounds.encode ++ (base.clip.encode ++ more) := by
    simp only [DrawBase.encode, List.append_assoc]
  rw [whole, split]
  exact Clip.prefix_iff base.length_front clipRead

theorem CopyBits.prefix_iff {buf : List UInt8} {copy : CopyBits}
    (decoded : CopyBits.decode buf = .ok copy) : copy.encode <+: buf ↔ ClipKnown 20 buf := by
  obtain ⟨rest, ran⟩ := Reader.decode_eq_ok decoded
  obtain ⟨base, body, baseRead, ran⟩ := Codec.bind_eq_ok ran
  obtain ⟨pos, behind, split, ran⟩ := Point.faithful.step ran
  cases ran
  have whole : (CopyBits.mk base pos).encode = base.encode ++ pos.encode := by
    simp only [CopyBits.encode, Point.encode, List.append_assoc]
  rw [whole, DrawBase.prefix_iff baseRead, split]
  exact and_iff_left (List.prefix_append _ _)

theorem DrawCopy.prefix_iff {buf : List UInt8} {copy : DrawCopy}
    (decoded : DrawCopy.decode buf = .ok copy) : copy.encode <+: buf ↔ ClipKnown 20 buf := by
  obtain ⟨rest, ran⟩ := Reader.decode_eq_ok decoded
  obtain ⟨base, body, baseRead, ran⟩ := Codec.bind_eq_ok ran
  obtain ⟨offset, afterOffset, splitOffset, ran⟩ := Reader.u32_faithful.step ran
  obtain ⟨area, afterArea, splitArea, ran⟩ := Rect.faithful.step ran
  obtain ⟨rop, afterRop, splitRop, ran⟩ := Reader.u16_faithful.step ran
  obtain ⟨scale, afterScale, splitScale, ran⟩ := Reader.u8_faithful.step ran
  obtain ⟨mask, behind, splitMask, ran⟩ := QMask.faithful.step ran
  cases ran
  unfold DrawCopy.encode
  simp only [List.append_assoc]
  rw [DrawBase.prefix_iff baseRead, splitOffset, splitArea, splitRop, splitScale, splitMask]
  simp only [List.prefix_append_right_inj, List.prefix_append, and_true]

theorem DrawBase.brush_word {buf body : List UInt8} {base : DrawBase}
    (ran : DrawBase.reader buf = .ok (base, body)) (known : ClipKnown 20 buf) :
    slice buf (brushPosition buf) (brushPosition buf + 4) = body.take 4 := by
  obtain ⟨behind, split, clipRead⟩ := DrawBase.taken ran
  have front := base.length_front
  obtain ⟨found, at_, small⟩ := known
  obtain ⟨tag, after, splitTag, ⟨_low, whole⟩ | ⟨large, _rects⟩⟩ := Clip.taken clipRead
  · rw [slice, Nat.add_sub_cancel_left]
    cases clip : base.clip with
    | none =>
        rw [clip] at whole
        have bytes : buf = (writeU32 base.surfaceId ++ base.bounds.encode ++ [0]) ++ body := by
          rw [split, whole, List.append_assoc, List.append_assoc, List.append_assoc]
          rfl
        have length : (writeU32 base.surfaceId ++ base.bounds.encode ++ [0]).length = 21 := by
          rw [List.length_append, front]
          rfl
        have head : buf[20]? = some 0 := by
          rw [split, List.getElem?_append_right (Nat.le_of_eq front), front, whole]
          rfl
        rw [brushPosition, if_pos head, bytes, List.drop_left' length]
    | rects offset =>
        rw [clip] at whole
        have bytes : buf =
            (writeU32 base.surfaceId ++ base.bounds.encode ++ (Clip.rects offset).encode) ++
              body := by
          rw [split, whole, List.append_assoc, List.append_assoc, List.append_assoc]
        have length : (writeU32 base.surfaceId ++ base.bounds.encode ++
            (Clip.rects offset).encode).length = 25 := by
          rw [List.length_append, front]
          simp [Clip.encode, writeU8, writeU32]
        have head : buf[20]? = some 1 := by
          rw [split, List.getElem?_append_right (Nat.le_of_eq front), front, whole]
          rfl
        have other : ¬buf[20]? = some 0 := by
          rw [head]
          decide
        rw [brushPosition, if_neg other, bytes, List.drop_left' length]
  · rw [split, List.getElem?_append_right (Nat.le_of_eq front), front, splitTag] at at_
    cases at_
    omega

theorem DrawFill.prefix_iff {buf : List UInt8} {fill : DrawFill}
    (decoded : DrawFill.decode buf = .ok fill) :
    fill.encode <+: buf ↔ ClipKnown 20 buf ∧ BrushKnown buf := by
  obtain ⟨rest, ran⟩ := Reader.decode_eq_ok decoded
  obtain ⟨base, body, baseRead, ran⟩ := Codec.bind_eq_ok ran
  obtain ⟨brush, afterBrush, brushRead, ran⟩ := Codec.bind_eq_ok ran
  obtain ⟨rop, afterRop, splitRop, ran⟩ := Reader.u16_faithful.step ran
  obtain ⟨mask, behind, splitMask, ran⟩ := QMask.faithful.step ran
  cases ran
  unfold DrawFill.encode
  simp only [List.append_assoc]
  rw [DrawBase.prefix_iff baseRead, Brush.prefix_iff brushRead, splitRop, splitMask]
  simp only [List.prefix_append_right_inj, List.prefix_append, and_true]
  apply and_congr_right
  intro known
  rw [BrushKnown, DrawBase.brush_word baseRead known]

theorem StreamClip.prefix_iff {buf : List UInt8} {message : StreamClip}
    (decoded : StreamClip.decode buf = .ok message) :
    message.encode <+: buf ↔ ClipKnown 4 buf := by
  obtain ⟨rest, ran⟩ := Reader.decode_eq_ok decoded
  obtain ⟨streamId, body, split, ran⟩ := Reader.u32_faithful.step ran
  obtain ⟨clip, behind, clipRead, ran⟩ := Codec.bind_eq_ok ran
  cases ran
  have front : (writeU32 streamId).length = 4 := Bytes.length_toLe 4 streamId
  have known := @Clip.prefix_iff _ _ _ [] _ _ front clipRead
  rw [List.append_nil] at known
  rw [StreamClip.encode, split, known]
  exact and_iff_left List.nil_prefix

def StreamCreate.front (create : StreamCreate) : List UInt8 :=
  writeU32 create.surfaceId ++ (writeU32 create.streamId ++ (writeU8 create.flags ++
    (writeU8 create.codec.toU8 ++ (writeU64 create.stamp ++ (writeU32 create.streamWidth ++
      (writeU32 create.streamHeight ++ (writeU32 create.srcWidth ++ (writeU32 create.srcHeight ++
        create.dest.encode))))))))

theorem StreamCreate.taken {buf : List UInt8} {create : StreamCreate}
    (decoded : StreamCreate.decode buf = .ok create) :
    ∃ body rest, buf = create.front ++ body ∧ Clip.reader body = .ok (create.clip, rest) := by
  obtain ⟨rest, ran⟩ := Reader.decode_eq_ok decoded
  obtain ⟨surfaceId, afterSurface, splitSurface, ran⟩ := Reader.u32_faithful.step ran
  obtain ⟨streamId, afterStream, splitStream, ran⟩ := Reader.u32_faithful.step ran
  obtain ⟨flags, afterFlags, splitFlags, ran⟩ := Reader.u8_faithful.step ran
  obtain ⟨rawCodec, afterCodec, splitCodec, ran⟩ := Reader.u8_faithful.step ran
  obtain ⟨codec, afterCodec', codecRead, ran⟩ := Codec.bind_eq_ok ran
  obtain ⟨codecRaw, codecSame⟩ := VideoCodec.fromU8_taken codecRead
  obtain ⟨stamp, afterStamp, splitStamp, ran⟩ := Reader.u64_faithful.step ran
  obtain ⟨streamWidth, afterWidth, splitWidth, ran⟩ := Reader.u32_faithful.step ran
  obtain ⟨streamHeight, afterHeight, splitHeight, ran⟩ := Reader.u32_faithful.step ran
  obtain ⟨srcWidth, afterSrcWidth, splitSrcWidth, ran⟩ := Reader.u32_faithful.step ran
  obtain ⟨srcHeight, afterSrcHeight, splitSrcHeight, ran⟩ := Reader.u32_faithful.step ran
  obtain ⟨dest, body, splitDest, ran⟩ := Rect.faithful.step ran
  obtain ⟨clip, behind, clipRead, ran⟩ := Codec.bind_eq_ok ran
  cases ran
  refine ⟨body, rest, ?_, clipRead⟩
  rw [splitSurface, splitStream, splitFlags, splitCodec, codecSame, splitStamp, splitWidth,
    splitHeight, splitSrcWidth, splitSrcHeight, splitDest]
  simp only [StreamCreate.front, codecRaw, List.append_assoc]

theorem StreamCreate.prefix_iff {buf : List UInt8} {create : StreamCreate}
    (decoded : StreamCreate.decode buf = .ok create) : create.encode <+: buf ↔ ClipKnown 50 buf := by
  obtain ⟨body, rest, split, clipRead⟩ := StreamCreate.taken decoded
  have length : create.front.length = 50 := by
    simp [StreamCreate.front, writeU8, writeU32, writeU64, writeI32, Rect.encode]
  have known := @Clip.prefix_iff _ _ _ [] _ _ length clipRead
  have whole : create.encode = create.front ++ (create.clip.encode ++ []) := by
    simp only [StreamCreate.encode, StreamCreate.front, List.append_assoc, List.append_nil]
  rw [whole, split, known]
  exact and_iff_left List.nil_prefix

/-- The decoders accept the encoding of what they return exactly on bodies whose clip has a
known type, and whose brush has one as well where there is a brush. -/
theorem draw_grammar_iff (buf : List UInt8) :
    (∀ fill, DrawFill.decode buf = .ok fill →
        (fill.encode <+: buf ↔ ClipKnown 20 buf ∧ BrushKnown buf)) ∧
      (∀ copy, DrawCopy.decode buf = .ok copy → (copy.encode <+: buf ↔ ClipKnown 20 buf)) ∧
      (∀ copy, CopyBits.decode buf = .ok copy → (copy.encode <+: buf ↔ ClipKnown 20 buf)) ∧
      (∀ create, StreamCreate.decode buf = .ok create →
        (create.encode <+: buf ↔ ClipKnown 50 buf)) ∧
      ∀ message, StreamClip.decode buf = .ok message →
        (message.encode <+: buf ↔ ClipKnown 4 buf) :=
  ⟨fun _fill decoded => DrawFill.prefix_iff decoded,
    fun _copy decoded => DrawCopy.prefix_iff decoded,
    fun _copy decoded => CopyBits.prefix_iff decoded,
    fun _create decoded => StreamCreate.prefix_iff decoded,
    fun _message decoded => StreamClip.prefix_iff decoded⟩

/-- A stream clip of a known type, with a byte behind it. -/
theorem draw_grammar_iff_rects :
    (StreamClip.mk 7 (.rects 9)).encode <+: [7, 0, 0, 0, 1, 9, 0, 0, 0, 5] ↔
      ClipKnown 4 [7, 0, 0, 0, 1, 9, 0, 0, 0, 5] :=
  (draw_grammar_iff [7, 0, 0, 0, 1, 9, 0, 0, 0, 5]).2.2.2.2 (.mk 7 (.rects 9)) rfl

/-- A stream clip of type 2 is accepted, and its offset is made up. -/
theorem streamClip_unknown_type :
    ∃ buf message, StreamClip.decode buf = .ok message ∧ ¬message.encode <+: buf := by
  refine ⟨[7, 0, 0, 0, 2], { streamId := 7, clip := .rects 0 }, rfl, ?_⟩
  decide

end Capsaicin.Proto
