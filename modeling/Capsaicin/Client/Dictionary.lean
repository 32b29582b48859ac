/-
The dictionary of a session. Only drawing commands change it, and a GLZ image whose header
is accepted leaves an entry there, decoded or not.
-/

import Capsaicin.Client.Drawing
import Capsaicin.Glz.Total

namespace Capsaicin.Client

open Glz (GlzHeader GlzWindow WindowOp)
open Glz.GlzWindow (Evicts Runs inserts)
open Net (Message)
open Program (Aborts Returns bind_eq_ok)
open Proto
open Reactive (final)

variable {jpeg : JpegDecoder} {state next : DisplayState} {msg : Message} {effects : List Effect}

/-! ### Sessions -/

/-- The dictionary stays as it is, or a drawing command changes it. -/
def Touches (state : DisplayState) (msg : Message) (next : DisplayState) : Prop :=
  next.glzWindow = state.glzWindow ∨
    ∃ drawn event, msg.msgType = DisplayMsg.DRAW_COPY ∧
      decodeDrawCopy state msg = .ok (drawn, event) ∧ next.glzWindow = drawn.glzWindow

theorem handleArm_touches :
    Returns (handleArm jpeg state msg) fun result => Touches state msg result.1 := by
  refine .ite (fun _ping => .skip fun _ => .ok (Or.inl rfl)) fun _ => ?_
  refine .ite (fun _setAck => .skip fun _ => .ok (Or.inl rfl)) fun _ => ?_
  refine .ite (fun _migrate => .ok (Or.inl rfl)) fun _ => ?_
  refine .ite (fun _mode => .skip fun _ => .ok (Or.inl rfl)) fun _ => ?_
  refine .ite (fun _mark => .ok (Or.inl rfl)) fun _ => ?_
  refine .ite (fun _reset => .ok (Or.inl rfl)) fun _ => ?_
  refine .ite (fun _create => .skip fun _ => .ok (Or.inl rfl)) fun _ => ?_
  refine .ite (fun _destroy => .skip fun _ => .ok (Or.inl rfl)) fun _ => ?_
  refine .ite (fun _monitors => .skip fun _ => .ok (Or.inl rfl)) fun _ => ?_
  refine .ite (fun _fill => .ok (Or.inl rfl)) fun _ => ?_
  refine .ite (fun draw => ?_) fun _ => ?_
  · intro result ran
    rcases bind_eq_ok.mp ran with ⟨⟨drawn, event⟩, decoded, ran⟩
    cases ran
    exact Or.inr ⟨drawn, event, draw, decoded, rfl⟩
  · refine .ite (fun _copy => ?_) fun _ => ?_
    · cases CopyBits.decode msg.body with
      | ok cb => exact .ok (Or.inl rfl)
      | error reason => exact .ok (Or.inl rfl)
    · refine .ite (fun _create => ?_) fun _ => ?_
      · cases StreamCreate.decode msg.body with
        | ok s => exact .ok (Or.inl rfl)
        | error reason => exact .ok (Or.inl rfl)
      · refine .ite (fun _data => ?_) fun _ => ?_
        · cases StreamData.decode msg.body with
          | ok d => exact .skip fun _ => .ok (Or.inl rfl)
          | error reason => exact .ok (Or.inl rfl)
        · refine .ite (fun _sized => ?_) fun _ => ?_
          · cases StreamDataSized.decode msg.body with
            | ok d => exact .skip fun _ => .ok (Or.inl rfl)
            | error reason => exact .ok (Or.inl rfl)
          · refine .ite (fun _destroy => ?_) fun _ => ?_
            · cases StreamDestroy.decode msg.body with
              | ok d => exact .ok (Or.inl rfl)
              | error reason => exact .ok (Or.inl rfl)
            · exact .ite (fun _all => .ok (Or.inl rfl)) fun _ => .ok (Or.inl rfl)

theorem handle_window (ran : handle jpeg state msg = .ok (next, effects)) :
    ∃ middle put, handleArm jpeg state msg = .ok (middle, put) ∧
      next.glzWindow = middle.glzWindow := by
  rcases bind_eq_ok.mp ran with ⟨⟨middle, put⟩, armed, ran⟩
  refine ⟨middle, put, armed, ?_⟩
  dsimp only at ran
  split at ran
  · cases ran
    rfl
  · cases ran
    rfl

theorem handleArm_draws (draw : msg.msgType = DisplayMsg.DRAW_COPY) :
    handleArm jpeg state msg =
      (do
        let (state, evt) ← decodeDrawCopy state msg
        .ok (state, [emit evt])) := by
  unfold handleArm
  rw [draw]
  rfl

theorem handle_draws (draw : msg.msgType = DisplayMsg.DRAW_COPY)
    (ran : handle jpeg state msg = .ok (next, effects)) :
    ∃ drawn event, decodeDrawCopy state msg = .ok (drawn, event) ∧
      next.glzWindow = drawn.glzWindow := by
  rcases handle_window ran with ⟨middle, put, armed, same⟩
  rw [handleArm_draws draw] at armed
  rcases bind_eq_ok.mp armed with ⟨⟨drawn, event⟩, decoded, ended⟩
  cases ended
  exact ⟨middle, event, decoded, same⟩

theorem handle_drawn {drawn : DisplayState} {event : DisplayEvent}
    (draw : msg.msgType = DisplayMsg.DRAW_COPY)
    (decoded : decodeDrawCopy state msg = .ok (drawn, event)) :
    ∃ next effects, handle jpeg state msg = .ok (next, effects) ∧
      next.glzWindow = drawn.glzWindow := by
  have counted : uncounted msg.msgType = false := by
    rw [draw]
    rfl
  let effects : List Effect :=
    if drawn.ack.noteMessage.2 then [emit event] ++ [ackMessage] else [emit event]
  refine ⟨{ drawn with ack := drawn.ack.noteMessage.1 }, effects, ?_, rfl⟩
  rw [handle, handleArm_draws draw, decoded]
  change (if uncounted msg.msgType = true then Except.ok (drawn, [emit event])
    else Except.ok ({ drawn with ack := drawn.ack.noteMessage.1 }, effects)) = _
  rw [counted]
  rfl

theorem handle_touches (ran : handle jpeg state msg = .ok (next, effects)) :
    Touches state msg next := by
  rcases handle_window ran with ⟨middle, put, armed, same⟩
  have touches := handleArm_touches (middle, put) armed
  unfold Touches
  rw [same]
  exact touches

theorem decodeDrawCopy_stores {event : DisplayEvent}
    (ran : decodeDrawCopy state msg = .ok (next, event)) :
    next.glzWindow = state.glzWindow ∨
      ∃ id pixels, next.glzWindow = state.glzWindow.insert id pixels 4 := by
  cases decodeDrawCopy_outcome ran with
  | ignored => exact Or.inl rfl
  | missed points kind carried parsed failed bounded => exact Or.inr ⟨_, _, rfl⟩
  | drawn points holds => exact Or.inr ⟨_, _, rfl⟩

theorem displayLoop_next (ran : (displayLoop jpeg state msg).2 = some next) :
    ∃ effects, handle jpeg state msg = .ok (next, effects) := by
  unfold displayLoop at ran
  cases handled : handle jpeg state msg with
  | error fault =>
      rw [handled] at ran
      cases ran
  | ok result =>
      rcases result with ⟨behind, effects⟩
      rw [handled] at ran
      cases ran
      exact ⟨effects, rfl⟩

/-- A history of a dictionary, with so many insertions at most, of images of four bytes a
pixel. -/
def Insertions (count : Nat) (window : GlzWindow) : Prop :=
  ∃ ops subs, Runs GlzWindow.default ops subs window ∧ inserts ops ≤ count ∧
    ∀ id pixels bpp, .insert id pixels bpp ∈ ops → bpp = 4

theorem Insertions.insert {count : Nat} {window : GlzWindow} (history : Insertions count window)
    (id : Nat) (pixels : List UInt8) : Insertions (count + 1) (window.insert id pixels 4) := by
  rcases history with ⟨ops, subs, runs, few, four⟩
  rcases Glz.GlzWindow.insert_evicts window id pixels 4 with ⟨evicted, evicts⟩
  rcases runs.insert_last evicts with ⟨subs', behind⟩
  refine ⟨ops ++ [.insert id pixels 4], subs', behind, ?_, ?_⟩
  · have one : inserts (ops ++ [.insert id pixels 4]) = inserts ops + 1 := by simp [inserts]
    omega
  · intro other bytes bpp member
    rcases List.mem_append.mp member with before | last
    · exact four other bytes bpp before
    · cases List.mem_singleton.mp last
      rfl

theorem Insertions.mono {count more : Nat} {window : GlzWindow} (history : Insertions count window)
    (fewer : count ≤ more) : Insertions more window := by
  rcases history with ⟨ops, subs, runs, few, four⟩
  exact ⟨ops, subs, runs, Nat.le_trans few fewer, four⟩

/-- The dictionary of a session has a history of no more insertions than messages. -/
theorem session_runs {msgs : List Message}
    (ran : final (displayLoop jpeg) DisplayState.default msgs = some state) :
    Insertions msgs.length state.glzWindow := by
  have fresh : Insertions ([] : List Message).length DisplayState.default.glzWindow :=
    ⟨[], [], .nil _, Nat.le_refl _, by simp⟩
  rw [← List.nil_append msgs]
  refine @Reactive.final_history _ _ _ _
    (fun before state => Insertions before.length state.glzWindow) ?_ [] msgs _ _ fresh ran
  intro before state msg next history stepped
  rcases displayLoop_next stepped with ⟨effects, handled⟩
  have step : next.glzWindow = state.glzWindow ∨
      ∃ id pixels, next.glzWindow = state.glzWindow.insert id pixels 4 := by
    rcases handle_touches handled with same | ⟨drawn, event, _draw, decoded, same⟩
    · exact Or.inl same
    · rw [same]
      exact decodeDrawCopy_stores decoded
  rw [List.length_append, List.length_singleton]
  rcases step with same | ⟨id, pixels, stored⟩
  · rw [same]
    exact history.mono (Nat.le_succ _)
  · rw [stored]
    exact history.insert id pixels

/-! ### Images that could not be decoded -/

theorem boundedPlaceholder_iff {width height : Nat} {placeholder : List UInt8} :
    boundedPlaceholder width height = some placeholder ↔
      (∃ bytes, Glz.validateDims width height 4 = .ok bytes) ∧
        placeholder = List.replicate (4 * (width * height)) 0 := by
  have commuted : width * height * 4 = 4 * (width * height) := Nat.mul_comm _ _
  unfold boundedPlaceholder Glz.validateDims checkDims
  change (if width = 0 ∨ height = 0 ∨ width > Glz.MAX_IMAGE_DIM ∨ height > Glz.MAX_IMAGE_DIM then none
    else if 2 ^ 64 ≤ width * height ∨ 2 ^ 64 ≤ width * height * 4 then none
    else if width * height * 4 > Glz.MAX_IMAGE_BYTES then none
    else some (List.replicate (width * height * 4) 0)) = some placeholder ↔ _
  split
  · simp
  · split
    · simp
    · split
      · simp
      · simp [commuted, eq_comm]

/-- The pixels under which an image is stored: the decoded ones, or zeros. -/
def recovered (header : GlzHeader) (result : Except Glz.GlzFault (List UInt8)) : List UInt8 :=
  match result with
  | .ok pixels => pixels
  | .error _ => List.replicate (4 * (header.width * header.height)) 0

theorem cross_served {later : GlzWindow} {selfId id seq count : Nat} {pixels : List UInt8}
    {reference : Glz.Reference} {cursor : Lz.Cursor}
    (stored : later.get id = some { pixels := pixels, bpp := 4, seq := seq })
    (refers : Glz.targetId selfId reference.imageDist = id)
    (small : pixels.length < 2 ^ 32)
    (inside : 4 * (reference.pixelOfs + reference.len) ≤ pixels.length)
    (room : cursor.out.length = 4 * count) (target : cursor.op + reference.len ≤ count) :
    ∃ out, Glz.cross (some later) selfId reference cursor =
      .ok { ip := reference.ip, op := cursor.op + reference.len, out := out } := by
  have start : Glz.mulUsize reference.pixelOfs 4 = .ok (reference.pixelOfs * 4) :=
    if_pos (by omega)
  have bytes : Glz.mulUsize reference.len 4 = .ok (reference.len * 4) := if_pos (by omega)
  have stop : Glz.addUsize (reference.pixelOfs * 4) (reference.len * 4) =
      .ok (reference.pixelOfs * 4 + reference.len * 4) := if_pos (by omega)
  have fits : ∃ out, Glz.crossRun pixels 4 reference.len (reference.pixelOfs * 4) cursor.op
      cursor.out = .ok out ∧ Glz.Room count out := by
    cases len : reference.len with
    | zero => exact ⟨cursor.out, rfl, by rw [Glz.Room, room]; omega⟩
    | succ more =>
        apply Glz.crossRun_fits
        · rw [Glz.Room, room]
          omega
        · omega
        · omega
  rcases fits with ⟨out, ran, _room⟩
  refine ⟨out, ?_⟩
  rw [Glz.cross, refers, stored]
  dsimp only
  rw [Program.bind_ok start, Program.bind_ok bytes, Program.bind_ok stop, if_neg (by omega),
    Program.bind_ok ran]

section Glz

variable {copy : DrawCopy} {desc : ImageDescriptor} {rest stream : List UInt8} {header : GlzHeader}
  {bytes : Nat}

theorem recovered_length {result : Except Glz.GlzFault (List UInt8)}
    (ends : Program.Ends result fun pixels =>
      pixels.length = 4 * (header.width * header.height)) :
    (recovered header result).length = 4 * (header.width * header.height) := by
  rcases ends with ⟨reason, rfl⟩ | ⟨pixels, rfl, size⟩
  · exact List.length_replicate
  · exact size

theorem decodeGlz_stores (carried : inlineData msg copy = some stream)
    (parsed : GlzHeader.decode stream = .ok header) (rgb32 : header.imageType = .rgb32)
    (dims : Glz.validateDims header.width header.height 4 = .ok bytes)
    (ends : Program.Ends (Glz.decompressRgb32 stream header state.glzWindow) fun pixels =>
      pixels.length = 4 * (header.width * header.height)) :
    ∃ event, decodeGlz state msg copy =
      .ok (state.store header.id
        (recovered header (Glz.decompressRgb32 stream header state.glzWindow)), event) := by
  rcases ends with ⟨reason, failed⟩ | ⟨pixels, decoded, _size⟩
  · have whole : ¬ stream.length < Glz.GLZ_HEADER_SIZE :=
      Nat.not_lt.mpr (GlzHeader.decode_length parsed)
    have bounded := boundedPlaceholder_iff.mpr ⟨⟨bytes, dims⟩, rfl⟩
    rw [decodeGlz, carried]
    dsimp only
    rw [if_neg whole, parsed]
    dsimp only
    rw [if_neg (not_not_intro rgb32), Program.bind_ok (attempt_error.mpr failed)]
    dsimp only
    rw [bounded, failed]
    exact ⟨_, rfl⟩
  · rcases checkDims_ok dims with ⟨_bytes, _width, _height, maxWidth, _maxHeight, _cap⟩
    have narrow : header.width * 4 < 2 ^ 32 := by
      unfold Glz.MAX_IMAGE_DIM at maxWidth
      omega
    rw [decodeGlz_ok carried parsed rgb32 narrow decoded, decoded]
    exact ⟨_, rfl⟩

/-- A GLZ image of an accepted size is in the dictionary behind its message, with its pixels
or with zeros. Other images only go in the order of their age, and as long as this one is
there a reference to its pixels is served. -/
theorem glz_image_kept {ops : List WindowOp} {subs : List (Nat × Nat)}
    (runs : Runs GlzWindow.default ops subs state.glzWindow) (few : inserts ops + 1 < 2 ^ 64)
    (typed : ∀ id pixels bpp, .insert id pixels bpp ∈ ops → bpp < 2 ^ 32)
    (points : Points msg copy desc rest) (kind : desc.imageType = ImageType.GLZ_RGB)
    (carried : inlineData msg copy = some stream) (parsed : GlzHeader.decode stream = .ok header)
    (rgb32 : header.imageType = .rgb32)
    (dims : Glz.validateDims header.width header.height 4 = .ok bytes)
    (calm : ¬ Aborts (Glz.decompressRgb32 stream header state.glzWindow)) :
    ∃ next event pixels seq,
      decodeDrawCopy state msg = .ok (next, event) ∧
      pixels = recovered header (Glz.decompressRgb32 stream header state.glzWindow) ∧
      pixels.length = 4 * (header.width * header.height) ∧
      next = { state with glzWindow := next.glzWindow } ∧
      next.glzWindow.get header.id = some { pixels := pixels, bpp := 4, seq := seq } ∧
      (∃ subs, Evicts (state.glzWindow.store header.id pixels 4) subs next.glzWindow) ∧
      ∀ later selfId reference count, ∀ cursor : Lz.Cursor,
        later.get header.id = some { pixels := pixels, bpp := 4, seq := seq } →
          Glz.targetId selfId reference.imageDist = header.id →
            reference.pixelOfs + reference.len ≤ header.width * header.height →
              cursor.out.length = 4 * count → cursor.op + reference.len ≤ count →
                ∃ out, Glz.cross (some later) selfId reference cursor =
                  .ok { ip := reference.ip, op := cursor.op + reference.len, out := out } := by
  have sized : ∀ imageDist entry,
      Glz.referred (some state.glzWindow) header.id imageDist = some entry →
        entry.bpp < 2 ^ 32 := by
    intro imageDist entry found
    rcases runs.inserted found with before | member
    · cases before
    · exact typed _ _ _ member
  have ends : Program.Ends (Glz.decompressRgb32 stream header state.glzWindow) fun pixels =>
      pixels.length = 4 * (header.width * header.height) :=
    (Glz.inner_within (GlzHeader.decode_length parsed) sized).ends calm
  rcases @decodeGlz_stores state msg copy stream header bytes carried parsed rgb32 dims ends with
    ⟨event, stored⟩
  have size := recovered_length ends
  generalize kept : recovered header (Glz.decompressRgb32 stream header state.glzWindow) = pixels
    at stored size
  rcases Glz.GlzWindow.insert_evicts state.glzWindow header.id pixels 4 with ⟨evicted, evicts⟩
  rcases (runs.inserts_next few evicts).present with ⟨seq, present⟩
  rcases checkDims_ok dims with ⟨_bytes, _width, _height, _maxWidth, _maxHeight, cap⟩
  have small : pixels.length < 2 ^ 32 := by
    unfold Glz.MAX_IMAGE_BYTES at cap
    omega
  refine ⟨state.store header.id pixels, event, pixels, seq, ?_, rfl, size, rfl, present,
    ⟨evicted, evicts⟩, ?_⟩
  · rw [decodeDrawCopy_glz points kind]
    exact stored
  · intro later selfId reference count cursor found refers inside room target
    exact cross_served found refers small (by omega) room target

def tinyHeader (id : Nat) : GlzHeader where
  imageType := .rgb32
  topDown := true
  width := 1
  height := 1
  stride := 4
  id := id
  winHeadDist := 0

def brokenStream : List UInt8 := (tinyHeader 7).encode ++ [0, 1]

def brokenGlz : Message :=
  .mini DisplayMsg.DRAW_COPY
    ((plainCopy ⟨0, 0, 1, 1⟩).encode ++
      ImageDescriptor.encode
        { id := 7, imageType := ImageType.GLZ_RGB, flags := 0, width := 1, height := 1 } ++
      writeU32 brokenStream.length ++ brokenStream)

/-- An image that leaves four bytes of the budget, and behind it one of a single pixel. -/
def heavyPixels : List UInt8 := List.replicate 268435452 8

def crowdedOps : List WindowOp := [.insert 5 heavyPixels 4, .insert 6 [9, 9, 9, 9] 4]

def crowded : DisplayState :=
  { DisplayState.default with glzWindow := crowdedOps.foldl GlzWindow.apply GlzWindow.default }

theorem crowdedOps_remembered {ops : List WindowOp}
    (more : ops = crowdedOps ++ [.insert 7 [0, 0, 0, 0] 4]) :
    (ops.foldl (Glz.GlzWindow.remember (max (256 * 1024 * 1024) 1024)) (0, [])).2 =
      [(6, { pixels := [9, 9, 9, 9], bpp := 4, seq := 1 }),
        (7, { pixels := [0, 0, 0, 0], bpp := 4, seq := 2 })] := by
  have size : heavyPixels.length = 268435452 := List.length_replicate
  subst more
  unfold crowdedOps
  generalize heavyPixels = heavy at size
  simp [Glz.GlzWindow.remember, Glz.GlzWindow.note, Recency.push, Recency.without, Recency.trim,
    Glz.itemSize, size]

/-- The heavy image goes, the small one stays, and the pixel that could not be decoded is there
for the next image. -/
theorem glz_image_kept_broken :
    ∃ next event seq out,
      decodeDrawCopy crowded brokenGlz = .ok (next, event) ∧
        next = { crowded with glzWindow := next.glzWindow } ∧
        next.glzWindow.get 7 = some { pixels := [0, 0, 0, 0], bpp := 4, seq := seq } ∧
        next.glzWindow.get 5 = none ∧
        next.glzWindow.get 6 = some { pixels := [9, 9, 9, 9], bpp := 4, seq := 1 } ∧
        Glz.cross (some next.glzWindow) 8 { len := 1, pixelOfs := 0, imageDist := 1, ip := 3 }
            { ip := 3, op := 0, out := [1, 2, 3, 4] } =
          .ok { ip := 3, op := 1, out := out } := by
  have failed : Glz.decompressRgb32 brokenStream (tinyHeader 7) crowded.glzWindow =
      .error (.error (.short 1 0)) := rfl
  have points : Points brokenGlz (plainCopy ⟨0, 0, 1, 1⟩)
      { id := 7, imageType := ImageType.GLZ_RGB, flags := 0, width := 1, height := 1 }
      (writeU32 brokenStream.length ++ brokenStream) := by
    decide +kernel
  have calm : ¬ Aborts (Glz.decompressRgb32 brokenStream (tinyHeader 7) crowded.glzWindow) := by
    rw [failed]
    rintro ⟨kind, impossible⟩
    cases impossible
  have history : ∃ subs, Runs GlzWindow.default crowdedOps subs crowded.glzWindow := by
    dsimp only [crowded]
    exact Glz.GlzWindow.runs_exec GlzWindow.default crowdedOps
  rcases history with ⟨subs, runs⟩
  have typed : ∀ id pixels bpp, .insert id pixels bpp ∈ crowdedOps → bpp < 2 ^ 32 := by
    intro id pixels bpp member
    simp [crowdedOps] at member
    omega
  rcases @glz_image_kept crowded brokenGlz _ _ _ brokenStream (tinyHeader 7) 4 crowdedOps subs
      runs (by decide) typed points rfl rfl rfl rfl rfl calm with
    ⟨next, event, pixels, seq, ran, kept, _size, rest, present, ⟨evicted, evicts⟩, served⟩
  rw [failed] at kept
  change pixels = [0, 0, 0, 0] at kept
  subst kept
  rcases runs.insert_last evicts with ⟨subs', whole⟩
  change Runs GlzWindow.default (crowdedOps ++ [.insert 7 [0, 0, 0, 0] 4]) subs' _ at whole
  have held := (whole.tracks (by decide)).1.mem
  rw [crowdedOps_remembered rfl] at held
  rcases served next.glzWindow 8 { len := 1, pixelOfs := 0, imageDist := 1, ip := 3 } 1
    { ip := 3, op := 0, out := [1, 2, 3, 4] } present (by decide) (by decide) rfl (by decide) with
    ⟨out, copied⟩
  refine ⟨next, event, seq, out, ran, rest, present, ?_, ?_, copied⟩
  · cases found : next.glzWindow.get 5 with
    | none => rfl
    | some entry => simpa using (held 5 entry).mp found
  · apply (held 6 _).mpr
    simp

end Glz

end Capsaicin.Client
