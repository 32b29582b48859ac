/-
The layout of the images in the dictionary of a session, over any run of the task. A
reference into an image counts pixels of four bytes from the top.
-/

import Capsaicin.Client.Dictionary

namespace Capsaicin.Client

open Glz (GlzHeader WindowEntry)
open Net (Message)
open Proto
open Reactive (final)

/-! ### Images and buffers -/

/-- The bytes of a pixel, its row counted from the top. -/
def Source.pixel (source : Source) (r c : Nat) : List UInt8 :=
  let row := if source.topDown then r else source.height - 1 - r
  (source.bytes.drop (row * source.stride + c * source.bpp)).take source.bpp

/-- Four bytes that show a pixel. One of three bytes has no alpha, and one of two bytes has
five bits for each colour. -/
def Shows : List UInt8 → List UInt8 → Prop
  | [b, g, r, a], out => out = [b, g, r, a]
  | [b, g, r], out => ∃ a, out = [b, g, r, a]
  | [low, high], out => ∃ b g r a : UInt8, out = [b, g, r, a] ∧
      low.toNat + 256 * high.toNat =
        b.toNat / 8 + 32 * (g.toNat / 8) + 1024 * (r.toNat / 8) + 32768 * (high.toNat / 128)
  | _, _ => False

/-- A buffer of the pixels of an image from the top, four bytes each, with nothing between
the rows. -/
structure Laid (source : Source) (entry : WindowEntry) : Prop where
  bpp : entry.bpp = 4
  size : entry.pixels.length = 4 * (source.width * source.height)
  pixels : ∀ r c, r < source.height → c < source.width →
    Shows (source.pixel r c) ((entry.pixels.drop (4 * (r * source.width + c))).take 4)

/-- Bitmaps of four bytes a pixel without row padding, and GLZ images from the top or of a
single row. A bitmap without rows, or without bytes, has no pixels at all. -/
def Packed (msg : Message) : Prop :=
  ∀ copy desc rest, Points msg copy desc rest →
    (desc.imageType = ImageType.BITMAP → ∀ header left, Bitmap.reader rest = .ok (header, left) →
      header.height = 0 ∨ header.stride = 4 * header.width ∧
        (bitmapBytesPerPixel header.format = some 4 ∨ header.width = 0)) ∧
    (desc.imageType = ImageType.GLZ_RGB → ∀ stream header, inlineData msg copy = some stream →
      GlzHeader.decode stream = .ok header → header.topDown = true ∨ header.height ≤ 1)

theorem shows_self {pixel : List UInt8} (four : pixel.length = 4) : Shows pixel pixel := by
  match pixel, four with
  | [b, g, r, a], _ => rfl

theorem upright_pixel {source : Source} {bytes : List UInt8} {r c : Nat} (four : source.bpp = 4)
    (wide : source.width * 4 ≤ source.stride) (size : bytes.length = source.height * source.stride)
    (prefix' : bytes <+: source.bytes) (row : r < source.height) (column : c < source.width) :
    ((Raster.upright source.topDown source.stride source.height bytes).drop
        (r * source.stride + c * 4)).take 4 = source.pixel r c ∧
      (source.pixel r c).length = 4 := by
  have inRow : c * 4 + 4 ≤ source.stride := by omega
  have flipped := @Raster.row_upright _ source.topDown source.stride source.height r bytes
    (Nat.le_of_eq size.symm) row
  generalize chosen : (if source.topDown then r else source.height - 1 - r) = place at flipped
  have below : place + 1 ≤ source.height := by
    rw [← chosen]
    split
    · exact row
    · omega
  have rows := Nat.mul_le_mul_right source.stride below
  rw [Nat.succ_mul, ← size] at rows
  rcases prefix' with ⟨rest, whole⟩
  have pixel : source.pixel r c = (bytes.drop (place * source.stride + c * 4)).take 4 := by
    unfold Source.pixel
    dsimp only
    rw [chosen, four, ← whole, List.drop_append_of_le_length (by omega),
      List.take_append_of_le_length]
    rw [List.length_drop]
    omega
  constructor
  · rw [Raster.cell_eq _ inRow, flipped, ← Raster.cell_eq _ inRow, pixel]
  · rw [pixel, List.length_take, List.length_drop]
    omega

theorem laid_upright {source : Source} {entry : WindowEntry} {bytes : List UInt8}
    (bpp : entry.bpp = 4) (four : source.bpp = 4) (stride : source.stride = source.width * 4)
    (size : bytes.length = source.height * source.stride) (prefix' : bytes <+: source.bytes)
    (stored : entry.pixels = Raster.upright source.topDown source.stride source.height bytes) :
    Laid source entry where
  bpp := bpp
  size := by
    rw [stored, Raster.length_upright size, stride]
    ring
  pixels := by
    intro r c row column
    have position : 4 * (r * source.width + c) = r * source.stride + c * 4 := by
      rw [stride]
      ring
    rcases upright_pixel four (Nat.le_of_eq stride.symm) size prefix' row column with
      ⟨cell, length⟩
    rw [position, stored, cell]
    exact shows_self length

theorem laid_empty {source : Source} {entry : WindowEntry} (bpp : entry.bpp = 4)
    (none : source.width * source.height = 0) (stored : entry.pixels = []) : Laid source entry where
  bpp := bpp
  size := by
    rw [stored, none]
    rfl
  pixels := by
    intro r c row column
    have some : 0 < source.width * source.height := Nat.mul_pos (by omega) (by omega)
    omega

theorem laid_of_holds {state : DisplayState} {msg : Message} {copy : DrawCopy}
    {desc : ImageDescriptor} {rest : List UInt8} {picture : Picture} {entry : WindowEntry}
    (points : Points msg copy desc rest) (holds : Holds state msg copy desc rest picture)
    (packed : Packed msg) (bpp : entry.bpp = 4) (stored : entry.pixels = picture.stored) :
    Laid picture.source entry := by
  rcases packed copy desc rest points with ⟨bitmaps, streams⟩
  cases holds with
  | lz kind carried parsed ran size =>
      exact laid_upright bpp rfl rfl size List.prefix_rfl stored
  | quic kind carried parsed ran size =>
      exact laid_upright bpp rfl rfl size List.prefix_rfl stored
  | @glz stream decoded header kind carried parsed ran size =>
      have upright : Raster.upright header.topDown (header.width * 4) header.height decoded =
          decoded := by
        rcases streams kind stream header carried parsed with top | single
        · rw [top]
          rfl
        · exact Raster.upright_single single size
      apply laid_upright bpp rfl rfl size List.prefix_rfl
      exact stored.trans upright.symm
  | @bitmap raw left header kind parsed format carried enough =>
      have size := List.length_take_of_le enough
      have bytes := @Raster.length_upright _ header.isTopDown _ _ _ size
      have bare (none : header.height * header.stride = 0) : entry.pixels = [] := by
        rw [stored]
        exact List.length_eq_zero_iff.mp (bytes.trans none)
      rcases bitmaps kind header left parsed with flat | ⟨stride, four | thin⟩
      · apply laid_empty bpp
        · dsimp only
          rw [flat, Nat.mul_zero]
        · apply bare
          rw [flat, Nat.zero_mul]
      · apply laid_upright bpp _ _ size (List.take_prefix _ raw) stored
        · dsimp only
          rw [four]
          rfl
        · exact stride.trans (Nat.mul_comm 4 header.width)
      · apply laid_empty bpp
        · dsimp only
          rw [thin, Nat.zero_mul]
        · apply bare
          rw [stride, thin, Nat.mul_zero]

/-! ### Sessions -/

/-- An image, and the message that brought it. -/
structure Record where
  msg : Message
  source : Source

/-- The image that was stored last under each id; `none` for an id that has not been used,
and for one that is held by a placeholder. -/
abbrev Ledger := Nat → Option Record

inductive Notes (state : DisplayState) (msg : Message) (ledger : Ledger) : Ledger → Prop
  | other (type : msg.msgType ≠ DisplayMsg.DRAW_COPY) : Notes state msg ledger ledger
  | ignored {event : DisplayEvent} (type : msg.msgType = DisplayMsg.DRAW_COPY)
      (decoded : decodeDrawCopy state msg = .ok (state, event)) : Notes state msg ledger ledger
  | missed {id : Nat} {placeholder : List UInt8} (type : msg.msgType = DisplayMsg.DRAW_COPY)
      (decoded : decodeDrawCopy state msg =
        .ok (state.store id placeholder, unhandled DisplayMsg.DRAW_COPY msg.body.length)) :
      Notes state msg ledger (Function.update ledger id none)
  | drawn {copy : DrawCopy} {desc : ImageDescriptor} {rest : List UInt8} {picture : Picture}
      (type : msg.msgType = DisplayMsg.DRAW_COPY) (points : Points msg copy desc rest)
      (holds : Holds state msg copy desc rest picture)
      (decoded : decodeDrawCopy state msg =
        .ok (state.store picture.id picture.stored,
          state.region copy picture.shown picture.source.stride)) :
      Notes state msg ledger
        (Function.update ledger picture.id (some { msg := msg, source := picture.source }))

/-- A run of the task over messages, with its ledger. -/
inductive Session (jpeg : JpegDecoder) : List Message → DisplayState → Ledger → Prop
  | start : Session jpeg [] DisplayState.default fun _ => none
  | message {msgs : List Message} {msg : Message} {state next : DisplayState}
      {effects : List Effect} {ledger ledger' : Ledger} (session : Session jpeg msgs state ledger)
      (handled : handle jpeg state msg = .ok (next, effects))
      (noted : Notes state msg ledger ledger') : Session jpeg (msgs ++ [msg]) next ledger'

section Sessions

variable {jpeg : JpegDecoder} {state next : DisplayState} {msg : Message} {msgs : List Message}
  {effects : List Effect} {ledger ledger' : Ledger}

theorem notes_exist (ledger : Ledger) (handled : handle jpeg state msg = .ok (next, effects)) :
    ∃ ledger', Notes state msg ledger ledger' := by
  by_cases type : msg.msgType = DisplayMsg.DRAW_COPY
  · rcases handle_draws type handled with ⟨drawn, event, decoded, _same⟩
    cases decodeDrawCopy_outcome decoded with
    | ignored => exact ⟨_, .ignored type decoded⟩
    | missed points kind carried parsed failed bounded => exact ⟨_, .missed type decoded⟩
    | drawn points holds => exact ⟨_, .drawn type points holds decoded⟩
  · exact ⟨_, .other type⟩

/-- Every run of the task is a session. -/
theorem session_exists
    (ran : final (displayLoop jpeg) DisplayState.default msgs = some state) :
    ∃ ledger, Session jpeg msgs state ledger := by
  rw [← List.nil_append msgs]
  refine @Reactive.final_history _ _ _ _
    (fun before state => ∃ ledger, Session jpeg before state ledger) ?_ [] msgs _ _
    ⟨_, .start⟩ ran
  intro before state msg next session stepped
  rcases session with ⟨ledger, session⟩
  rcases displayLoop_next stepped with ⟨effects, handled⟩
  rcases notes_exist ledger handled with ⟨ledger', noted⟩
  exact ⟨ledger', session.message handled noted⟩

/-- Every image of the ledger that is still in the dictionary is laid out there, if its
message is as described. -/
def Kept (state : DisplayState) (ledger : Ledger) : Prop :=
  ∀ id record entry, ledger id = some record → state.glzWindow.get id = some entry →
    entry.bpp = 4 ∧ (Packed record.msg → Laid record.source entry)

theorem Kept.store {id : Nat} {pixels : List UInt8} {found : Option Record} (kept : Kept state ledger)
    (new : ∀ record entry, found = some record → entry.bpp = 4 → entry.pixels = pixels →
      Packed record.msg → Laid record.source entry) :
    Kept (state.store id pixels) (Function.update ledger id found) := by
  intro other record entry known present
  rcases Glz.GlzWindow.get_insert present with ⟨rfl, bytes, bpp⟩ | ⟨different, before⟩
  · rw [Function.update_self] at known
    exact ⟨bpp, new record entry known bpp bytes⟩
  · rw [Function.update_of_ne different] at known
    exact kept other record entry known before

theorem Kept.step (kept : Kept state ledger) (handled : handle jpeg state msg = .ok (next, effects))
    (noted : Notes state msg ledger ledger') : Kept next ledger' := by
  have moved (drawn : DisplayState) (event : DisplayEvent)
      (type : msg.msgType = DisplayMsg.DRAW_COPY)
      (decoded : decodeDrawCopy state msg = .ok (drawn, event)) (holds : Kept drawn ledger') :
      Kept next ledger' := by
    rcases handle_draws type handled with ⟨drawn', event', decoded', same⟩
    rw [decoded] at decoded'
    cases decoded'
    unfold Kept
    rw [same]
    exact holds
  cases noted with
  | other type =>
      rcases handle_touches handled with same | ⟨drawn, event, draws, _decoded, _same⟩
      · unfold Kept
        rw [same]
        exact kept
      · exact absurd draws type
  | ignored type decoded => exact moved state _ type decoded kept
  | missed type decoded =>
      apply moved _ _ type decoded
      apply kept.store
      intro record entry impossible
      cases impossible
  | drawn type points holds decoded =>
      apply moved _ _ type decoded
      apply kept.store
      intro record entry known bpp bytes packed
      cases known
      exact laid_of_holds points holds packed bpp bytes

theorem session_kept (session : Session jpeg msgs state ledger) : Kept state ledger := by
  induction session with
  | start =>
      intro id record entry impossible
      cases impossible
  | message _session handled noted ih => exact ih.step handled noted

/-- After any messages, an image that is still there under its id is laid out as references
into it assume. -/
theorem dictionary_laid_out {id : Nat} {record : Record} {entry : WindowEntry}
    (session : Session jpeg msgs state ledger) (known : ledger id = some record)
    (present : state.glzWindow.get id = some entry) (packed : Packed record.msg) :
    Laid record.source entry :=
  (session_kept session id record entry known present).2 packed

theorem session_draws {copy : DrawCopy} {desc : ImageDescriptor} {rest : List UInt8}
    {picture : Picture} (type : msg.msgType = DisplayMsg.DRAW_COPY)
    (points : Points msg copy desc rest)
    (holds : Holds DisplayState.default msg copy desc rest picture)
    (decoded : decodeDrawCopy DisplayState.default msg =
      .ok (DisplayState.default.store picture.id picture.stored,
        DisplayState.default.region copy picture.shown picture.source.stride)) :
    ∃ state ledger seq, Session jpeg [msg] state ledger ∧
      ledger picture.id = some { msg := msg, source := picture.source } ∧
      state.glzWindow.get picture.id =
        some { pixels := picture.stored, bpp := 4, seq := seq } := by
  rcases @handle_drawn jpeg _ _ _ _ type decoded with ⟨state, effects, handled, same⟩
  have session : Session jpeg [msg] state _ :=
    .message .start handled (.drawn type points holds decoded)
  rcases Glz.GlzWindow.insert_evicts Glz.GlzWindow.default picture.id picture.stored 4 with
    ⟨evicted, evicts⟩
  have runs : Glz.GlzWindow.Runs Glz.GlzWindow.default [] [] Glz.GlzWindow.default := .nil _
  rcases (runs.inserts_next (by decide) evicts).present with ⟨seq, present⟩
  refine ⟨state, _, seq, session, Function.update_self .., ?_⟩
  rw [same]
  exact present

end Sessions

/-! ### Images of few pixels -/

theorem Points.unique {msg : Message} {copy copy' : DrawCopy} {desc desc' : ImageDescriptor}
    {rest rest' : List UInt8} (points : Points msg copy desc rest)
    (points' : Points msg copy' desc' rest') : copy = copy' ∧ desc = desc' ∧ rest = rest' := by
  have copied := points.copied.symm.trans points'.copied
  cases copied
  have described := points.described.symm.trans points'.described
  cases described
  exact ⟨rfl, rfl, rfl⟩

def noVideo : JpegDecoder := fun _ => .error "no video"

def imageDescriptor (imageType width height : Nat) : ImageDescriptor where
  id := 1
  imageType := imageType
  flags := 0
  width := width
  height := height

def pixelHeader (format stride : Nat) : Bitmap where
  format := format
  flags := BitmapFlags.TOP_DOWN
  width := 1
  height := 1
  stride := stride
  paletteOffset := 0
  dataOffset := 97

/-- Two rows of two pixels, the lower one first, in chunks that end inside a pixel. -/
def turnedBitmapHeader : Bitmap where
  format := 8
  flags := 0
  width := 2
  height := 2
  stride := 8
  paletteOffset := 0
  dataOffset := 97

def turnedBitmap : Message :=
  .mini DisplayMsg.DRAW_COPY
    ((plainCopy ⟨0, 0, 2, 2⟩).encode ++ (imageDescriptor ImageType.BITMAP 2 2).encode ++
      turnedBitmapHeader.encode ++
        encodeChunks [[9, 10, 11, 12, 13, 14], [15, 16, 1, 2, 3, 4, 5, 6, 7, 8]])

theorem turnedBitmap_points :
    Points turnedBitmap (plainCopy ⟨0, 0, 2, 2⟩) (imageDescriptor ImageType.BITMAP 2 2)
      (turnedBitmap.body.drop 75) := by
  decide +kernel

theorem turnedBitmap_packed : Packed turnedBitmap := by
  intro copy desc rest points
  rcases points.unique turnedBitmap_points with ⟨rfl, rfl, rfl⟩
  constructor
  · intro _kind header left parsed
    have known : (Bitmap.reader (turnedBitmap.body.drop 75)).map Prod.fst =
        .ok turnedBitmapHeader := by decide +kernel
    rw [parsed] at known
    cases known
    exact Or.inr ⟨rfl, Or.inl rfl⟩
  · intro impossible
    cases impossible

theorem dictionary_laid_out_turned :
    ∃ state ledger seq, Session noVideo [turnedBitmap] state ledger ∧
      state.glzWindow.get 1 =
        some
          { pixels := [1, 2, 3, 4, 5, 6, 7, 8, 9, 10, 11, 12, 13, 14, 15, 16], bpp := 4
            seq := seq } ∧
      Laid
        { width := 2, height := 2, bpp := 4, stride := 8, topDown := false
          bytes := [9, 10, 11, 12, 13, 14, 15, 16, 1, 2, 3, 4, 5, 6, 7, 8] }
        { pixels := [1, 2, 3, 4, 5, 6, 7, 8, 9, 10, 11, 12, 13, 14, 15, 16], bpp := 4
          seq := seq } := by
  have holds : Holds DisplayState.default turnedBitmap (plainCopy ⟨0, 0, 2, 2⟩)
      (imageDescriptor ImageType.BITMAP 2 2) (turnedBitmap.body.drop 75) _ :=
    @Holds.bitmap _ _ _ _ _ [9, 10, 11, 12, 13, 14, 15, 16, 1, 2, 3, 4, 5, 6, 7, 8] _
      turnedBitmapHeader rfl rfl (by decide) rfl (by decide)
  rcases @session_draws noVideo turnedBitmap _ _ _ _ rfl turnedBitmap_points holds rfl with
    ⟨state, ledger, seq, session, known, present⟩
  exact ⟨state, ledger, seq, session, present,
    dictionary_laid_out session known present turnedBitmap_packed⟩

def narrowBitmap : Message :=
  .mini DisplayMsg.DRAW_COPY
    ((plainCopy ⟨0, 0, 1, 1⟩).encode ++ (imageDescriptor ImageType.BITMAP 1 1).encode ++
      (pixelHeader 7 3).encode ++ encodeChunks [[1, 2, 3]])

def turnedHeader : GlzHeader where
  imageType := .rgb32
  topDown := false
  width := 1
  height := 2
  stride := 4
  id := 1
  winHeadDist := 0

def turnedStream : List UInt8 := turnedHeader.encode ++ [1, 1, 2, 3, 4, 5, 6]

def turnedGlz : Message :=
  .mini DisplayMsg.DRAW_COPY
    ((plainCopy ⟨0, 0, 2, 1⟩).encode ++ (imageDescriptor ImageType.GLZ_RGB 1 2).encode ++
      writeU32 turnedStream.length ++ turnedStream)

/-- The pixel of three bytes is stored as it is, and the two pixels are stored in the order in
which they came. -/
theorem dictionary_not_laid_out :
    (∃ state ledger record entry, Session noVideo [narrowBitmap] state ledger ∧
      ledger 1 = some record ∧ state.glzWindow.get 1 = some entry ∧
        ¬ Laid record.source entry) ∧
      ∃ state ledger record entry, Session noVideo [turnedGlz] state ledger ∧
        ledger 1 = some record ∧ state.glzWindow.get 1 = some entry ∧
          ¬ Laid record.source entry := by
  constructor
  · have points : Points narrowBitmap (plainCopy ⟨0, 0, 1, 1⟩)
        (imageDescriptor ImageType.BITMAP 1 1) (narrowBitmap.body.drop 75) := by
      decide +kernel
    have holds : Holds DisplayState.default narrowBitmap (plainCopy ⟨0, 0, 1, 1⟩)
        (imageDescriptor ImageType.BITMAP 1 1) (narrowBitmap.body.drop 75) _ :=
      @Holds.bitmap _ _ _ _ _ [1, 2, 3] _ (pixelHeader 7 3) rfl rfl (by decide) rfl (by decide)
    rcases @session_draws noVideo narrowBitmap _ _ _ _ rfl points holds rfl with
      ⟨state, ledger, seq, session, known, present⟩
    refine ⟨state, ledger, _, _, session, known, present, ?_⟩
    intro laid
    have size := laid.size
    cases size
  · have points : Points turnedGlz (plainCopy ⟨0, 0, 2, 1⟩)
        (imageDescriptor ImageType.GLZ_RGB 1 2) (turnedGlz.body.drop 75) := by
      decide +kernel
    have carried : inlineData turnedGlz (plainCopy ⟨0, 0, 2, 1⟩) = some turnedStream := by
      decide +kernel
    have parsed : GlzHeader.decode turnedStream = .ok turnedHeader := rfl
    have decoded : Glz.decompressRgb32 turnedStream turnedHeader Glz.GlzWindow.default =
        .ok [1, 2, 3, 0, 4, 5, 6, 0] := by decide +kernel
    have holds : Holds DisplayState.default turnedGlz (plainCopy ⟨0, 0, 2, 1⟩)
        (imageDescriptor ImageType.GLZ_RGB 1 2) (turnedGlz.body.drop 75) _ :=
      .glz rfl carried parsed decoded rfl
    have drawn : decodeGlz DisplayState.default turnedGlz (plainCopy ⟨0, 0, 2, 1⟩) = _ :=
      decodeGlz_ok carried parsed rfl (by decide) decoded
    rw [← decodeDrawCopy_glz points rfl] at drawn
    rcases @session_draws noVideo turnedGlz _ _ _ _ rfl points holds drawn with
      ⟨state, ledger, seq, session, known, present⟩
    refine ⟨state, ledger, _, _, session, known, present, ?_⟩
    intro laid
    have upper : [1, 2, 3, 0] = ([4, 5, 6, 0] : List UInt8) :=
      laid.pixels 0 0 (by decide) (by decide)
    cases upper

end Capsaicin.Client
