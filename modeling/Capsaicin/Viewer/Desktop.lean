/-
From the commands of a guest to the window, which shows what the commands have drawn.
-/

import Capsaicin.Client.Commands
import Capsaicin.Client.PixelLayout
import Capsaicin.Viewer.Canvas

namespace Capsaicin.Viewer

open Canvas (Drawing)
open Client (Announces Asks Command DisplayEvent JpegDecoder Moderate Plain Unseen)
open Proto (Rect)

/-! ### The picture of the guest -/

def pixelColour (pixel : Bgra) : Nat :=
  bgraToSoftbuffer pixel.r.toNat pixel.g.toNat pixel.b.toNat

def pictureColour (bounds : Rect) (picture : List (List Bgra)) (position : Int × Int) : Nat :=
  let row := picture.getD (position.2 - bounds.top).toNat []
  match row[(position.1 - bounds.left).toNat]? with
  | some pixel => pixelColour pixel
  | none => 0

open Classical in
/-- What a guest means by a command. A visible surface of another size begins black. -/
noncomputable def Screen.obey (screen : Screen) : Command → Screen
  | .create width height =>
      if Acceptable width height ∧ ¬ (width = screen.width ∧ height = screen.height) then
        blank width height
      else screen
  | .fill bounds color =>
      let drawing := Drawing.plain (plane bounds) fun _ => bgra32ToSoftbuffer color
      { screen with picture := drawing.on screen.picture }
  | .copy bounds srcX srcY =>
      let drawing := copyDrawing screen.width screen.height srcX srcY bounds
      { screen with picture := drawing.on screen.picture }
  | .paste bounds picture =>
      let drawing := Drawing.plain (plane bounds) (pictureColour bounds picture)
      { screen with picture := drawing.on screen.picture }
  | .aside => screen

/-- Rectangles with their sides in order. What is copied has extents and a far corner that are
integers. -/
def Drawable : Command → Prop
  | .fill bounds _ => bounds.left ≤ bounds.right ∧ bounds.top ≤ bounds.bottom
  | .copy bounds srcX srcY =>
      bounds.left ≤ bounds.right ∧ bounds.top ≤ bounds.bottom ∧
        bounds.right - bounds.left < 2 ^ 31 ∧ bounds.bottom - bounds.top < 2 ^ 31 ∧
        IsI32 srcX ∧ IsI32 (srcX + (bounds.right - bounds.left)) ∧
        IsI32 srcY ∧ IsI32 (srcY + (bounds.bottom - bounds.top))
  | _ => True

/-! ### Colours of a picture -/

variable {bounds : Rect} {picture : List (List Bgra)} {width height : Nat}

theorem packed_colour {pixels : List Bgra} {k : Nat} {pixel : Bgra}
    (found : pixels[k]? = some pixel) : colourAt (packed pixels) (k * 4) = pixelColour pixel := by
  rw [← unpacked_packed pixels] at found
  rcases unpacked_colourAt found with ⟨blue, green, red⟩
  unfold colourAt pixelColour
  rw [List.getD_eq_getElem?_getD, List.getD_eq_getElem?_getD, List.getD_eq_getElem?_getD, blue,
    green, red]
  rfl

theorem picture_pixel (plain : Plain picture width height) {row column : Nat}
    (below : row < height) (inside : column < width) :
    ∃ pixel, (picture.getD row [])[column]? = some pixel ∧
      picture.flatten[row * width + column]? = some pixel := by
  have rows := Raster.rows_flatten plain.even
  have here := @Raster.getElem?_rows _ width height row picture.flatten below
  rw [plain.rows] at rows
  rw [rows] at here
  have long : (picture.getD row []).length = width := by
    apply plain.even
    rw [List.getD_eq_getElem?_getD, here]
    exact List.mem_of_getElem? here
  refine ⟨_, List.getElem?_eq_getElem (by omega), ?_⟩
  rw [← List.getElem?_eq_getElem (by omega : column < (picture.getD row []).length),
    List.getD_eq_getElem?_getD, here, Option.getD_some, List.getElem?_take_of_lt inside,
    List.getElem?_drop]

theorem picture_colour (plain : Plain picture width height)
    (wide : bounds.right - bounds.left = width) (high : bounds.bottom - bounds.top = height)
    {position : Int × Int} (inside : position ∈ plane bounds) :
    bytesColour bounds (packed picture.flatten) (4 * width) position =
      pictureColour bounds picture position := by
  rcases inside with ⟨left, right, top, bottom⟩
  rcases picture_pixel plain (by omega : (position.2 - bounds.top).toNat < height)
    (by omega : (position.1 - bounds.left).toNat < width) with ⟨pixel, shown, stored⟩
  have place : (position.2 - bounds.top).toNat * (4 * width) +
      (position.1 - bounds.left).toNat * 4 =
        ((position.2 - bounds.top).toNat * width + (position.1 - bounds.left).toNat) * 4 := by
    ring
  unfold bytesColour pictureColour
  dsimp only
  rw [shown, place, packed_colour stored]

/-! ### One command -/

namespace ViewerApp

variable {viewer : ViewerApp} {screen : Screen}

theorem fill_painted (sound : viewer.Sound) (wide : bounds.left ≤ bounds.right) (color : Nat) :
    ∃ next, viewer.fillRect bounds color = .ok next := by
  have safe : FillSafe (clampRect bounds viewer.fbW viewer.fbH) := by
    intro _rows
    rw [sound.clamp]
    dsimp only
    omega
  rcases (fillRect_iff sound bounds color).mpr safe with ⟨fb, ran, _size, _kept⟩
  exact ⟨_, ran⟩

theorem copy_painted (sound : viewer.Sound) {srcX srcY : Int}
    (drawable : Drawable (.copy bounds srcX srcY)) :
    ∃ next, viewer.copyRect srcX srcY bounds = .ok next := by
  have limits := And.intro sound.width sound.height
  have safe : CopySafe srcX srcY bounds (clampRect bounds viewer.fbW viewer.fbH) := by
    rw [sound.clamp]
    unfold Drawable IsI32 at drawable
    unfold CopySafe Clamped.Contains IsI32 sourceOf
    dsimp only
    omega
  rcases (copyRect_iff sound srcX srcY bounds).mpr safe with ⟨fb, ran, _size, _kept⟩
  exact ⟨_, ran⟩

theorem paste_painted (sound : viewer.Sound) (plain : Plain picture width height)
    (moderate : Moderate width height) (wide : bounds.right - bounds.left = width)
    (high : bounds.bottom - bounds.top = height) :
    ∃ next, viewer.blitRaw bounds (packed picture.flatten) (4 * width) = .ok next := by
  rcases moderate with ⟨⟨some, narrow⟩, ⟨any, low⟩, size⟩
  unfold Net.DEFAULT_MAX_MESSAGE_SIZE at size
  have bytes : (packed picture.flatten).length = height * (4 * width) := by
    rw [packed_length, Raster.length_flatten plain.even, plain.rows]
    ring
  have rows {row : Nat} (below : row < height) :
      (row + 1) * (4 * width) ≤ height * (4 * width) := Nat.mul_le_mul_right _ below
  have covers : Covers bounds (packed picture.flatten) (4 * width) := by
    intro column row inWidth inHeight
    have room := @rows row (by omega)
    rw [Nat.succ_mul] at room
    omega
  have safe : BlitSafe bounds (4 * width) (clampRect bounds viewer.fbW viewer.fbH) := by
    rw [sound.clamp]
    refine ⟨?_, ?_, ?_, ?_⟩
    · unfold IsI32
      omega
    · unfold IsI32
      omega
    · intro y _top bottom
      dsimp only at bottom
      have within : (y : Int) - bounds.top ≤ height := by omega
      have product := Int.mul_le_mul_of_nonneg_right within (Int.natCast_nonneg (4 * width))
      have area : (height : Int) * ((4 * width : Nat) : Int) = ((4 * (width * height) : Nat) : Int) := by
        push_cast
        ring
      rw [area] at product
      omega
    · rintro x y ⟨_left, right, _top, _bottom⟩
      dsimp only at right
      omega
  rcases (blitRaw_iff sound bounds _ _ (by omega) (by omega) covers).mpr safe with
    ⟨fb, ran, _size, _kept⟩
  exact ⟨_, ran⟩

/-- What the events for a command leave: the picture of the guest behind the command. -/
structure Obeyed (screen : Screen) (viewer : ViewerApp) (command : Command)
    (events : List DisplayEvent) (next : ViewerApp) : Prop where
  sound : next.Sound
  on : (screen.obey command).On next
  painted : ∃ redraw, viewer.drainPaint (events.filterMap displayEventToPaint) = .ok (next, redraw)

theorem Obeyed.single (sound : viewer.Sound) (on : screen.On viewer) {command : Command}
    {event : DisplayEvent} {msg : PaintMsg} {next : ViewerApp}
    (sent : displayEventToPaint event = some msg) (painted : viewer.paint msg = .ok next)
    (same : screen.receive msg = screen.obey command) :
    Obeyed screen viewer command [event] next where
  sound := paint_returns sound msg next painted
  on := same ▸ (on.painted sound msg next painted).on
  painted := by
    refine ⟨msg ≠ .closed || false, ?_⟩
    rw [List.filterMap_cons_some sent, drainPaint, Program.bind_ok painted]
    rfl

theorem unseen_paint {events : List DisplayEvent} (unseen : ∀ event ∈ events, Unseen event) :
    events.filterMap displayEventToPaint = [] := by
  apply List.filterMap_eq_nil_iff.mpr
  intro event member
  have hidden := unseen event member
  cases event with
  | surfaceCreated id width height format primary =>
      change primary = false at hidden
      simp [displayEventToPaint, hidden]
  | surfaceDestroyed _ | mark => rfl
  | _ => cases hidden

theorem announced_obeyed {command : Command} {events : List DisplayEvent} (sound : viewer.Sound)
    (on : screen.On viewer) (announced : Announces command events) (drawable : Drawable command) :
    ∃ next, Obeyed screen viewer command events next := by
  cases announced with
  | create id width height format =>
      exact ⟨_, .single sound on rfl rfl rfl⟩
  | fill id bounds color format =>
      rcases fill_painted sound drawable.1 (bgra32ToSoftbuffer color) with ⟨next, painted⟩
      exact ⟨next, .single sound on rfl painted rfl⟩
  | copy id bounds srcX srcY =>
      rcases copy_painted sound drawable with ⟨next, painted⟩
      exact ⟨next, .single sound on rfl painted rfl⟩
  | @paste picture bounds width height id format plain moderate wide high =>
      rcases paste_painted sound plain moderate wide high with ⟨next, painted⟩
      refine ⟨next, .single sound on rfl painted ?_⟩
      have same := @Canvas.plain_congr _ _ screen.picture (plane bounds) _ _
        fun position inside => picture_colour plain wide high inside
      exact congrArg (fun shown => { screen with picture := shown }) same
  | aside unseen =>
      refine ⟨viewer, sound, on, false, ?_⟩
      rw [unseen_paint unseen]
      rfl

theorem drainPaint_append {next last : ViewerApp} {redraw redraw' : Bool}
    {earlier later : List PaintMsg} (ran : viewer.drainPaint earlier = .ok (next, redraw))
    (went : next.drainPaint later = .ok (last, redraw')) :
    ∃ any, viewer.drainPaint (earlier ++ later) = .ok (last, any) := by
  induction earlier generalizing viewer redraw with
  | nil =>
      cases ran
      exact ⟨redraw', went⟩
  | cons msg rest ih =>
      rcases Program.bind_eq_ok.mp ran with ⟨first, painted, ran⟩
      rcases Program.bind_eq_ok.mp ran with ⟨⟨after, needs⟩, drained, same⟩
      cases same
      rcases ih drained with ⟨any, all⟩
      refine ⟨msg ≠ .closed || any, ?_⟩
      rw [List.cons_append, drainPaint, Program.bind_ok painted, Program.bind_ok all]

def painting (outputs : List (List Client.Effect)) : List PaintMsg :=
  (outputs.flatMap Client.eventsOf).filterMap displayEventToPaint

theorem announced_all {commands : List Command} {outputs : List (List Client.Effect)}
    (sound : viewer.Sound) (on : screen.On viewer)
    (announced : List.Forall₂ (fun command effects => Announces command (Client.eventsOf effects))
      commands outputs)
    (drawable : ∀ command ∈ commands, Drawable command) :
    ∃ last redraw, viewer.drainPaint (painting outputs) = .ok (last, redraw) ∧
      (commands.foldl Screen.obey screen).On last := by
  induction announced generalizing viewer screen with
  | nil => exact ⟨viewer, false, rfl, on⟩
  | @cons command effects commands outputs first rest ih =>
      rcases announced_obeyed sound on first (drawable command List.mem_cons_self) with
        ⟨next, sound', on', redraw, painted⟩
      rcases ih sound' on' fun other member => drawable other (List.mem_cons_of_mem command member)
        with ⟨last, redraw', drained, shown⟩
      rcases drainPaint_append painted drained with ⟨any, all⟩
      refine ⟨last, any, ?_, shown⟩
      unfold painting
      rw [List.flatMap_cons, List.filterMap_append]
      exact all

/-! ### A guest -/

/-- A surface of two columns, a picture in the first of them, and a copy of it in the second. -/
def guest : List Command :=
  [.create 2 2, .paste ⟨0, 0, 2, 1⟩ Client.twoRows, .copy ⟨0, 1, 2, 2⟩ 0 0]

def guestSurface : Proto.SurfaceCreate :=
  { surfaceId := 0, width := 2, height := 2, format := 32, flags := 1 }

def guestCopy : Proto.CopyBits :=
  { base := { surfaceId := 0, bounds := ⟨0, 1, 2, 2⟩, clip := .none }, srcPos := ⟨0, 0⟩ }

def guestMessages : List (Nat × List UInt8) :=
  [(Proto.DisplayMsg.SURFACE_CREATE, guestSurface.encode ++ []),
    (Proto.DisplayMsg.DRAW_COPY, Client.lzCommand.body),
    (Proto.DisplayMsg.COPY_BITS, guestCopy.encode ++ [])]

def guestPieces : List (Framing.Wake UInt8 Empty) :=
  [.arrive ((Net.streamOf ((Net.Channel.new true).writeAll guestMessages)).take 30), .read 100,
    .arrive ((Net.streamOf ((Net.Channel.new true).writeAll guestMessages)).drop 30), .read 300,
    .read 300]

theorem guest_asks : List.Forall₂ (Asks 0) guest guestMessages := by
  have plain : Plain Client.twoRows 1 2 := by
    constructor
    · rfl
    · decide
    · decide
  have fits (value : Int) (low : 0 ≤ value) (high : value ≤ 2) : Proto.FitsI32 value := by
    unfold Proto.FitsI32
    omega
  have boundsFit (left right : Int) (low : 0 ≤ left ∧ 0 ≤ right) (high : left ≤ 2 ∧ right ≤ 2) :
      Proto.Rect.Fits ⟨0, left, 2, right⟩ :=
    ⟨fits 0 (by decide) (by decide), fits left low.1 high.1, fits 2 (by decide) (by decide),
      fits right low.2 high.2⟩
  have pasteFits : (Client.plainCopy ⟨0, 0, 2, 1⟩).Fits :=
    ⟨⟨by decide, boundsFit 0 1 (by decide) (by decide), trivial⟩, by decide,
      boundsFit 0 1 (by decide) (by decide), by decide, by decide,
      ⟨by decide, ⟨fits 0 (by decide) (by decide), fits 0 (by decide) (by decide)⟩, by decide⟩⟩
  have copyFits : guestCopy.Fits :=
    ⟨⟨by decide, boundsFit 1 2 (by decide) (by decide), trivial⟩,
      ⟨fits 0 (by decide) (by decide), fits 0 (by decide) (by decide)⟩⟩
  have carries : Client.Carries Client.twoRows 1 2 false Client.lzCommand.body 57 := by
    apply @Client.Carries.lz Client.twoRows 1 2 false Client.lzCommand.body 57
      ⟨3, Proto.ImageType.LZ_RGB, 0, 1, 2⟩ Client.twoRowsLz Client.lzStream []
    · constructor <;> decide
    · rfl
    · constructor <;> decide
    · rfl
    · rfl
    · rfl
    · rfl
    · rfl
    · decide +kernel
  refine .cons ?_ (.cons ?_ (.cons ?_ .nil))
  · exact @Asks.create 0 guestSurface [] (by simp [guestSurface, Proto.SurfaceCreate.Fits]) rfl (by decide)
  · exact @Asks.paste 0 (Client.plainCopy ⟨0, 0, 2, 1⟩) Client.twoRows 1 2 false _
      pasteFits ⟨rfl, rfl⟩ ⟨rfl, rfl, rfl, rfl, rfl⟩ plain
      ⟨by decide, by decide, by decide⟩ (by decide) carries
  · exact @Asks.copy 0 guestCopy [] copyFits ⟨rfl, rfl⟩

end ViewerApp

end Capsaicin.Viewer
