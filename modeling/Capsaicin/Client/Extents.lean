/-
The size of a decoded image. Whatever a codec returns holds four bytes for each pixel that
its caller asked for.
-/

import Capsaicin.Glz.Decoder
import Capsaicin.Lz.Decoder
import Capsaicin.Quic.Trace
import Mathlib.Tactic.Ring

namespace Capsaicin

open Program (Returns Triple index assign)

def Sized (size : Nat) (out : List UInt8) : Prop := out.length = size

theorem sized_replicate (size : Nat) : Sized size (List.replicate size 0) := List.length_replicate

/-! ### LZ -/

namespace Lz

variable {stage : Stage} {size : Nat} {out : List UInt8}

theorem copyPixel_returns (src dst : Nat) (sized : Sized size out) :
    Returns (copyPixel stage src dst out) (Sized size) := by
  cases stage with
  | bgr =>
      refine .skip fun b => (Program.assign_returns _ b sized).bind fun out sized => ?_
      refine .skip fun g => (Program.assign_returns _ g sized).bind fun out sized => ?_
      refine .skip fun r => (Program.assign_returns _ r sized).bind fun out sized => ?_
      exact Program.assign_returns _ 0 sized
  | alpha => exact .skip fun a => Program.assign_returns _ a sized

theorem literalPixel_returns (input : List UInt8) (ip dst : Nat) (sized : Sized size out) :
    Returns (literalPixel stage input ip dst out) fun result => Sized size result.2 := by
  cases stage with
  | bgr =>
      refine .skip fun b => (Program.assign_returns _ b.1 sized).bind fun out sized => ?_
      refine .skip fun g => (Program.assign_returns _ g.1 sized).bind fun out sized => ?_
      refine .skip fun r => (Program.assign_returns _ r.1 sized).bind fun out sized => ?_
      exact (Program.assign_returns _ 0 sized).bind fun out sized => .ok sized
  | alpha => exact .skip fun a => (Program.assign_returns _ a.1 sized).bind fun out sized => .ok sized

theorem token_returns {fits : List UInt8 → Prop} {cursor : Cursor}
    (copies : ∀ src dst out, fits out → Returns (copyPixel stage src dst out) fits)
    (takes : ∀ input ip dst out, fits out →
      Returns (literalPixel stage input ip dst out) fun result => fits result.2)
    (input : List UInt8) (numPixels : Nat) (start : fits cursor.out) :
    Returns (token stage input numPixels cursor) fun next => fits next.out := by
  refine .skip fun ctrl => .ite (fun _copies => ?_) fun _literal => ?_
  · refine .skip fun len => .skip fun ofs => .ite (fun _bad => .error _) fun _good => ?_
    exact (Lz77.copyRun_returns copies start).bind fun out kept => .ok kept
  · refine .ite (fun _bad => .error _) fun _good => ?_
    exact (Lz77.takeRun_returns (takes input) start).bind fun result kept => .ok kept

theorem decompressPass_returns {fits : List UInt8 → Prop}
    (copies : ∀ src dst out, fits out → Returns (copyPixel stage src dst out) fits)
    (takes : ∀ input ip dst out, fits out →
      Returns (literalPixel stage input ip dst out) fun result => fits result.2)
    (input : List UInt8) (numPixels : Nat) (start : fits out) :
    Returns (decompressPass input numPixels out stage) fun result => fits result.2 := by
  refine .ite (fun _short => .error _) fun _long => ?_
  exact (Lz77.decodeLoop_returns
    (fun cursor kept => token_returns copies takes input numPixels kept) start).bind
      fun cursor kept => .ok kept

theorem decompressPass_sized (input : List UInt8) (numPixels : Nat) (sized : Sized size out) :
    Returns (decompressPass input numPixels out stage) fun result => Sized size result.2 :=
  decompressPass_returns (fun src dst _out sized => copyPixel_returns src dst sized)
    (fun input ip dst _out sized => literalPixel_returns input ip dst sized) input numPixels sized

theorem decompressRgb32_returns (stream : List UInt8) (numPixels : Nat) :
    Returns (decompressRgb32 stream numPixels) (Sized (numPixels * 4)) :=
  .skip fun _ => (decompressPass_sized stream numPixels (sized_replicate _)).bind
    fun _ sized => .ok sized

theorem decompressRgba_returns (stream : List UInt8) (numPixels : Nat) :
    Returns (decompressRgba stream numPixels) (Sized (numPixels * 4)) :=
  .skip fun _ => (decompressPass_sized stream numPixels (sized_replicate _)).bind
    fun result sized => (decompressPass_sized (stream.drop result.1) numPixels sized).bind
      fun _ sized => .ok sized

end Lz

/-! ### GLZ -/

namespace Glz

variable {size : Nat} {out : List UInt8}

theorem copyPixel_returns (src dst : Nat) (sized : Sized size out) :
    Returns (copyPixel src dst out) (Sized size) := by
  refine .skip fun b => (Program.assign_returns _ b sized).bind fun out sized => ?_
  refine .skip fun g => (Program.assign_returns _ g sized).bind fun out sized => ?_
  refine .skip fun r => (Program.assign_returns _ r sized).bind fun out sized => ?_
  exact Program.assign_returns _ 0 sized

theorem crossRun_returns (pixels : List UInt8) (bpp : Nat) {count s dst : Nat}
    (sized : Sized size out) :
    Returns (crossRun pixels bpp count s dst out) (Sized size) := by
  induction count generalizing s dst out with
  | zero => exact .ok sized
  | succ count ih =>
      have pixel : Returns (crossPixel pixels s dst out) (Sized size) := by
        refine .skip fun b => (Program.assign_returns _ b sized).bind fun out sized => ?_
        refine .skip fun g => (Program.assign_returns _ g sized).bind fun out sized => ?_
        refine .skip fun r => (Program.assign_returns _ r sized).bind fun out sized => ?_
        exact Program.assign_returns _ 0 sized
      exact pixel.bind fun out sized => ih sized

theorem literalPixel_returns (body : List UInt8) (ip dst : Nat) (sized : Sized size out) :
    Returns (literalPixel body ip dst out) fun result => Sized size result.2 := by
  refine .skip fun b => (Program.assign_returns _ b.1 sized).bind fun out sized => ?_
  refine .skip fun g => (Program.assign_returns _ g.1 sized).bind fun out sized => ?_
  refine .skip fun r => (Program.assign_returns _ r.1 sized).bind fun out sized => ?_
  exact (Program.assign_returns _ 0 sized).bind fun out sized => .ok sized

theorem cross_returns {cursor : Lz.Cursor} (window : Option GlzWindow) (selfId : Nat)
    (reference : Reference) (sized : Sized size cursor.out) :
    Returns (cross window selfId reference cursor) fun next => Sized size next.out := by
  unfold cross
  cases window with
  | none => exact .error _
  | some window =>
      dsimp only
      cases window.get (targetId selfId reference.imageDist) with
      | none => exact .error _
      | some entry =>
          refine .skip fun start => .skip fun bytes => .skip fun sum => ?_
          refine .ite (fun _outside => .error _) fun _inside => ?_
          exact (crossRun_returns entry.pixels entry.bpp sized).bind fun out sized => .ok sized

theorem token_returns {cursor : Lz.Cursor} (window : Option GlzWindow) (selfId : Nat)
    (body : List UInt8) (nPixels : Nat) (sized : Sized size cursor.out) :
    Returns (token window selfId body nPixels cursor) fun next => Sized size next.out := by
  refine .skip fun ctrl => .ite (fun _copies => ?_) fun _literal => ?_
  · refine .skip fun fields => ?_
    have copied : ∀ pixelOfs, Returns
        (if cursor.op + fields.len > nPixels then .error (.error .badReference)
        else if fields.imageDist = 0 then
          intra { fields with pixelOfs := pixelOfs } { cursor with ip := ctrl.2 }
        else cross window selfId { fields with pixelOfs := pixelOfs } { cursor with ip := ctrl.2 })
        fun next => Sized size next.out := by
      intro pixelOfs
      refine .ite (fun _bad => .error _) fun _good => ?_
      refine .ite (fun _here => .ite (fun _bad => .error _) fun _back => ?_) fun _away => ?_
      · exact (Lz77.copyRun_returns (fun src dst out sized => copyPixel_returns src dst sized)
          sized).bind fun out sized => .ok sized
      · exact cross_returns window selfId _ sized
    exact .ite (fun _here => .skip copied) fun _away => .skip copied
  · refine .ite (fun _bad => .error _) fun _good => ?_
    exact (Lz77.takeRun_returns (fun ip dst out sized => literalPixel_returns body ip dst sized)
      sized).bind fun result sized => .ok sized

theorem decompressRgb32_returns (stream : List UInt8) (header : GlzHeader) (window : GlzWindow) :
    Returns (decompressRgb32 stream header window) 
      (Sized (header.width * header.height * 4)) := by
  refine .skip fun bytes => .ite (fun _type => .error _) fun _rgb32 => ?_
  refine .ite (fun _short => .error _) fun _long => ?_
  exact (Lz77.decodeLoop_returns
    (fun cursor sized => token_returns (some window) header.id _ _ sized)
    (sized_replicate _)).bind fun cursor sized => .ok sized

end Glz

/-! ### QUIC -/

namespace Quic

open Program (Keeps)

section Phases

variable {ρ : Type} {fits : ρ → Prop} {above : List ρ}

/-- The row that is written to stays full, and those above it stay as they are. -/
def InRow (fits : ρ → Prop) (above : List ρ) (pass : Pass Tracer ρ) : Prop :=
  fits pass.cur ∧ pass.above = above

theorem framed_inRow {layout : Layout ρ} {width : Nat} {lanes : List (Nat × Nat)}
    (lawful : layout.Lawful width fits lanes) : Framed layout (InRow fits above) where
  noted := fun _bpc _l _window start => start
  moved := fun _len _chans start => start
  written := fun start written => ⟨lawful.written start.1 written, start.2⟩
  cleared := fun start cleared => ⟨lawful.cleared start.1 cleared, start.2⟩

theorem planeDecoder_steady {layout : Layout ρ} {width : Nat} {lanes : List (Nat × Nat)} (bpc : Nat)
    (assertsOrder : Bool) (lawful : layout.Lawful width fits lanes) :
    (planeDecoder layout bpc assertsOrder lanes).Steady (InRow fits above) where
  retime := fun _state start => start
  remodel := fun _chans start => start
  first := (framed_inRow lawful).decodePixel _ lanes 0
  pixel := (framed_inRow lawful).decodePixel _ lanes
  run := fun j _stop => Keeps.pure j

theorem phase_sized {coder : Coder Tracer ρ}
    (steady : ∀ above : List ρ, coder.Steady (InRow fits above)) (width : Nat) {rows : List ρ}
    (blanks : ∀ fresh ∈ rows, fits fresh) :
    Triple (fun pass => pass.above = []) (phase coder width rows)
      (fun _ pass => pass.above.length = rows.length ∧ ∀ full ∈ pass.above, fits full)
      fun _ _ => True := by
  refine (@phase_rows _ _ _ (fun _fresh cur => fits cur) (fun _fresh above => steady above) width
    rows blanks []).conseq (fun _pass start => start) ?_
  rintro _ pass ⟨done, finished, reached⟩
  rw [reached, List.append_nil, List.length_reverse]
  refine ⟨finished.length_eq.symm, fun full member => ?_⟩
  have listed := List.mem_reverse.mp member
  clear reached member blanks
  induction finished with
  | nil => cases listed
  | cons first _rest ih =>
      rcases List.mem_cons.mp listed with here | later
      · exact here ▸ first
      · exact ih later

end Phases

theorem copyPixel_returns {size : Nat} {cur : List UInt8} (k : Nat) (sized : Sized size cur) :
    Returns (copyPixel cur k) (Sized size) := by
  refine .skip fun b => (Program.assign_returns _ b sized).bind fun cur sized => ?_
  refine .skip fun g => (Program.assign_returns _ g sized).bind fun cur sized => ?_
  refine .skip fun r => (Program.assign_returns _ r sized).bind fun cur sized => ?_
  exact Program.assign_returns _ 0 sized

theorem doRunCopyRgb32_returns {size count : Nat} {cur : List UInt8} (start : Nat)
    (sized : Sized size cur) : Returns (doRunCopyRgb32 cur start count) (Sized size) := by
  induction count generalizing start cur with
  | zero => exact .ok sized
  | succ count ih => exact (copyPixel_returns start sized).bind fun cur sized => ih (start + 1) sized

theorem rgb32Decoder_steady (width : Nat) (above : List (List UInt8)) :
    rgb32Decoder.Steady (InRow (FullRow width) above) where
  retime := fun _state start => start
  remodel := fun _chans start => start
  first := (framed_inRow (@bgra_lawful width rgbLanes (by decide))).decodePixel _ rgbLanes 0
  pixel := by
    intro j
    refine Keeps.bind ?_ fun _ => ?_
    · apply Keeps.step
      intro pass value last start ran
      cases ran
      exact start
    · split
      · exact fail_keeps _
      · exact (framed_inRow (@bgra_lawful width rgbLanes (by decide))).decodePixel _ rgbLanes j
  run := by
    intro j stop
    refine Keeps.bind ?_ fun _ => ?_
    · apply Keeps.step
      intro pass value last start ran
      cases ran
      exact start
    · apply Keeps.step
      intro pass value last start ran
      obtain ⟨decoded, _decoded, ran⟩ := Program.bind_eq_ok.mp ran
      obtain ⟨reached, _reached, ran⟩ := Program.bind_eq_ok.mp ran
      obtain ⟨cur, copied, ran⟩ := Program.bind_eq_ok.mp ran
      cases ran
      exact ⟨doRunCopyRgb32_returns j start.1 cur copied, start.2⟩

theorem flatten_sized {α : Type} {rows : List (List α)} {height width : Nat}
    (count : rows.length = height) (full : ∀ row ∈ rows, row.length = width) :
    rows.flatten.length = height * width := by
  induction rows generalizing height with
  | nil =>
      subst count
      simp
  | cons row rest ih =>
      subst count
      rw [List.flatten_cons, List.length_append, full row List.mem_cons_self,
        ih rfl fun other member => full other (List.mem_cons_of_mem row member), List.length_cons,
        Nat.succ_mul, Nat.add_comm]

theorem decodeWith_returns {ρ : Type} {bpc channels size : Nat} {body : Decoding (List ρ) Unit}
    {expand : List (List ρ) → List UInt8} {stream : List UInt8} {width height : Nat}
    {after : Pass Tracer (List ρ) → Prop}
    (ran : Triple (fun pass => pass.above = []) body (fun _ => after) fun _ _ => True)
    (expanded : ∀ pass, after pass → Sized size (expand pass.above.reverse)) :
    Returns (decodeWith bpc channels body expand stream width height).outcome (Sized size) := by
  refine decodeWith_spec (fun decoded => Returns decoded.outcome (Sized size))
    (fun reason => .error _) fun _some _narrow => ?_
  have ends := ran (startPass ρ (readerAt stream 0) bpc channels width) rfl
  cases stopped : body (startPass ρ (readerAt stream 0) bpc channels width) with
  | ok value pass =>
      rw [stopped] at ends
      exact .ok (expanded pass ends)
  | error fault pass => exact .error fault

/-- What a phase has left above. -/
def Filled {ρ : Type} (fits : ρ → Prop) (height : Nat) (pass : Pass Tracer ρ) : Prop :=
  pass.above.length = height ∧ ∀ row ∈ pass.above, fits row

theorem phase_filled {ρ : Type} {fits : List ρ → Prop} {coder : Coder Tracer (List ρ)}
    (steady : ∀ above : List (List ρ), coder.Steady (InRow fits above)) (width : Nat)
    {rows : List (List ρ)} {height : Nat} (count : rows.length = height)
    (blanks : ∀ fresh ∈ rows, fits fresh) :
    Triple (fun pass => pass.above = []) (phase coder width rows) (fun _ => Filled fits height)
      fun _ _ => True := by
  have sized := @phase_sized _ _ _ steady width rows blanks
  rw [count] at sized
  exact sized

theorem Filled.flatten {pass : Pass Tracer (List UInt8)} {width height : Nat}
    (filled : Filled (FullRow width) height pass) :
    Sized (width * height * 4) pass.above.reverse.flatten := by
  have size := @flatten_sized _ pass.above.reverse height (width * 4)
    (List.length_reverse.trans filled.1) fun row member => filled.2 row (List.mem_reverse.mp member)
  rw [Sized, size]
  ring

theorem Filled.spread {ρ : Type} {pass : Pass Tracer (List ρ)} {width height : Nat}
    (filled : Filled (fun row => row.length = width) height pass) {spread : ρ → List UInt8}
    (four : ∀ sample, (spread sample).length = 4) :
    Sized (width * height * 4) (pass.above.reverse.flatten.flatMap spread) := by
  have size := @flatten_sized _ pass.above.reverse height width
    (List.length_reverse.trans filled.1) fun row member => filled.2 row (List.mem_reverse.mp member)
  have each : ∀ samples : List ρ, (samples.flatMap spread).length = samples.length * 4 := by
    intro samples
    induction samples with
    | nil => rfl
    | cons sample rest ih =>
        rw [List.flatMap_cons, List.length_append, four, ih, List.length_cons]
        omega
  rw [Sized, each, size]
  ring

theorem rgbPhase_filled (width height : Nat) :
    Triple (fun pass => pass.above = [])
      (decompressRgbPhase width (blankRows 0 (4 * width) height))
      (fun _ => Filled (FullRow width) height) fun _ _ => True := by
  have count := blankRows_length (0 : UInt8) (4 * width) height
  exact phase_filled (rgb32Decoder_steady width) width count (blankRows_bgra width height)

theorem decompressRgb32_returns (stream : List UInt8) (width height : Nat) :
    Returns (decompressRgb32 stream width height) (Sized (width * height * 4)) :=
  decodeWith_returns (rgbPhase_filled width height) fun _pass filled => filled.flatten

theorem decompressRgba_returns (stream : List UInt8) (width height : Nat) :
    Returns (decompressRgba stream width height) (Sized (width * height * 4)) := by
  refine @decodeWith_returns _ _ _ _ _ _ _ _ _ (Filled (FullRow width) height) ?_
    fun _pass filled => filled.flatten
  refine (rgbPhase_filled width height).bind fun _ => ?_
  have viewed : Triple (Filled (FullRow width) height)
      (Program.view fun pass => .ok pass.above.reverse : Decoding (List UInt8) _)
      (fun rows _ => rows.length = height ∧ ∀ row ∈ rows, FullRow width row) fun _ _ => True := by
    intro pass filled
    exact ⟨List.length_reverse.trans filled.1, fun row member =>
      filled.2 row (List.mem_reverse.mp member)⟩
  refine viewed.bind fun rows => ?_
  intro pass full
  have restarted : Triple (fun other : Pass Tracer (List UInt8) => other = pass)
      (Program.step fun pass => .ok ((), pass.restart 8 1 width) : Decoding (List UInt8) Unit)
      (fun _ last => last.above = []) fun _ _ => True := by
    apply Triple.step
    · intro other value last same ran
      cases ran
      rfl
    · exact fun _pass _fault _start _ran => True.intro
  have behind := restarted.bind fun _ => phase_filled
    (fun _above => planeDecoder_steady 8 true (alphaPlane_lawful width)) width full.1 full.2
  exact behind pass rfl

theorem decompressGray_returns (stream : List UInt8) (width height : Nat) :
    Returns (decompressGray stream width height) (Sized (width * height * 4)) := by
  have blanks := @blankRows_full UInt8 (fun row => row.length = width) 0 width height
    List.length_replicate
  have count := blankRows_length (0 : UInt8) width height
  exact decodeWith_returns
    (phase_filled (fun _above => planeDecoder_steady 8 false (grayPlane_lawful width [(0, 0)])) width
      count blanks)
    fun _pass filled => filled.spread fun _ => rfl

theorem decompressRgb16_returns (stream : List UInt8) (width height : Nat) :
    Returns (decompressRgb16 stream width height) (Sized (width * height * 4)) := by
  have blanks := @blankRows_full Nat (fun row => row.length = width) 0 width height
    List.length_replicate
  have count := blankRows_length (0 : Nat) width height
  exact decodeWith_returns
    (phase_filled (fun _above => planeDecoder_steady 5 false (rgb16Plane_lawful width rgbLanes)) width
      count blanks)
    fun _pass filled => filled.spread fun _ => rfl

end Quic

end Capsaicin
