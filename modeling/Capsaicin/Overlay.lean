/-
The alpha overlay. Both codecs decode an RGBA image as an RGB32 image and lay an alpha
channel over it. Whatever the stream, the second pass writes the last byte of a pixel and
no other, so the colours are those of the RGB32 decoder.
-/

import Capsaicin.Client.Extents

namespace Capsaicin

open Program (Returns assign)

/-- Two buffers of one size with the same colour bytes in every pixel. -/
structure SameColours (base out : List UInt8) : Prop where
  size : out.length = base.length
  colours : ∀ k lane, lane < 3 → out[k * 4 + lane]? = base[k * 4 + lane]?

/-- How a decoder with an overlay stands to the one without: it returns the same colours,
and stops where the other one stops. -/
structure Overlays {ε : Type} (plain overlaid : Except (Program.Fault ε) (List UInt8)) :
    Prop where
  returns : ∀ p, overlaid = .ok p → ∃ q, plain = .ok q ∧ SameColours q p
  stops : ∀ fault, plain = .error fault → overlaid = .error fault

theorem SameColours.refl (out : List UInt8) : SameColours out out where
  size := rfl
  colours := fun _k _lane _inPixel => rfl

theorem SameColours.setAlpha {base out : List UInt8} (same : SameColours base out) (dst : Nat)
    (alpha : UInt8) : SameColours base (out.set (dst * 4 + 3) alpha) where
  size := by
    rw [List.length_set]
    exact same.size
  colours := by
    intro k lane inPixel
    rw [List.getElem?_set_ne (by omega)]
    exact same.colours k lane inPixel

theorem SameColours.flatten {width : Nat} {rows done : List (List UInt8)}
    (same : List.Forall₂ SameColours rows done) (full : ∀ row ∈ rows, row.length = width * 4) :
    SameColours rows.flatten done.flatten := by
  induction same with
  | nil => exact SameColours.refl []
  | @cons row row' rest rest' first _others ih =>
      have behind := ih fun other member => full other (List.mem_cons_of_mem row member)
      have size := full row List.mem_cons_self
      have size' := first.size.trans size
      constructor
      · rw [List.flatten_cons, List.flatten_cons, List.length_append, List.length_append,
          first.size, behind.size]
      · intro k lane inPixel
        rw [List.flatten_cons, List.flatten_cons]
        by_cases here : k < width
        · rw [List.getElem?_append_left (by omega), List.getElem?_append_left (by omega)]
          exact first.colours k lane inPixel
        · rw [List.getElem?_append_right (by omega), List.getElem?_append_right (by omega)]
          have later : k * 4 + lane - width * 4 = (k - width) * 4 + lane := by omega
          rw [size, size', later]
          exact behind.colours (k - width) lane inPixel

/-! ### LZ -/

namespace Lz

variable {base out : List UInt8}

theorem assign_overlays (same : SameColours base out) (dst : Nat) (alpha : UInt8) :
    Returns (assign out (dst * 4 + 3) alpha : Except LzFault _) (SameColours base) := by
  unfold assign
  exact .ite (fun _inside => .ok (same.setAlpha dst alpha)) fun _outside => .error _

theorem decompressPass_overlays (input : List UInt8) (numPixels : Nat)
    (same : SameColours base out) :
    Returns (decompressPass input numPixels out .alpha) fun result => SameColours base result.2 := by
  apply decompressPass_returns
  · intro src dst out same
    exact .skip fun alpha => assign_overlays same dst alpha
  · intro input ip dst out same
    exact .skip fun alpha => (assign_overlays same dst alpha.1).bind fun out same => .ok same
  · exact same

theorem decompressRgba_overlays (stream : List UInt8) (numPixels : Nat) :
    Overlays (decompressRgb32 stream numPixels) (decompressRgba stream numPixels) := by
  unfold decompressRgb32 decompressRgba
  cases bounded : boundedPixels numPixels with
  | error fault =>
      constructor
      · intro p returned
        cases returned
      · intro other stopped
        exact stopped
  | ok _ =>
      change Overlays
        (decompressPass stream numPixels (List.replicate (numPixels * 4) 0) .bgr >>= fun result =>
          .ok result.2)
        (decompressPass stream numPixels (List.replicate (numPixels * 4) 0) .bgr >>= fun result =>
          decompressPass (stream.drop result.1) numPixels result.2 .alpha >>= fun overlaid =>
            .ok overlaid.2)
      cases decompressPass stream numPixels (List.replicate (numPixels * 4) 0) .bgr with
      | error fault =>
          constructor
          · intro p returned
            cases returned
          · intro other stopped
            exact stopped
      | ok result =>
          constructor
          · intro p returned
            change (decompressPass (stream.drop result.1) numPixels result.2 .alpha >>= _) = _
              at returned
            obtain ⟨overlaid, passed, last⟩ := Program.bind_eq_ok.mp returned
            cases last
            exact ⟨result.2, rfl, decompressPass_overlays _ numPixels (SameColours.refl result.2)
              overlaid passed⟩
          · intro fault stopped
            cases stopped

end Lz

/-! ### QUIC -/

namespace Quic

open Program (Keeps Triple)

variable {fresh : List UInt8} {above : List (List UInt8)}

/-- The row under the overlay keeps its colours, and those above it stay as they are. -/
def Overlaid (fresh : List UInt8) (above : List (List UInt8)) (pass : Pass Tracer (List UInt8)) :
    Prop :=
  SameColours fresh pass.cur ∧ pass.above = above

theorem Overlaid.written {pass : Pass Tracer (List UInt8)} {i value : Nat} {cur : List UInt8}
    (start : Overlaid fresh above pass) (written : alphaPlane.write pass.cur 3 i value = some cur) :
    Overlaid fresh above { pass with cur := cur } := by
  change setByte pass.cur (i * 4 + 3) value = some cur at written
  unfold setByte at written
  split at written
  · cases written
    exact ⟨start.1.setAlpha i _, start.2⟩
  · cases written

theorem decodeAlpha_overlays (family : Family) (i : Nat) :
    Keeps (Overlaid fresh above) (decodePixel alphaPlane family [(0, 3)] i) := by
  have cleared : Keeps (Overlaid fresh above) (clearPixel alphaPlane i) := by
    apply Keeps.step
    intro pass value last start ran
    cases ran
    exact start
  have looked : Keeps (Overlaid fresh above) (lookCode family 0 i) :=
    lookCode_keeps fun _bpc _l _window start => start
  have placed : ∀ looked, Keeps (Overlaid fresh above)
      (placeSymbol alphaPlane family 0 3 i looked) := fun _looked =>
    placeSymbol_keeps (fun _len _chans start => start) fun start written => start.written written
  apply cleared.bind
  intro _
  exact (looked.bind placed).bind fun _ => Keeps.pure ()

theorem alphaDecoder_overlays (fresh : List UInt8) (above : List (List UInt8)) :
    alphaDecoder.Steady fun pass => SameColours fresh pass.cur ∧ pass.above = above where
  retime := fun _state start => start
  remodel := fun _chans start => start
  first := decodeAlpha_overlays _ 0
  pixel := decodeAlpha_overlays _
  run := fun j _stop => Keeps.pure j

theorem overlay_keeps {width height : Nat} {pass : Pass Tracer (List UInt8)}
    (filled : Filled (FullRow width) height pass) :
    Triple (fun start => start = pass) (overlay width)
      (fun _ last => SameColours pass.above.reverse.flatten last.above.reverse.flatten)
      fun _ _ => True := by
  rintro start rfl
  have ends := phase_rows alphaDecoder_overlays width
    (fun row (_listed : row ∈ start.above.reverse) => SameColours.refl row) []
    (start.restart 8 1 width) rfl
  have entered : overlay width start =
      phase alphaDecoder width start.above.reverse (start.restart 8 1 width) := rfl
  rw [entered]
  cases ran : phase alphaDecoder width start.above.reverse (start.restart 8 1 width) with
  | error fault last => exact True.intro
  | ok value last =>
      rw [ran] at ends
      obtain ⟨done, same, reached⟩ := ends
      dsimp only
      rw [reached, List.append_nil, List.reverse_reverse]
      exact SameColours.flatten same fun row member => filled.2 row (List.mem_reverse.mp member)

theorem decompressRgba_overlays (stream : List UInt8) (width height : Nat) :
    Overlays (decompressRgb32 stream width height) (decompressRgba stream width height) := by
  unfold decompressRgb32 decompressRgba traceRgb32
  rw [traceRgba_eq]
  unfold decodeWith
  cases validateDims width height 4 with
  | error reason =>
      constructor
      · intro p returned
        cases returned
      · intro fault stopped
        exact stopped
  | ok size =>
      cases BitReader.newAfterHeader stream with
      | error reason =>
          constructor
          · intro p returned
            cases returned
          · intro fault stopped
            exact stopped
      | ok reader =>
          dsimp only
          have filled := rgbPhase_filled width height (startPass UInt8 reader 8 3 width) rfl
          cases ran : decompressRgbPhase width (blankRows 0 (4 * width) height)
            (startPass UInt8 reader 8 3 width) with
          | error fault pass =>
              rw [Program.run_bind_error ran]
              constructor
              · intro p returned
                cases returned
              · intro other stopped
                exact stopped
          | ok value pass =>
              rw [ran] at filled
              rw [Program.run_bind_ok ran]
              have ends := overlay_keeps filled pass rfl
              constructor
              · intro p returned
                cases behind : overlay width pass with
                | ok value last =>
                    rw [behind] at ends returned
                    cases returned
                    exact ⟨_, rfl, ends⟩
                | error fault last =>
                    rw [behind] at returned
                    cases returned
              · intro fault stopped
                cases stopped

end Quic

/-- RGBA is RGB32 under an alpha channel: in both codecs, on any stream, the RGBA decoder
returns the colours that the RGB32 decoder returns, and stops where that one stops. -/
theorem rgba_overlays_rgb32 (stream : List UInt8) :
    (∀ width height, Overlays (Quic.decompressRgb32 stream width height)
        (Quic.decompressRgba stream width height)) ∧
      ∀ numPixels, Overlays (Lz.decompressRgb32 stream numPixels)
        (Lz.decompressRgba stream numPixels) :=
  ⟨Quic.decompressRgba_overlays stream, Lz.decompressRgba_overlays stream⟩

end Capsaicin
