/-
The encoder of both LZ codecs that writes nothing but runs of literal pixels, and what the
decoders make of it.
-/

import Capsaicin.Glz.Legal
import Capsaicin.Lz.Legal

namespace Capsaicin

open Lz77 (expand expandBy)

def literalRuns (longest : Nat) : Nat → List Bgra → List (List Bgra)
  | 0, _ => []
  | _ + 1, [] => []
  | fuel + 1, pixels@(_ :: _) =>
      pixels.take longest :: literalRuns longest fuel (pixels.drop longest)

def literalBytes (run : List Bgra) : List UInt8 :=
  UInt8.ofNat (run.length - 1) :: run.flatMap fun pixel => pixel.colour.bytes

def compressLiteral (longest : Nat) (pixels : List UInt8) : List UInt8 :=
  ((literalRuns longest (unpacked pixels).length (unpacked pixels)).map literalBytes).flatten

def Lz.compressRgb32Literal (pixels : List UInt8) : List UInt8 :=
  compressLiteral Lz.MAX_COPY pixels

def Glz.compressRgb32Literal (pixels : List UInt8) : List UInt8 :=
  compressLiteral Glz.MAX_COPY pixels

section Runs

variable {longest fuel : Nat} {pixels : List Bgra}

theorem flatten_literalRuns (positive : 0 < longest) (enough : pixels.length ≤ fuel) :
    (literalRuns longest fuel pixels).flatten = pixels := by
  induction fuel generalizing pixels with
  | zero =>
      rw [List.length_eq_zero_iff.mp (Nat.le_zero.mp enough)]
      rfl
  | succ fuel ih =>
      cases pixels with
      | nil => rfl
      | cons pixel rest =>
          have fewer : ((pixel :: rest).drop longest).length ≤ fuel := by
            rw [List.length_drop]
            omega
          rw [literalRuns, List.flatten_cons, ih fewer, List.take_append_drop]

theorem length_literalRun {run : List Bgra} (positive : 0 < longest)
    (member : run ∈ literalRuns longest fuel pixels) : 1 ≤ run.length ∧ run.length ≤ longest := by
  induction fuel generalizing pixels with
  | zero => cases member
  | succ fuel ih =>
      cases pixels with
      | nil => cases member
      | cons pixel rest =>
          rcases List.mem_cons.mp member with rfl | later
          · rw [List.length_take, List.length_cons]
            omega
          · exact ih later

/-- What is written for an image is its runs, none of them empty or too long. -/
theorem compressLiteral_packed (positive : 0 < longest) (pixels : List Bgra) :
    ∃ runs : List (List Bgra), compressLiteral longest (packed pixels) = (runs.map literalBytes).flatten ∧
      runs.flatten = pixels ∧ ∀ run ∈ runs, 1 ≤ run.length ∧ run.length ≤ longest := by
  refine ⟨literalRuns longest pixels.length pixels, ?_, ?_, ?_⟩
  · rw [compressLiteral, unpacked_packed]
  · exact flatten_literalRuns positive (Nat.le_refl _)
  · intro run among
    exact length_literalRun positive among

theorem withAlpha_colour (clear : ∀ pixel ∈ pixels, pixel.a = 0) :
    (pixels.map Bgra.colour).map (fun colour => colour.withAlpha 0) = pixels := by
  rw [List.map_map]
  conv_rhs => rw [← List.map_id pixels]
  apply List.map_congr_left
  intro pixel member
  have zero := clear pixel member
  cases pixel
  cases zero
  rfl

end Runs

namespace Lz

theorem expand_literals (runs : List (List Bgra)) (produced : List Bgr) :
    expand produced (runs.map fun run => .literal (run.map Bgra.colour)) =
      some (produced ++ runs.flatten.map Bgra.colour) := by
  induction runs generalizing produced with
  | nil => simp [expand, expandBy]
  | cons run runs ih =>
      have step := ih (produced ++ run.map Bgra.colour)
      rw [List.append_assoc, ← List.map_append] at step
      exact step

theorem encode_literals (runs : List (List Bgra)) :
    colours.encode (runs.map fun run => .literal (run.map Bgra.colour)) =
      (runs.map literalBytes).flatten := by
  unfold Coding.encode
  rw [List.map_map]
  congr 1
  apply List.map_congr_left
  intro run _member
  change UInt8.ofNat ((run.map Bgra.colour).length - 1) ::
    (run.map Bgra.colour).flatMap Bgr.bytes = literalBytes run
  rw [List.length_map, List.flatMap_map]
  rfl

theorem literals_decoded {pixels : List Bgra} (clear : ∀ pixel ∈ pixels, pixel.a = 0)
    (positive : 1 ≤ pixels.length) (cap : pixels.length ≤ 16777216) :
    decompressRgb32 (compressRgb32Literal (packed pixels)) pixels.length = .ok (packed pixels) := by
  rcases compressLiteral_packed (by decide : 0 < MAX_COPY) pixels with ⟨runs, stream, whole, long⟩
  have legal : ∀ token ∈ runs.map fun run => Lz77.Token.literal (run.map Bgra.colour),
      colours.Legal token := by
    intro token member
    rcases List.mem_map.mp member with ⟨run, among, rfl⟩
    change 1 ≤ (run.map Bgra.colour).length ∧ (run.map Bgra.colour).length ≤ 32
    rw [List.length_map]
    exact long run among
  have expanded := expand_literals runs []
  rw [whole, List.nil_append] at expanded
  have pass := (colourPass_ok (by omega) legal expanded (List.length_map _) []).1
  rw [List.append_nil, encode_literals, blank, withAlpha_colour clear] at pass
  rw [decompressRgb32, Program.bind_ok (boundedPixels_ok positive cap), compressRgb32Literal, stream,
    Program.bind_ok pass]

end Lz

namespace Glz

theorem expand_literals (images : Nat → Option (List Bgr)) (runs : List (List Bgra))
    (produced : List Bgr) :
    expandBy (GlzToken.extend images) produced
        (runs.map fun run => .lit (run.map Bgra.colour)) =
      some (produced ++ runs.flatten.map Bgra.colour) := by
  induction runs generalizing produced with
  | nil => simp [expandBy]
  | cons run runs ih =>
      have step := ih (produced ++ run.map Bgra.colour)
      rw [List.append_assoc, ← List.map_append] at step
      exact step

theorem literals_decoded {pixels : List Bgra} {header : GlzHeader} {bytes : Nat}
    (clear : ∀ pixel ∈ pixels, pixel.a = 0) (rgb32 : header.imageType = .rgb32)
    (accepted : validateDims header.width header.height 4 = .ok bytes)
    (size : pixels.length = header.width * header.height) (window : GlzWindow) :
    decompressRgb32 (header.encode ++ compressRgb32Literal (packed pixels)) header window =
      .ok (packed pixels) := by
  rcases compressLiteral_packed (by decide : 0 < MAX_COPY) pixels with ⟨runs, stream, whole, long⟩
  have encoded : List.Forall₂ Encodes (runs.map fun run => .lit (run.map Bgra.colour))
      (runs.map literalBytes) := by
    rw [List.forall₂_map_left_iff, List.forall₂_map_right_iff, List.forall₂_same]
    intro run among
    refine ⟨?_, ?_, ?_⟩
    · rw [List.length_map]
      exact (long run among).1
    · rw [List.length_map]
      exact (long run among).2
    · rw [List.length_map, List.flatMap_map]
      rfl
  have stores : Stores (some window) header.id fun _ => none := by
    intro imageDist image known
    cases known
  have expanded := expand_literals (fun _ => none) runs []
  rw [whole, List.nil_append] at expanded
  have decoded := decoder_expands header.encode_length rgb32 accepted stores encoded expanded
    ((List.length_map _).trans size) []
  rw [List.append_nil, withAlpha_colour clear] at decoded
  rw [compressRgb32Literal, stream]
  exact decoded

end Glz

end Capsaicin
