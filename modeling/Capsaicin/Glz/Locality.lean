/-
What a decoder asks its dictionary for. It depends on nothing else of the dictionary, and on
nothing at all when it asks for nothing.
-/

import Capsaicin.Glz.Decoder

namespace Capsaicin.Glz

open Lz (Cursor)
open Lz77 (visited)
open Program (bind_ok bind_eq_ok)

/-- The id that a round of the main loop asks the dictionary for. -/
def lookup (selfId : Nat) (body : List UInt8) (nPixels : Nat) (cursor : Cursor) : Option Nat :=
  match take body cursor.ip with
  | .error _ => none
  | .ok (ctrl, ip) =>
      if ctrl.toNat ≥ MAX_COPY then
        match readReference body ip ctrl.toNat with
        | .error _ => none
        | .ok fields =>
            if fields.imageDist = 0 ∨ cursor.op + fields.len > nPixels then none
            else some (targetId selfId fields.imageDist)
      else none

def lookedUp (stream : List UInt8) (header : GlzHeader) (window : GlzWindow) : List Nat :=
  match validateDims header.width header.height 4 with
  | .error _ => []
  | .ok _ =>
      if header.imageType ≠ .rgb32 ∨ stream.length < GLZ_HEADER_SIZE then []
      else
        let body := stream.drop GLZ_HEADER_SIZE
        let nPixels := header.width * header.height
        (visited (token (some window) header.id body nPixels) nPixels (body.length + 1)
          { ip := 0, op := 0, out := List.replicate (nPixels * 4) 0 }).filterMap
            (lookup header.id body nPixels)

def WindowEntry.image (entry : WindowEntry) : List UInt8 × Nat := (entry.pixels, entry.bpp)

/-- Two dictionaries hold the same under an id, or both nothing. -/
def GlzWindow.AgreeOn (window other : GlzWindow) (id : Nat) : Prop :=
  (window.get id).map WindowEntry.image = (other.get id).map WindowEntry.image

instance (window other : GlzWindow) (id : Nat) : Decidable (window.AgreeOn other id) :=
  inferInstanceAs (Decidable (_ = _))

section Steps

variable {window other : GlzWindow} {selfId nPixels ctrl : Nat} {body : List UInt8}
  {reference : Reference} {cursor next : Cursor}

theorem cross_congr (agree : window.AgreeOn other (targetId selfId reference.imageDist)) :
    cross (some window) selfId reference cursor = cross (some other) selfId reference cursor := by
  unfold GlzWindow.AgreeOn at agree
  unfold cross
  cases here : window.get (targetId selfId reference.imageDist) with
  | none =>
      cases there : other.get (targetId selfId reference.imageDist) with
      | none => simp only [here, there]
      | some entry => simp [here, there] at agree
  | some entry =>
      cases there : other.get (targetId selfId reference.imageDist) with
      | none => simp [here, there] at agree
      | some entry' =>
          rw [here, there] at agree
          simp only [Option.map_some, Option.some.injEq, WindowEntry.image, Prod.mk.injEq] at agree
          simp only [here, there, agree.1, agree.2]

/-- A round that asks for nothing does the same with every dictionary, and with none. Another
one is left with its question. -/
theorem token_cases (selfId : Nat) (body : List UInt8) (nPixels : Nat) (cursor : Cursor) :
    (lookup selfId body nPixels cursor = none ∧
        ∀ window other : Option GlzWindow,
          token window selfId body nPixels cursor = token other selfId body nPixels cursor) ∨
      ∃ reference behind, lookup selfId body nPixels cursor =
          some (targetId selfId reference.imageDist) ∧
        ∀ window, token window selfId body nPixels cursor =
          cross window selfId reference behind := by
  unfold lookup token
  cases take body cursor.ip with
  | error fault => exact Or.inl ⟨rfl, fun _window _other => rfl⟩
  | ok first =>
      rcases first with ⟨ctrl, ip⟩
      simp only [bind_ok rfl]
      by_cases refers : ctrl.toNat ≥ MAX_COPY
      · simp only [if_pos refers, backReference]
        cases readReference body ip ctrl.toNat with
        | error fault => exact Or.inl ⟨rfl, fun _window _other => rfl⟩
        | ok fields =>
            simp only [bind_ok rfl]
            by_cases inner : fields.imageDist = 0
            · simp only [if_pos inner, if_pos (Or.inl inner)]
              exact Or.inl ⟨trivial, fun _window _other => trivial⟩
            · simp only [if_neg inner]
              by_cases past : cursor.op + fields.len > nPixels
              · simp only [if_pos past, if_pos (Or.inr past)]
                exact Or.inl ⟨trivial, fun _window _other => trivial⟩
              · rw [if_neg fun either => either.elim inner past]
                simp only [if_neg past]
                exact Or.inr ⟨fields, _, rfl, fun _window => rfl⟩
      · simp only [if_neg refers]
        exact Or.inl ⟨trivial, fun _window _other => trivial⟩

theorem token_congr
    (agree : ∀ id, lookup selfId body nPixels cursor = some id → window.AgreeOn other id) :
    token (some window) selfId body nPixels cursor =
      token (some other) selfId body nPixels cursor := by
  rcases token_cases selfId body nPixels cursor with ⟨_asks, same⟩ | ⟨reference, behind, asks, left⟩
  · exact same (some window) (some other)
  · rw [left, left]
    exact cross_congr (agree _ asks)

theorem token_alone (window : Option GlzWindow)
    (ran : token none selfId body nPixels cursor = .ok next) :
    token window selfId body nPixels cursor = .ok next := by
  rcases token_cases selfId body nPixels cursor with
    ⟨_asks, same⟩ | ⟨reference, behind, _asks, left⟩
  · rw [same window none, ran]
  · rw [left] at ran
    cases ran

end Steps

/-- A stream is decoded alike against dictionaries that hold the same images under the ids it
asks for, and alike against all of them when it can be decoded without one. -/
theorem dictionary_local (stream : List UInt8) (header : GlzHeader) :
    (∀ window other : GlzWindow,
        (∀ id ∈ lookedUp stream header window, window.AgreeOn other id) →
        decompressRgb32 stream header window = decompressRgb32 stream header other) ∧
      ∀ pixels, decompressRgb32Intra stream header = .ok pixels →
        ∀ window, decompressRgb32 stream header window = .ok pixels := by
  constructor
  · intro window other agree
    unfold decompressRgb32 decompressRgb32Inner
    unfold lookedUp at agree
    cases checked : validateDims header.width header.height 4 with
    | error reason => rfl
    | ok size =>
        rw [checked] at agree
        dsimp only at agree
        simp only [Except.mapError, bind_ok rfl]
        by_cases type : header.imageType ≠ .rgb32
        · rw [if_pos type, if_pos type]
        · rw [if_neg type, if_neg type]
          by_cases short : stream.length < GLZ_HEADER_SIZE
          · rw [if_pos short, if_pos short]
          · rw [if_neg fun either => either.elim type short] at agree
            rw [if_neg short, if_neg short]
            unfold imageLoop
            rw [Lz77.decodeLoop_congr]
            intro reached member
            apply token_congr
            intro id asks
            exact agree id (List.mem_filterMap.mpr ⟨reached, member, asks⟩)
  · intro pixels alone window
    unfold decompressRgb32Intra decompressRgb32Inner imageLoop at alone
    unfold decompressRgb32 decompressRgb32Inner imageLoop
    obtain ⟨bounded, checked, rest⟩ := bind_eq_ok.mp alone
    rw [bind_ok checked]
    by_cases type : header.imageType ≠ .rgb32
    · rw [if_pos type] at rest
      cases rest
    · rw [if_neg type] at rest ⊢
      by_cases short : stream.length < GLZ_HEADER_SIZE
      · rw [if_pos short] at rest
        cases rest
      · rw [if_neg short] at rest ⊢
        obtain ⟨last, ran, ended⟩ := bind_eq_ok.mp rest
        rw [bind_ok (Lz77.decodeLoop_follows (fun _cursor _next => token_alone (some window)) ran)]
        exact ended

/-- The image 7, a single pixel that is there in the image before it. -/
def copiedPixel : GlzHeader where
  imageType := .rgb32
  topDown := true
  width := 1
  height := 1
  stride := 4
  id := 7
  winHeadDist := 0

def copiedStream : List UInt8 := copiedPixel.encode ++ [32, 0, 1]

def oneImage : GlzWindow := (GlzWindow.new 1024).insert 6 [9, 8, 7, 0] 4

/-- Another image makes no difference to it. -/
theorem dictionary_local_copied :
    lookedUp copiedStream copiedPixel oneImage = [6] ∧
      decompressRgb32 copiedStream copiedPixel oneImage =
        decompressRgb32 copiedStream copiedPixel (oneImage.insert 5 [1, 2, 3, 4] 4) := by
  have asks : lookedUp copiedStream copiedPixel oneImage = [6] := by decide +kernel
  refine ⟨asks, (dictionary_local copiedStream copiedPixel).1 _ _ ?_⟩
  rw [asks]
  decide +kernel

end Capsaicin.Glz
