/-
From display events to the framebuffer. The viewer has one framebuffer and paints every
region and every copy on it, whichever surface it belongs to.
-/

import Capsaicin.Client.Events
import Capsaicin.Library.Erasure
import Capsaicin.Viewer.Hostile

namespace Capsaicin.Viewer

open Client (DisplayEvent RegionPixels)
open Program (Returns checkI32 checkU32)
open Proto (Rect)

/-! ### Messages to the window -/

/-- The error of a closed connection is only logged. -/
inductive PaintMsg where
  | surfaceCreated (width height : Nat)
  | region (rect : Rect) (pixels : RegionPixels)
  | streamFrame (rect : Rect) (pixels : RegionPixels)
  | copyRect (srcX srcY : Int) (destRect : Rect)
  | closed
  deriving DecidableEq, Repr

def displayEventToPaint : DisplayEvent → Option PaintMsg
  | .surfaceCreated _ width height _ primary =>
      if primary then some (.surfaceCreated width height) else none
  | .region _ rect pixels _ => some (.region rect pixels)
  | .streamFrame _ _ destRect pixels => some (.streamFrame destRect pixels)
  | .copyRect _ srcX srcY destRect => some (.copyRect srcX srcY destRect)
  | _ => none

namespace ViewerApp

def paintPixels (viewer : ViewerApp) (rect : Rect) : RegionPixels → Except PaintFault ViewerApp
  | .solidColor color => viewer.fillRect rect (bgra32ToSoftbuffer color)
  | .raw data stride => viewer.blitRaw rect data stride

def paint (viewer : ViewerApp) : PaintMsg → Except PaintFault ViewerApp
  | .surfaceCreated width height => .ok (viewer.resizeFb width height)
  | .region rect pixels => viewer.paintPixels rect pixels
  | .streamFrame rect pixels => viewer.paintPixels rect pixels
  | .copyRect srcX srcY destRect => viewer.copyRect srcX srcY destRect
  | .closed => .ok { viewer with shouldExit := true }

/-- All that is in the queue, and whether the window has to be drawn again. -/
def drainPaint (viewer : ViewerApp) : List PaintMsg → Except PaintFault (ViewerApp × Bool)
  | [] => .ok (viewer, false)
  | msg :: rest => do
      let next ← viewer.paint msg
      let (last, needsRedraw) ← next.drainPaint rest
      .ok (last, msg ≠ .closed || needsRedraw)

def receive (viewer : ViewerApp) (event : DisplayEvent) : Except PaintFault ViewerApp :=
  match displayEventToPaint event with
  | some msg => viewer.paint msg
  | none => .ok viewer

/-! ### Runs -/

variable {viewer : ViewerApp}

theorem paint_returns (sound : viewer.Sound) (msg : PaintMsg) :
    Returns (viewer.paint msg) Sound := by
  have pixels (rect : Rect) (data : RegionPixels) : Returns (viewer.paintPixels rect data) Sound := by
    cases data with
    | solidColor color => exact fillRect_returns sound rect _
    | raw data stride => exact blitRaw_returns sound rect data stride
  cases msg with
  | surfaceCreated width height => exact .ok (sound.resizeFb width height)
  | region rect data => exact pixels rect data
  | streamFrame rect data => exact pixels rect data
  | copyRect srcX srcY destRect => exact copyRect_returns sound srcX srcY destRect
  | closed =>
      exact .ok { area := sound.area, width := sound.width, height := sound.height }

theorem receive_returns (sound : viewer.Sound) (event : DisplayEvent) :
    Returns (viewer.receive event) Sound := by
  unfold receive
  cases displayEventToPaint event with
  | none => exact .ok sound
  | some msg => exact paint_returns sound msg

/-- What is painted of some events is what a run over them leaves. -/
theorem drainPaint_eq_run (events : List DisplayEvent) :
    (viewer.drainPaint (events.filterMap displayEventToPaint)).map Prod.fst =
      Erasure.run receive viewer events := by
  induction events generalizing viewer with
  | nil => rfl
  | cons event rest ih =>
      rw [Erasure.run, receive]
      cases sent : displayEventToPaint event with
      | none =>
          rw [List.filterMap_cons_none sent]
          exact ih
      | some msg =>
          rw [List.filterMap_cons_some sent, drainPaint]
          dsimp only
          cases painted : viewer.paint msg with
          | error fault => rfl
          | ok next =>
              dsimp only
              rw [← ih]
              change ((next.drainPaint _) >>= fun last => _).map Prod.fst = _
              cases next.drainPaint (rest.filterMap displayEventToPaint) with
              | error fault => rfl
              | ok last => rfl

/-! ### Surfaces that are not visible -/

/-- Events other than drawing on a surface that is not `primary`. -/
def visible (primary : Nat) : DisplayEvent → Bool
  | .region surfaceId _ _ _ => surfaceId = primary
  | .copyRect surfaceId _ _ _ => surfaceId = primary
  | _ => true

/-- A drawing that finds nothing of its rectangle on the framebuffer, or a copy that finds
nothing to copy. -/
def Misses (viewer : ViewerApp) : DisplayEvent → Prop
  | .region _ rect (.solidColor _) _ =>
      let c := clampRect rect viewer.fbW viewer.fbH
      c.bottom ≤ c.top ∨ c.right = c.left
  | .region _ rect (.raw _ stride) _ =>
      let c := clampRect rect viewer.fbW viewer.fbH
      ∃ width height : Int, rect.width (ε := Empty) = .ok width ∧
        rect.height (ε := Empty) = .ok height ∧
          (width = 0 ∨ height = 0 ∨ c.bottom ≤ c.top ∨
            c.right ≤ c.left ∧ (c.bottom - 1 - rect.top) * stride < 2 ^ 32)
  | .copyRect _ srcX srcY destRect => viewer.CopiesNothing srcX srcY destRect
  | _ => False

theorem receive_misses (sound : viewer.Sound) {primary : Nat} {event : DisplayEvent}
    (hidden : visible primary event = false) (misses : viewer.Misses event) :
    viewer.receive event = .ok viewer := by
  cases event with
  | region surfaceId rect pixels format =>
      cases pixels with
      | solidColor color => exact fillRect_misses sound _ misses
      | raw data stride =>
          rcases misses with ⟨width, height, wide, high, empty⟩
          exact blitRaw_misses sound data wide high empty
  | copyRect surfaceId srcX srcY destRect =>
      exact copyRect_nothing ((copyPlan_none_iff sound).mpr misses)
  | _ => cases hidden

/-- Two runs that differ in drawings on other surfaces leave the same framebuffer, as long
as none of these drawings meets it. -/
theorem other_surfaces_ignored (primary : Nat) (sound : viewer.Sound) {events events' : List DisplayEvent}
    (missing : Erasure.Throughout receive (visible primary) Misses viewer events)
    (missing' : Erasure.Throughout receive (visible primary) Misses viewer events')
    (same : events.filter (visible primary) = events'.filter (visible primary)) :
    (viewer.drainPaint (events.filterMap displayEventToPaint)).map Prod.fst =
      (viewer.drainPaint (events'.filterMap displayEventToPaint)).map Prod.fst := by
  rw [drainPaint_eq_run, drainPaint_eq_run]
  apply Erasure.run_agrees _ _ sound missing missing' same
  · intro state event next kept stepped
    exact receive_returns kept event next stepped
  · intro state event kept hidden misses
    exact receive_misses kept hidden misses

def desktop : DisplayEvent := .surfaceCreated 0 1 1 .xrgb8888 true

def hiddenFill (x y : Int) : DisplayEvent :=
  .region 1 ⟨y, x, y + 1, x + 1⟩ (.solidColor 0xFF) .xrgb8888

theorem other_surfaces_ignored_far :
    (new.drainPaint ([desktop, hiddenFill 5 5].filterMap displayEventToPaint)).map Prod.fst =
      (new.drainPaint ([desktop].filterMap displayEventToPaint)).map Prod.fst := by
  have seen : visible 0 desktop ≠ false := by decide
  have far : Erasure.Throughout receive (visible 0) Misses new [desktop, hiddenFill 5 5] := by
    refine ⟨fun hidden => absurd hidden seen, ?_⟩
    intro next created
    cases created
    exact ⟨fun _hidden => Or.inl (by decide), fun _next _painted => trivial⟩
  have alone : Erasure.Throughout receive (visible 0) Misses new [desktop] :=
    ⟨fun hidden => absurd hidden seen, fun _next _created => trivial⟩
  exact other_surfaces_ignored 0 sound_new far alone rfl

/-- Within the bounds of the framebuffer the same drawing is painted. -/
theorem other_surface_painted :
    [desktop, hiddenFill 0 0].filter (visible 0) = [desktop].filter (visible 0) ∧
      (new.drainPaint ([desktop, hiddenFill 0 0].filterMap displayEventToPaint)).map Prod.fst =
        .ok { fb := [255], fbW := 1, fbH := 1, shouldExit := false } ∧
      (new.drainPaint ([desktop].filterMap displayEventToPaint)).map Prod.fst =
        .ok { fb := [0], fbW := 1, fbH := 1, shouldExit := false } := by
  refine ⟨rfl, ?_, ?_⟩
  · decide +kernel
  · decide +kernel

end ViewerApp

end Capsaicin.Viewer
