/-
The dictionary of a session: decoded images by id, evicted oldest first once they
take more bytes than the window may hold.
-/

import Mathlib.Algebra.Group.Nat.Defs
import Mathlib.Data.List.AList
import Mathlib.Data.List.MinMax

namespace Capsaicin.Glz

structure WindowEntry where
  pixels : List UInt8
  bpp : Nat
  seq : Nat
  deriving DecidableEq, Repr

structure GlzWindow where
  images : AList fun _ : Nat => WindowEntry
  bytesUsed : Nat
  capacityBytes : Nat
  nextSeq : Nat

namespace GlzWindow

def new (capacityBytes : Nat) : GlzWindow where
  images := ∅
  bytesUsed := 0
  capacityBytes := max capacityBytes 1024
  nextSeq := 0

def default : GlzWindow := new (256 * 1024 * 1024)

def clear (window : GlzWindow) : GlzWindow := { window with images := ∅, bytesUsed := 0 }

def get (window : GlzWindow) (id : Nat) : Option WindowEntry := window.images.lookup id

/-- The `saturating_sub` of the source is the subtraction of `Nat`. -/
def remove (window : GlzWindow) (id : Nat) : GlzWindow :=
  match window.images.lookup id with
  | some old =>
      { window with
        images := window.images.erase id
        bytesUsed := window.bytesUsed - old.pixels.length }
  | none => window

def oldest (window : GlzWindow) : Option Nat :=
  (window.images.entries.argmin fun entry => entry.2.seq).map fun entry => entry.1

/-- The eviction loop, which removes an entry each time round. -/
def evict : Nat → GlzWindow → GlzWindow
  | 0, window => window
  | fuel + 1, window =>
      if window.bytesUsed > window.capacityBytes ∧ 1 < window.images.entries.length then
        match window.oldest with
        | some victim => evict fuel (window.remove victim)
        | none => window
      else window

def insert (window : GlzWindow) (id : Nat) (pixels : List UInt8) (bpp : Nat) : GlzWindow :=
  let entry := { pixels := pixels, bpp := bpp, seq := window.nextSeq }
  let kept := window.remove id
  evict (kept.images.entries.length + 1)
    { images := kept.images.insert id entry
      bytesUsed := kept.bytesUsed + pixels.length
      capacityBytes := window.capacityBytes
      nextSeq := (window.nextSeq + 1) % 2 ^ 64 }

/-! ### What a window holds -/

theorem get_remove {window : GlzWindow} {victim id : Nat} {entry : WindowEntry}
    (found : (window.remove victim).get id = some entry) :
    id ≠ victim ∧ window.get id = some entry := by
  unfold remove at found
  cases held : window.images.lookup victim with
  | none =>
      rw [held] at found
      refine ⟨?_, found⟩
      rintro rfl
      rw [get, held] at found
      cases found
  | some old =>
      rw [held] at found
      change (window.images.erase victim).lookup id = some entry at found
      by_cases same : id = victim
      · rw [same, AList.lookup_erase] at found
        cases found
      · rw [AList.lookup_erase_ne same] at found
        exact ⟨same, found⟩

theorem get_evict {window : GlzWindow} {fuel id : Nat} {entry : WindowEntry}
    (found : (evict fuel window).get id = some entry) : window.get id = some entry := by
  induction fuel generalizing window with
  | zero => exact found
  | succ fuel ih =>
      rw [evict] at found
      split at found
      · cases victim : window.oldest with
        | none =>
            rw [victim] at found
            exact found
        | some oldestId =>
            rw [victim] at found
            exact (get_remove (ih found)).2
      · exact found

theorem get_insert {window : GlzWindow} {id other bpp : Nat} {pixels : List UInt8}
    {entry : WindowEntry} (found : (window.insert id pixels bpp).get other = some entry) :
    (other = id ∧ entry.pixels = pixels ∧ entry.bpp = bpp) ∨
      (other ≠ id ∧ window.get other = some entry) := by
  have behind := get_evict found
  change ((window.remove id).images.insert id _).lookup other = some entry at behind
  by_cases same : other = id
  · subst same
    rw [AList.lookup_insert] at behind
    cases behind
    exact Or.inl ⟨rfl, rfl, rfl⟩
  · rw [AList.lookup_insert_ne same] at behind
    exact Or.inr ⟨same, (get_remove behind).2⟩

end GlzWindow

end Capsaicin.Glz
