/-
The size check that every image codec makes before it allocates its output.
-/

import Mathlib.Algebra.Group.Nat.Defs

namespace Capsaicin

/-- The number of bytes of an image within the caps. The two `checked_mul` of the
source work on a 64-bit `usize`. -/
def checkDims {ε : Type} (tooLarge : Nat → Nat → ε) (maxDim maxBytes width height bpp : Nat) :
    Except ε Nat :=
  if width = 0 ∨ height = 0 ∨ width > maxDim ∨ height > maxDim then .error (tooLarge width height)
  else if 2 ^ 64 ≤ width * height ∨ 2 ^ 64 ≤ width * height * bpp then
    .error (tooLarge width height)
  else if width * height * bpp > maxBytes then .error (tooLarge width height)
  else .ok (width * height * bpp)

variable {ε : Type} {tooLarge : Nat → Nat → ε} {maxDim maxBytes width height bpp bytes : Nat}

theorem checkDims_of_caps (widthPositive : 0 < width) (heightPositive : 0 < height)
    (widthCap : width ≤ maxDim) (heightCap : height ≤ maxDim)
    (bytesCap : width * height * bpp ≤ maxBytes) (area : maxDim * maxDim < 2 ^ 64)
    (size : maxBytes < 2 ^ 64) :
    checkDims tooLarge maxDim maxBytes width height bpp = .ok (width * height * bpp) := by
  have small : width * height ≤ maxDim * maxDim := Nat.mul_le_mul widthCap heightCap
  unfold checkDims
  rw [if_neg (by omega), if_neg (by omega), if_neg (by omega)]

theorem checkDims_ok (accepted : checkDims tooLarge maxDim maxBytes width height bpp = .ok bytes) :
    bytes = width * height * bpp ∧ 0 < width ∧ 0 < height ∧ width ≤ maxDim ∧ height ≤ maxDim ∧
      width * height * bpp ≤ maxBytes := by
  unfold checkDims at accepted
  split at accepted
  · cases accepted
  · split at accepted
    · cases accepted
    · split at accepted
      · cases accepted
      · cases accepted
        omega

end Capsaicin
