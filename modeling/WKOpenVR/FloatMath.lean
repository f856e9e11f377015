import WKOpenVR.FloatArith
import Mathlib.Analysis.Real.Sqrt

/-!
# Functions of floats

The arithmetic with division and with functions of `<cmath>`, and the rounding of a
`double` to a `float`. Again no law is assumed. The real numbers are an instance, in which
nothing is rounded.
-/

namespace WKOpenVR

/-- The arithmetic of the code, with division, roots and `float`s. -/
class FloatMath (K : Type*) extends FloatArith K, Div K where
  sqrt : K → K
  hypot : K → K → K
  /-- A `double` as a `float`. -/
  toFloat : K → K

namespace FloatMath

open FloatArith

variable {K : Type*} [FloatMath K]

/-- `std::min`. -/
def min (a b : K) : K := if b < a then b else a

/-- The value of a natural number. -/
def ofNat (n : ℕ) : K := lit n

/-- Numbers without rounding. -/
noncomputable instance : FloatMath ℝ where
  decidableLT := inferInstance
  decidableLE := inferInstance
  lit q := q
  isFinite _ := true
  sqrt := Real.sqrt
  hypot x y := Real.sqrt (x * x + y * y)
  toFloat x := x

end FloatMath

end WKOpenVR
