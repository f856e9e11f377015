import Mathlib.Algebra.Order.Ring.Rat

/-!
# The arithmetic of floats

The numbers of a program, with the operations it uses on them. No law is assumed: they
may be the floats, with their rounding, and with values that are not numbers. Numbers
without rounding are one instance.
-/

namespace WKOpenVR

/-- The arithmetic of the code. -/
class FloatArith (K : Type*) extends Add K, Sub K, Mul K, LT K, LE K where
  decidableLT : DecidableLT K
  decidableLE : DecidableLE K
  /-- The value of a literal. -/
  lit : ℚ → K
  isFinite : K → Bool

namespace FloatArith

variable {K : Type*} [FloatArith K]

instance : DecidableLT K := decidableLT

instance : DecidableLE K := decidableLE

/-- `std::max`. -/
def max (a b : K) : K := if a < b then b else a

/-- `std::clamp`. -/
def clamp (v lo hi : K) : K := if v < lo then lo else if hi < v then hi else v

/-- `std::fabs`. -/
def fabs (v : K) : K := if v < lit 0 then lit 0 - v else v

/-- The comparison `==`, which no value that is not a number passes. -/
def eq (a b : K) : Bool := decide (a ≤ b ∧ b ≤ a)

/-- Numbers without rounding. -/
instance : FloatArith ℚ where
  decidableLT := inferInstance
  decidableLE := inferInstance
  lit q := q
  isFinite _ := true

end FloatArith

end WKOpenVR
