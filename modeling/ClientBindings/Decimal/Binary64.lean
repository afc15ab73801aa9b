/-!
# Double-precision magnitudes

The magnitudes of double-precision numbers as exact pairs `mantissa · 2 ^ exponent`, with rounding
in natural numbers.

* `twoTo`, `tenTo`: powers of two and of ten.
* `roundDiv`: a quotient rounded to the nearest natural number, a half to the even one.
* `Binary64.ofRatio?`: the nearest double to a ratio; none beyond the largest.
* `Binary64.mul?`, `Binary64.div?`: the rounded product and quotient.
-/

namespace ClientBindings

/-- Two to the power `n`. -/
def twoTo (n : Nat) : Nat := Nat.pow 2 n

/-- Ten to the power `n`. -/
def tenTo (n : Nat) : Nat := Nat.pow 10 n

/-- The quotient rounded to the nearest natural number; a half goes to the even neighbour. -/
def roundDiv (num den : Nat) : Nat :=
  let q := num / den
  let twice := 2 * (num % den)
  if den < twice || (twice == den && q % 2 == 1) then q + 1 else q

/-- The magnitude `mantissa · 2 ^ exponent`. The mantissa of a normal double has 53 bits; a
subnormal one has the least exponent. -/
structure Binary64 where
  mantissa : Nat
  exponent : Int
  deriving DecidableEq, Repr

namespace Binary64

/-- The least exponent. -/
def minExponent : Int := -1074

/-- The exponent of the largest double. -/
def maxExponent : Int := 971

/-- The least mantissa of a normal double: two to the power 52. -/
def leastNormal : Nat := 0x10000000000000

/-- Zero. -/
def zero : Binary64 := ⟨0, minExponent⟩

/-- Numerator of the magnitude as a ratio of natural numbers. -/
def num (x : Binary64) : Nat := x.mantissa * twoTo x.exponent.toNat

/-- Denominator of the magnitude as a ratio of natural numbers. -/
def den (x : Binary64) : Nat := twoTo (-x.exponent).toNat

/-- `num / den` in units of `2 ^ exponent`, rounded. -/
def roundTo (exponent : Int) (num den : Nat) : Nat :=
  roundDiv (num * twoTo (-exponent).toNat) (den * twoTo exponent.toNat)

/-- The exponent at which `num / den` has 53 bits, or the least one. -/
def exponentOf (num den : Nat) : Int :=
  let guess : Int := (num.log2 : Int) - den.log2 - 52
  let tooLarge := num * twoTo (-guess).toNat < leastNormal * (den * twoTo guess.toNat)
  max minExponent (if tooLarge then guess - 1 else guess)

/-- The nearest double to `num / den`, a tie going to the even mantissa; none beyond the largest. -/
def ofRatio? (num den : Nat) : Option Binary64 :=
  if num = 0 then some zero
  else
    let exponent := exponentOf num den
    let mantissa := roundTo exponent num den
    let x : Binary64 :=
      if mantissa = 2 * leastNormal then ⟨leastNormal, exponent + 1⟩ else ⟨mantissa, exponent⟩
    if maxExponent < x.exponent then none else some x

/-- The rounded product. -/
def mul? (x y : Binary64) : Option Binary64 := ofRatio? (x.num * y.num) (x.den * y.den)

/-- The rounded quotient by a magnitude that is not zero. -/
def div? (x y : Binary64) : Option Binary64 := ofRatio? (x.num * y.den) (x.den * y.num)

end Binary64

end ClientBindings
