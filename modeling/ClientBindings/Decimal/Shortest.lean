import ClientBindings.Decimal.Binary64

/-!
# Shortest decimals

The fewest decimal digits that still denote a given double.

* `Binary64.roundsTo`: whether a decimal lies among the reals that round to a magnitude.
* `Binary64.shortest`: of the decimals with the fewest digits that do, the nearest one; of two
  equally near, the even one.
-/

namespace ClientBindings

/-- The decimal `digits · 10 ^ exponent`. -/
structure Decimal where
  digits : Nat
  exponent : Int
  deriving DecidableEq, Repr

namespace Decimal

/-- Numerator as a ratio of natural numbers. -/
def num (d : Decimal) : Nat := d.digits * tenTo d.exponent.toNat

/-- Denominator as a ratio of natural numbers. -/
def den (d : Decimal) : Nat := tenTo (-d.exponent).toNat

/-- The same decimal without zeros at the end of its digits, at most `fuel` of them. -/
def strip : Nat → Decimal → Decimal
  | 0, d => d
  | fuel + 1, d =>
    if d.digits % 10 = 0 then strip fuel ⟨d.digits / 10, d.exponent + 1⟩ else d

end Decimal

namespace Binary64

/-- The lower end, in quarters of a unit, of the reals that round to `x`. Below a power of two the
doubles lie twice as close. -/
def lowerQuarters (x : Binary64) : Nat :=
  if x.mantissa = leastNormal ∧ minExponent < x.exponent then 4 * x.mantissa - 1
  else 4 * x.mantissa - 2

/-- The upper end, in quarters of a unit. -/
def upperQuarters (x : Binary64) : Nat := 4 * x.mantissa + 2

/-- Whether `d` rounds to `x`; the ends of the interval do iff the mantissa is even. -/
def roundsTo (x : Binary64) (d : Decimal) : Bool :=
  let unit : Binary64 := ⟨1, x.exponent - 2⟩
  let value := d.num * unit.den
  let lower := x.lowerQuarters * (unit.num * d.den)
  let upper := x.upperQuarters * (unit.num * d.den)
  if x.mantissa % 2 = 0 then lower ≤ value && value ≤ upper else lower < value && value < upper

/-- The place of `x` beside the midpoint of `d` and `e`. -/
def besideMidpoint (x : Binary64) (d e : Decimal) : Ordering :=
  compare (2 * (x.num * d.den * e.den)) ((d.num * e.den + e.num * d.den) * x.den)

/-- Of two neighbouring decimals around `x` the nearer one; from the midpoint, the one whose last
digit is even. -/
def nearer (x : Binary64) (below above : Decimal) : Decimal :=
  match x.besideMidpoint below above with
  | .lt => below
  | .eq => if below.digits % 2 = 0 then below else above
  | .gt => above

/-- The number of decimal digits. -/
def digitCount (n : Nat) : Nat := (Nat.toDigits 10 n).length

/-- The power of ten just above a magnitude that is not zero. -/
def pointOf (x : Binary64) : Int :=
  let guess : Int := (digitCount x.num : Int) - digitCount x.den
  if x.den * tenTo guess.toNat ≤ x.num * tenTo (-guess).toNat then guess + 1 else guess

/-- The decimal of `count` digits next to `x` that rounds to it; of two, the `nearer` one. -/
def candidate? (x : Binary64) (count : Nat) : Option Decimal :=
  let exponent := x.pointOf - count
  let below : Decimal :=
    ⟨x.num * tenTo (-exponent).toNat / (x.den * tenTo exponent.toNat), exponent⟩
  let above : Decimal := ⟨below.digits + 1, exponent⟩
  match x.roundsTo below, x.roundsTo above with
  | true, true => some (x.nearer below above)
  | true, false => some below
  | false, true => some above
  | false, false => none

/-- The decimal with the fewest digits that rounds to `x`, and of those the nearest. Seventeen
digits are always enough. -/
def shortest (x : Binary64) : Decimal :=
  match (List.range 17).findSome? (fun i => x.candidate? (i + 1)) with
  | some d => d.strip 18
  | none => ⟨0, 0⟩

end Binary64

end ClientBindings
