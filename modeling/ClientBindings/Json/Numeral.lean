import ClientBindings.Decimal.Shortest

/-!
# Numerals of JSON documents

A number as it is spelled, the value it is read as, and the text that value is written with.

* `Numeral.value?`: an integer of 64 bits where the spelling is one, else a double; none for a
  magnitude beyond the doubles.
* A double is read from the digits that fit a word of 64 bits, times or divided by one power of
  ten (`Numeral.magnitude?`); later digits are dropped.
* `Number.text`: integers as they are; doubles with the fewest digits, positional from `1e-5`
  below `1e16` and with an exponent elsewhere.
-/

namespace ClientBindings

/-- The spelling of a number. -/
structure Numeral where
  negative : Bool
  whole : List Nat
  fraction : List Nat
  /-- The sign of the exponent (`true` for a minus) and its digits. -/
  exponent : Option (Bool × List Nat)
  deriving DecidableEq, Repr

/-- The value of a number. -/
inductive Number
  | natural (n : Nat)
  | negative (n : Nat)
  | double (negative : Bool) (magnitude : Binary64)
  deriving DecidableEq, Repr

namespace Numeral

/-! ## Reading -/

/-- The largest significand: that of an unsigned word of 64 bits. -/
def maxSignificand : Nat := 0xFFFFFFFFFFFFFFFF

/-- The largest magnitude of a negative integer: that of a signed word of 64 bits. -/
def maxNegative : Nat := 0x8000000000000000

/-- Takes digits while the significand fits; the significand and the digits left over. -/
def takeDigits (significand : Nat) : List Nat → Nat × List Nat
  | [] => (significand, [])
  | digit :: rest =>
    let next := significand * 10 + digit
    if next ≤ maxSignificand then takeDigits next rest else (significand, digit :: rest)

/-- The significand, and the power of ten that goes with it. -/
def significand (n : Numeral) : Nat × Int :=
  let (whole, dropped) := takeDigits 0 n.whole
  let (all, left) := takeDigits whole n.fraction
  (all, (dropped.length : Int) - ((n.fraction.length - left.length : Nat) : Int))

/-- The number that digits spell. -/
def ofDigits (digits : List Nat) : Nat := digits.foldl (fun n digit => n * 10 + digit) 0

/-- The exponent as it is written. -/
def writtenExponent (n : Numeral) : Int :=
  match n.exponent with
  | none => 0
  | some (true, digits) => -(ofDigits digits : Int)
  | some (false, digits) => ofDigits digits

/-- The largest power of ten that is a double. -/
def maxPower : Nat := 308

/-- Ten to the `power` as a double. -/
def powerOfTen? (power : Nat) : Option Binary64 := Binary64.ofRatio? (tenTo power) 1

/-- `x` divided by the largest power `steps` times, unless nothing is left before, and then by ten
to the `power`. -/
def scaleDown? : Nat → Nat → Binary64 → Option Binary64
  | 0, power, x => (powerOfTen? power).bind x.div?
  | steps + 1, power, x =>
    match (powerOfTen? maxPower).bind x.div? with
    | none => none
    | some y => if y.mantissa = 0 then some y else scaleDown? steps power y

/-- `x` times ten to the `power`. -/
def scaleUp? (x : Binary64) (power : Nat) : Option Binary64 :=
  if power ≤ maxPower then (powerOfTen? power).bind x.mul?
  else if x.mantissa = 0 then some x else none

/-- The double that the numeral without its sign is read as. -/
def magnitude? (n : Numeral) : Option Binary64 := do
  let (significand, power) := n.significand
  let x ← Binary64.ofRatio? significand 1
  let total := power + n.writtenExponent
  if total < 0 then
    let steps := ((-total).toNat - 1) / maxPower
    scaleDown? steps ((-total).toNat - steps * maxPower) x
  else scaleUp? x total.toNat

/-- Whether the numeral has neither fraction nor exponent. -/
def isInteger (n : Numeral) : Bool := n.fraction.isEmpty && n.exponent.isNone

/-- The value of the numeral; none beyond the doubles. The integers are those of 64 bits, and a
negative zero is a double. -/
def value? (n : Numeral) : Option Number :=
  let whole := ofDigits n.whole
  if n.isInteger ∧ n.negative = false ∧ whole ≤ maxSignificand then some (.natural whole)
  else if n.isInteger ∧ n.negative ∧ 0 < whole ∧ whole ≤ maxNegative then some (.negative whole)
  else n.magnitude?.map (.double n.negative)

end Numeral

namespace Number

/-! ## Writing -/

/-- Digits with the decimal point after the first `point` of them, zeros filling up. -/
def positional (digits : List Char) (point : Int) : List Char :=
  if point ≤ 0 then '0' :: '.' :: (List.replicate (-point).toNat '0' ++ digits)
  else
    let whole := point.toNat
    let filled := digits.take whole ++ List.replicate (whole - digits.length) '0'
    let fraction := digits.drop whole
    filled ++ '.' :: (if fraction.isEmpty then ['0'] else fraction)

/-- Digits with a point after the first one and an exponent with its sign. -/
def scientific (digits : List Char) (exponent : Int) : List Char :=
  let mantissa := match digits with
    | first :: next :: rest => first :: '.' :: next :: rest
    | few => few
  let sign := if exponent < 0 then '-' else '+'
  mantissa ++ 'e' :: sign :: Nat.toDigits 10 exponent.natAbs

/-- A magnitude with the fewest digits: positional from `1e-5` below `1e16`. -/
def magnitudeText (x : Binary64) : List Char :=
  if x.mantissa = 0 then ['0', '.', '0']
  else
    let d := x.shortest
    let digits := Nat.toDigits 10 d.digits
    let point : Int := digits.length + d.exponent
    if -5 < point ∧ point ≤ 16 then positional digits point else scientific digits (point - 1)

/-- The text of a number. -/
def text : Number → String
  | .natural n => String.ofList (Nat.toDigits 10 n)
  | .negative n => String.ofList ('-' :: Nat.toDigits 10 n)
  | .double minus x =>
    String.ofList (if minus then '-' :: magnitudeText x else magnitudeText x)

end Number

end ClientBindings
