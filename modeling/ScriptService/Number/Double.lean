/-!
# Binary floating-point numbers by their bits

A `Double` is a binary64 number held as its bit pattern, so that every operation on it is exact
integer arithmetic that a proof can see. The one rounding rule, nearest with ties to even, is
`ofRatio`; sums, products, quotients and conversions from integers are that rule applied to the
exact result.
-/

namespace ScriptService

/-- A binary64 number, held as its 64 bits. -/
structure Double where
  bits : UInt64
  deriving DecidableEq, Inhabited

namespace Double

/-! ## Parts of the bit pattern -/

/-- The place value of the sign bit. -/
def signBit : Nat := 0x8000000000000000

/-- The place value of the lowest exponent bit, which is also that of the leading bit which a
significand has above its fraction field. -/
def leadingBit : Nat := 0x10000000000000

/-- The bits below the sign. -/
def magnitude (x : Double) : Nat := x.bits.toNat % signBit

/-- Whether the sign bit is set. -/
def isNegative (x : Double) : Bool := decide (signBit ≤ x.bits.toNat)

/-- The biased exponent field. -/
def exponentField (x : Double) : Nat := x.magnitude / leadingBit

/-- The fraction field. -/
def fractionField (x : Double) : Nat := x.magnitude % leadingBit

/-- The magnitude bits of infinity; everything above them is not a number. -/
def infiniteMagnitude : Nat := 2047 * leadingBit

def isFinite (x : Double) : Bool := decide (x.magnitude < infiniteMagnitude)

def isNaN (x : Double) : Bool := decide (infiniteMagnitude < x.magnitude)

def isInfinite (x : Double) : Bool := x.magnitude == infiniteMagnitude

def isZero (x : Double) : Bool := x.magnitude == 0

/-- The number with the given sign and magnitude bits. -/
def ofMagnitude (negative : Bool) (magnitude : Nat) : Double :=
  ⟨UInt64.ofNat (magnitude + if negative then signBit else 0)⟩

def zero (negative : Bool) : Double := ofMagnitude negative 0

def infinity (negative : Bool) : Double := ofMagnitude negative infiniteMagnitude

def nan : Double := ofMagnitude false (infiniteMagnitude + leadingBit / 2)

def neg (x : Double) : Double := ofMagnitude (!x.isNegative) x.magnitude

/-- The integer `m` with `|x| = m * 2 ^ x.scale`, for a finite `x`. -/
def significand (x : Double) : Nat :=
  if x.exponentField = 0 then x.fractionField else x.fractionField + leadingBit

/-- The exponent `q` with `|x| = x.significand * 2 ^ q`, for a finite `x`. -/
def scale (x : Double) : Int :=
  if x.exponentField = 0 then -1074 else (x.exponentField : Int) - 1075

/-- The magnitude of a finite number as a quotient of natural numbers. -/
def ratio (x : Double) : Nat × Nat :=
  (x.significand * Nat.pow 2 x.scale.toNat, Nat.pow 2 (-x.scale).toNat)

/-! ## Rounding -/

/-- The quotient rounded to the nearest integer, a half to the even one. -/
def roundQuotient (num den : Nat) : Nat :=
  let q := num / den
  let twice := 2 * (num % den)
  if twice < den then q else if den < twice then q + 1 else q + q % 2

/--
The spacing, as a power of two, of the numbers near `num / den`: the significand then has 53
bits, and no spacing is finer than that of the least positive number.
-/
def spacing (num den : Nat) : Int :=
  let q : Int := (num.log2 : Int) - den.log2 - 53
  let wide := den * Nat.pow 2 (q + 53).toNat ≤ num * Nat.pow 2 (-(q + 53)).toNat
  max (if wide then q + 1 else q) (-1074)

/--
The number nearest to `num / den`, ties going to an even significand and everything beyond the
largest finite number to infinity. A significand that rounds up to 54 bits carries into the
exponent field by itself.
-/
def ofRatio (negative : Bool) (num den : Nat) : Double :=
  if num = 0 then zero negative
  else
    let q := spacing num den
    let m := roundQuotient (num * Nat.pow 2 (-q).toNat) (den * Nat.pow 2 q.toNat)
    ofMagnitude negative (min ((q + 1074).toNat * leadingBit + m) infiniteMagnitude)

/-- The number nearest to an integer. -/
def ofInt (i : Int) : Double := ofRatio (i < 0) i.natAbs 1

/-- The number nearest to a natural number. -/
def ofNat (n : Nat) : Double := ofRatio false n 1

/-! ## Arithmetic -/

protected def mul (x y : Double) : Double :=
  let sign := x.isNegative != y.isNegative
  if x.isNaN || y.isNaN then nan
  else if x.isInfinite || y.isInfinite then
    if x.isZero || y.isZero then nan else infinity sign
  else ofRatio sign (x.ratio.1 * y.ratio.1) (x.ratio.2 * y.ratio.2)

protected def div (x y : Double) : Double :=
  let sign := x.isNegative != y.isNegative
  if x.isNaN || y.isNaN then nan
  else if x.isInfinite then if y.isInfinite then nan else infinity sign
  else if y.isInfinite then zero sign
  else if y.isZero then if x.isZero then nan else infinity sign
  else ofRatio sign (x.ratio.1 * y.ratio.2) (x.ratio.2 * y.ratio.1)

/-- The signed numerator of a finite number over the denominator of `ratio`. -/
def signedNumerator (x : Double) : Int :=
  if x.isNegative then -(x.ratio.1 : Int) else x.ratio.1

protected def add (x y : Double) : Double :=
  if x.isNaN || y.isNaN then nan
  else if x.isInfinite then
    if y.isInfinite && x.isNegative != y.isNegative then nan else x
  else if y.isInfinite then y
  else
    let sum := x.signedNumerator * y.ratio.2 + y.signedNumerator * x.ratio.2
    -- A sum of zero is negative only if both terms are.
    if sum = 0 then zero (x.isNegative && y.isNegative)
    else ofRatio (sum < 0) sum.natAbs (x.ratio.2 * y.ratio.2)

/-! ## Comparison -/

/-- Numerical equality: the two zeros are equal and no number equals one that is not a number. -/
def sameNumber (x y : Double) : Bool :=
  !x.isNaN && !y.isNaN && (x == y || x.isZero && y.isZero)

/-- Whether the magnitude of `x` exceeds that of `y`; both must be numbers. -/
def exceeds (x y : Double) : Bool := decide (y.magnitude < x.magnitude)

end Double
end ScriptService
