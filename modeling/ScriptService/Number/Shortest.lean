import ScriptService.Number.Double
import ScriptService.Number.Digits

/-!
# Shortest decimals

`Decimal.shortest x` is the decimal with the fewest digits that rounds to the finite number `x`,
and of those with as few digits the one nearest to `x`. The reals that round to `x` form an
interval, ends included exactly when the significand is even; each grid of `n` decimal digits is
tried in turn, and on a grid only the two neighbours of `x` matter.
-/

namespace ScriptService

/-- The decimal `digits * 10 ^ exponent`. -/
structure Decimal where
  digits : Nat
  exponent : Int
  deriving DecidableEq

namespace Decimal

/-- The number of decimal digits of a natural number. -/
def width (n : Nat) : Nat := (Digits.inBase 10 n).length

/-- The exponent of the leading digit of a positive quotient: the greatest `e` with
`10 ^ e ≤ num / den`. -/
def leadingExponent (num den : Nat) : Int :=
  let e : Int := (width num : Int) - width den
  if den * Nat.pow 10 e.toNat ≤ num * Nat.pow 10 (-e).toNat then e else e - 1

/-- Drops trailing zeros, at most `fuel` of them. -/
def trim : Nat → Decimal → Decimal
  | 0, d => d
  | fuel + 1, d =>
    if d.digits % 10 = 0 ∧ d.digits ≠ 0 then trim fuel ⟨d.digits / 10, d.exponent + 1⟩ else d

/--
The reals that round to a positive finite number: `low` and `high` over the common denominator
`unit`, with the number itself at `centre`.
-/
structure Interval where
  low : Nat
  centre : Nat
  high : Nat
  unit : Nat
  closed : Bool

/-- The rounding interval of a positive finite number. Below a power of two the numbers lie twice
as densely, so the lower half-gap is half as wide there. -/
def interval (x : Double) : Interval :=
  let m := x.significand
  let up := Nat.pow 2 x.scale.toNat
  -- The factor of four makes the half and the quarter gap whole numbers.
  let lower := if x.fractionField = 0 ∧ 1 < x.exponentField then 1 else 2
  { low := (4 * m - lower) * up
    centre := 4 * m * up
    high := (4 * m + 2) * up
    unit := 4 * Nat.pow 2 (-x.scale).toNat
    closed := m % 2 = 0 }

/-- Whether `num / den` lies in the interval. -/
def Interval.contains (i : Interval) (num den : Nat) : Bool :=
  let at_ := num * i.unit
  if i.closed then decide (i.low * den ≤ at_) && decide (at_ ≤ i.high * den)
  else decide (i.low * den < at_) && decide (at_ < i.high * den)

/-- The better of the two neighbours of the interval's centre on the grid of multiples of
`10 ^ exponent`, if one of them lies in the interval. -/
def onGrid (i : Interval) (exponent : Int) : Option Decimal :=
  let num := Nat.pow 10 exponent.toNat
  let den := Nat.pow 10 (-exponent).toNat
  let below := i.centre * den / (i.unit * num)
  let rest := 2 * (i.centre * den % (i.unit * num))
  let lowHit := i.contains (below * num) den
  let highHit := i.contains ((below + 1) * num) den
  let step := i.unit * num
  -- Of two neighbours that both read back, the nearer one counts, and a tie goes to the even one.
  let upper := rest > step || rest == step && below % 2 == 1
  match lowHit, highHit with
  | true, true => some ⟨if upper then below + 1 else below, exponent⟩
  | true, false => some ⟨below, exponent⟩
  | false, true => some ⟨below + 1, exponent⟩
  | false, false => none

/-- Tries grids of one digit more each time; the finest one takes the nearer neighbour. -/
def search (i : Interval) (leading : Int) : Nat → Nat → Decimal
  | 0, n => ((onGrid i (leading - n)).getD ⟨0, 0⟩)
  | left + 1, n =>
    match onGrid i (leading - n) with
    | some d => d
    | none => search i leading left (n + 1)

/-- The shortest decimal that reads back as the magnitude of a finite number; seventeen digits
always suffice. -/
def shortest (x : Double) : Decimal :=
  if x.isZero then ⟨0, 0⟩
  else
    let i := interval x
    trim 17 (search i (leadingExponent i.centre i.unit) 17 0)

end Decimal
end ScriptService
