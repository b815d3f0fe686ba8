import ScriptService.Number.Shortest

/-!
# Layouts of decimals

All texts of floating-point numbers share their digits (`Decimal.shortest`) and differ in a few
decisions, which a `Layout` records: when the text is scientific, whether whole numbers show a
fraction, whether a positive exponent has a sign.
-/

namespace ScriptService

/-- The decisions that a text of floating-point numbers makes. -/
structure Layout where
  /-- Which nonzero finite numbers are written with an exponent. -/
  scientific : Double → Bool
  /-- Whether a whole number in positional notation ends in `.0`. -/
  wholePoint : Bool
  /-- Whether a positive exponent is written with its sign. -/
  exponentPlus : Bool
  /-- Whether negative zero keeps its sign. -/
  negativeZero : Bool

namespace Layout

/-- Positional notation of a decimal. -/
def positional (layout : Layout) (d : Decimal) : List Char :=
  let text := Digits.ofNat d.digits
  if 0 ≤ d.exponent then
    text ++ List.replicate d.exponent.toNat '0' ++ (if layout.wholePoint then ['.', '0'] else [])
  else
    let places := (-d.exponent).toNat
    let padded := Digits.padLeft (places + 1) '0' text
    let whole := padded.length - places
    padded.take whole ++ '.' :: padded.drop whole

/-- Scientific notation of a decimal: one digit, the rest behind a point, and the exponent. -/
def exponential (layout : Layout) (d : Decimal) : List Char :=
  let text := Digits.ofNat d.digits
  let exponent : Int := d.exponent + (text.length - 1 : Nat)
  let rest := text.drop 1
  text.take 1 ++ (if rest.isEmpty then [] else '.' :: rest) ++
    'e' :: (if layout.exponentPlus ∧ 0 ≤ exponent then ['+'] else []) ++ Digits.ofInt exponent

/-- The text of a number. -/
def render (layout : Layout) (x : Double) : List Char :=
  if x.isNaN then "NaN".toList
  else
    let sign := if x.isNegative ∧ (layout.negativeZero ∨ !x.isZero) then ['-'] else []
    if x.isInfinite then sign ++ "inf".toList
    else
      let d := Decimal.shortest x
      sign ++ if !x.isZero && layout.scientific x then layout.exponential d else layout.positional d

/-- The magnitude of a number is at least `10 ^ e`. -/
def atLeastPower (e : Nat) (x : Double) : Bool := !(Double.ofNat (Nat.pow 10 e)).exceeds x

/-- The magnitude of a number is below `10 ^ -e`. -/
def belowPower (e : Nat) (x : Double) : Bool := (Double.ofRatio false 1 (Nat.pow 10 e)).exceeds x

/-- Always positional, and whole numbers look like integers. -/
def plain : Layout where
  scientific := fun _ => false
  wholePoint := false
  exponentPlus := false
  negativeZero := true

/-- Positional from `10 ^ -4` up to but excluding `10 ^ 16`, always with a fraction. -/
def detailed : Layout where
  scientific := fun x => atLeastPower 16 x || belowPower 4 x
  wholePoint := true
  exponentPlus := false
  negativeZero := true

/-- Positional from `10 ^ -5` up to but excluding `10 ^ 16`, always with a fraction; exponents are
signed. -/
def interchange : Layout where
  scientific := fun x => atLeastPower 16 x || belowPower 5 x
  wholePoint := true
  exponentPlus := true
  negativeZero := true

/-- What script text uses: positional between two bounds that lie a little inside `10 ^ -13` and
`10 ^ 13`, always with a fraction, and zero without a sign. -/
def script : Layout where
  scientific := fun x =>
    x.exceeds (Double.ofNat 9999999827968) ||
      (Double.ofRatio false 99999998245167 (Nat.pow 10 27)).exceeds x
  wholePoint := true
  exponentPlus := false
  negativeZero := false

end Layout
end ScriptService
