import ScriptService.Number.Digits
import ScriptService.Json.Basic

/-!
# JSON numerals

A numeral without fraction and exponent that fits 64 bits is an integer. Every other numeral is a
floating-point number: its leading digits, as many as fit 64 bits, are rounded to a number, which
is then multiplied or divided by a rounded power of ten. A number too large to be finite cannot be
read, one too small becomes zero.
-/

namespace ScriptService.Json

/-- The parts of a numeral, digit by digit. -/
structure Numeral where
  negative : Bool
  whole : List Nat
  /-- The digits behind the point; empty exactly when there is no point. -/
  fraction : List Nat
  /-- The written exponent, if there is one. -/
  exponent : Option Int

namespace Numeral

/-- The digits at the front of a text, and the rest. -/
def digits : List Char → List Nat × List Char
  | [] => ([], [])
  | c :: r =>
    match Digits.value? c with
    | some d => (d :: (digits r).1, (digits r).2)
    | none => ([], c :: r)

/-- At least one digit. -/
def digits1? (cs : List Char) : Option (List Nat × List Char) :=
  match digits cs with
  | ([], _) => none
  | found => some found

/-- The part behind a point, if there is a point. -/
def readFraction : List Char → Option (List Nat × List Char)
  | '.' :: r => digits1? r
  | r => some ([], r)

/-- The digits of an exponent with their sign. -/
def readSigned : List Char → Option (Int × List Char)
  | '-' :: r => (digits1? r).map fun (ds, r) => (-(Digits.toNat 10 ds : Int), r)
  | '+' :: r => (digits1? r).map fun (ds, r) => ((Digits.toNat 10 ds : Int), r)
  | r => (digits1? r).map fun (ds, r) => ((Digits.toNat 10 ds : Int), r)

def readExponent : List Char → Option (Option Int × List Char)
  | 'e' :: r => (readSigned r).map fun (e, r) => (some e, r)
  | 'E' :: r => (readSigned r).map fun (e, r) => (some e, r)
  | r => some (none, r)

/-- A numeral without its sign; the whole part has no leading zero. -/
def readUnsigned (negative : Bool) (cs : List Char) : Option (Numeral × List Char) := do
  let (whole, r) ← digits1? cs
  if whole.head? = some 0 ∧ whole.length ≠ 1 then none
  let (fraction, r) ← readFraction r
  let (exponent, r) ← readExponent r
  return (⟨negative, whole, fraction, exponent⟩, r)

/-- A numeral at the front of a text, and the rest. -/
def read : List Char → Option (Numeral × List Char)
  | '-' :: r => readUnsigned true r
  | r => readUnsigned false r

/-- Appends digits to a significand while it fits 64 bits; also the number of digits left over. -/
def collect (significand : Nat) : List Nat → Nat × Nat
  | [] => (significand, 0)
  | d :: rest =>
    if significand * 10 + d < UInt64.size then collect (significand * 10 + d) rest
    else (significand, rest.length + 1)

/-- Divides by `10 ^ 308` at most `fuel` times, until the exponent is in range or nothing is left
of the number. -/
def scaleDown : Nat → Double → Nat → Double
  | 0, x, _ => x
  | fuel + 1, x, e =>
    if e ≤ 308 then x.div (Double.ofNat (Nat.pow 10 e))
    else if x.isZero then x
    else scaleDown fuel (x.div (Double.ofNat (Nat.pow 10 308))) (e - 308)

/-- `x * 10 ^ e`, unless that is too large. Three divisions by `10 ^ 308` leave nothing of a
number below `2 ^ 64`. -/
def scale? (x : Double) (e : Int) : Option Double :=
  if e < 0 then some (scaleDown 4 x e.natAbs)
  else if e ≤ 308 then
    let y := x.mul (Double.ofNat (Nat.pow 10 e.toNat))
    if y.isFinite then some y else none
  else if x.isZero then some x
  else none

/-- The numeral as a floating-point number. -/
def real? (n : Numeral) : Option Double := do
  let (significand, dropped) := collect 0 n.whole
  let (significand, unread) := collect significand n.fraction
  let exponent : Int :=
    (dropped : Int) - (n.fraction.length - unread : Nat) + n.exponent.getD 0
  let x ← scale? (Double.ofNat significand) exponent
  return if n.negative then x.neg else x

/-- Whether the numeral is spelled as an integer. -/
def isInteger (n : Numeral) : Bool := n.fraction.isEmpty && n.exponent.isNone

/-- The document that a numeral denotes. -/
def toJson (n : Numeral) : Json :=
  let value := Digits.toNat 10 n.whole
  if n.isInteger && !n.negative && value < UInt64.size then .int value
  else if n.isInteger && n.negative && 0 < value && value ≤ UInt64.size / 2 then .int (-value)
  else n.real?.elim .unreadable .real

end Numeral
end ScriptService.Json
