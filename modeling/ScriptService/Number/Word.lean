import ScriptService.Number.Digits

/-!
# Numerals of 64-bit numbers

A numeral is a list of decimal digits, after a plus sign if one likes. Digits are read from left
to right until one of them is no digit or makes the number too large.
-/

namespace ScriptService

/-- Why a text is no numeral of a 64-bit number. -/
inductive NumeralError where
  | empty
  | invalidDigit
  | tooLarge
  deriving DecidableEq, Inhabited

/-- What is said of a text that is no numeral. -/
def NumeralError.message : NumeralError → String
  | empty => "cannot parse integer from empty string"
  | invalidDigit => "invalid digit found in string"
  | tooLarge => "number too large to fit in target type"

namespace Word

/-- Reads digits after those that make `n`. -/
def readDigits (n : Nat) : List Char → Except NumeralError Nat
  | [] => .ok n
  | c :: rest =>
    match Digits.value? c with
    | none => .error .invalidDigit
    | some d => if n * 10 + d < UInt64.size then readDigits (n * 10 + d) rest else .error .tooLarge

/-- Reads a numeral. A sign without digits counts as a digit that is none. -/
def read : List Char → Except NumeralError Nat
  | [] => .error .empty
  | '+' :: c :: rest => readDigits 0 (c :: rest)
  | cs => readDigits 0 cs

end Word
end ScriptService
