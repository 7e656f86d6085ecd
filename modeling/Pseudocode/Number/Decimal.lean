-- Decimal numerals: an unsigned number of digits with a point and an exponent,
-- as the whole number its digits make and the power of ten that scales it.
import Pseudocode.Text.Classes

namespace Pseudocode

open Text

/-- The number `digits * 10 ^ exponent`. -/
structure Decimal where
  digits : Nat
  exponent : Int
  deriving Repr, DecidableEq

namespace Decimal

/-- The powers of ten as whole numbers. -/
def powerOfTen (n : Nat) : Nat := Nat.pow 10 n

/-! ## Reading -/

/-- The whole number that a row of digits makes. -/
def wholeOf (digits : List Char) : Nat :=
  digits.foldl (fun n c => 10 * n + (c.toNat - '0'.toNat)) 0

/-- The number after the mark `e` or `E`, or 0 where there is no mark. -/
def exponentOf : List Char → Int
  | e :: '-' :: digits => if e = 'e' || e = 'E' then -(wholeOf digits : Int) else 0
  | e :: '+' :: digits => if e = 'e' || e = 'E' then wholeOf digits else 0
  | e :: digits => if e = 'e' || e = 'E' then wholeOf digits else 0
  | [] => 0

/-- The digits after the point, and what follows them. -/
def fractionOf : List Char → List Char × List Char
  | '.' :: cs => (cs.takeWhile isDigit, cs.dropWhile isDigit)
  | cs => ([], cs)

/-- The value of a numeral: every digit after the point takes one from the exponent. -/
def ofNumeral (numeral : List Char) : Decimal :=
  let whole := numeral.takeWhile isDigit
  let (fraction, rest) := fractionOf (numeral.dropWhile isDigit)
  ⟨wholeOf (whole ++ fraction), exponentOf rest - fraction.length⟩

/-! ## Writing -/

/-- The digits of a whole number. -/
def digitsOf (n : Nat) : List Char := Nat.toDigits 10 n

/-- How many digits a whole number has. -/
def width (n : Nat) : Nat := (digitsOf n).length

/-- The same number without zeros at the end of its digits; at most `fuel` of
them are dropped. -/
def trimmedBy : Nat → Decimal → Decimal
  | 0, d => d
  | fuel + 1, d =>
    if d.digits ≠ 0 && d.digits % 10 = 0 then trimmedBy fuel ⟨d.digits / 10, d.exponent + 1⟩
    else d

/-- The same number without zeros at the end of its digits. -/
def trimmed (d : Decimal) : Decimal := trimmedBy (width d.digits) d

/-- In plain form, with at least one digit on either side of the point. -/
def plain (d : Decimal) : List Char :=
  let digits := digitsOf d.digits
  let place := digits.length + d.exponent
  if place ≤ 0 then
    ['0', '.'] ++ List.replicate (-place).toNat '0' ++ digits
  else if d.exponent < 0 then
    digits.take place.toNat ++ ['.'] ++ digits.drop place.toNat
  else
    digits ++ List.replicate d.exponent.toNat '0' ++ ['.', '0']

/-- In scientific form: one digit, the others after a point if there are
others, and the power of ten. -/
def scientific (d : Decimal) : List Char :=
  let digits := digitsOf d.digits
  let power := digits.length + d.exponent - 1
  let sign := if power < 0 then ['-'] else []
  let fraction := if digits.length ≤ 1 then [] else '.' :: digits.drop 1
  digits.take 1 ++ fraction ++ ['e'] ++ sign ++ digitsOf power.natAbs

/-- The plain form serves numbers from 0.0001 up to below 10000000000000000;
the others are written in scientific form. -/
def numeral (d : Decimal) : List Char :=
  let place := width d.digits + d.exponent
  if -4 < place && place ≤ 16 then d.plain else d.scientific

end Decimal

end Pseudocode
