-- The text of a floating-point number: the fewest decimal digits that are read
-- back as the same number, and of those the nearest to it.
import Pseudocode.Number.Binary64

namespace Pseudocode

namespace Binary64

/-! ## Candidates -/

/-- The magnitude itself as a decimal number. -/
def exact (rank : Nat) : Decimal := ⟨units rank * Nat.pow 5 1074, -1074⟩

/-- The place of the first digit of a positive magnitude: the power of ten that
is the least above it. -/
def place (rank : Nat) : Int :=
  (Decimal.width (units rank * Decimal.powerOfTen 342 / unitsPerOne) : Int) - 342

/-- The two decimal numbers with an exponent around a magnitude, the nearer one
first; half way between them the greater one comes first. -/
def neighbours (rank : Nat) (exponent : Int) : Decimal × Decimal :=
  let num := units rank * Decimal.powerOfTen (-exponent).toNat
  let den := unitsPerOne * Decimal.powerOfTen exponent.toNat
  let low : Decimal := ⟨num / den, exponent⟩
  let high : Decimal := ⟨num / den + 1, exponent⟩
  if 2 * (num % den) < den then (low, high) else (high, low)

/-- The nearest decimal number of `count` digits that is read back as the
magnitude, if there is one. -/
def readBack? (rank count : Nat) : Option Decimal :=
  let around := neighbours rank (place rank - count)
  [around.1, around.2].find? fun d => rankOf d = rank

/-- The first of `tries` digit counts from `count` on that is enough, or the
magnitude itself when none is. -/
def shortestFrom (rank : Nat) : Nat → Nat → Decimal
  | 0, _ => exact rank
  | tries + 1, count => (readBack? rank count).getD (shortestFrom rank tries (count + 1))

/-- The shortest decimal number that is read back as a magnitude. Seventeen
digits are always enough. -/
def shortest (rank : Nat) : Decimal := (shortestFrom rank 17 1).trimmed

/-! ## Text -/

/-- The text of a magnitude. -/
def magnitude (rank : Nat) : List Char :=
  if rank = 0 then ['0', '.', '0'] else (shortest rank).numeral

/-- The sign that is written: only a minus is. -/
def sign (negative : Bool) : List Char := if negative then ['-'] else []

/-- The text of a number. -/
def text : Binary64 → String
  | finite negative rank => String.ofList (sign negative ++ magnitude rank)
  | infinite negative => String.ofList (sign negative ++ ['i', 'n', 'f'])
  | nan => "NaN"

end Binary64

end Pseudocode
