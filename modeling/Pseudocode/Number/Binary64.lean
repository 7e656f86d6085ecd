-- Binary floating-point numbers of 64 bits. The finite magnitudes are counted
-- in ascending order from zero, so a magnitude is its rank, rounding is the
-- choice of a rank, and all arithmetic is on whole numbers.
import Pseudocode.Number.Decimal

namespace Pseudocode

/-! ## The numbers -/

/-- How many ranks have the same spacing. -/
def binade : Nat := Nat.pow 2 52

/-- How often the least positive magnitude goes into one. -/
def unitsPerOne : Nat := Nat.pow 2 1074

/-- The rank just above the greatest finite magnitude. -/
def infinityRank : Nat := 2047 * binade

/-- A sign with the rank of a finite magnitude, an infinity with its sign, or no number. -/
inductive Binary64 where
  | finite (negative : Bool) (rank : Fin infinityRank)
  | infinite (negative : Bool)
  | nan
  deriving DecidableEq

namespace Binary64

/-- The magnitude of a rank, counted in the least positive magnitude. The ranks
of the first binade are evenly spaced, the next ones as closely, and from there
on the spacing doubles from one binade to the next. -/
def units (rank : Nat) : Nat :=
  if rank < binade then rank
  else (binade + rank % binade) * Nat.pow 2 (rank / binade - 1)

/-! ## Rounding -/

/-- The greatest rank from `base` on, of those whose distance has at most `bits`
binary digits, with no more than `num / den` units. -/
def floorRank (num den : Nat) : Nat → Nat → Nat
  | 0, base => base
  | bits + 1, base =>
    let next := base + Nat.pow 2 bits
    if units next * den ≤ num then floorRank num den bits next else floorRank num den bits base

/-- The rank nearest to `num / den` units; half way between two ranks it is
the even one. -/
def nearestRank (num den : Nat) : Nat :=
  let low := floorRank num den 63 0
  let middle := (units low + units (low + 1)) * den
  if 2 * num < middle then low
  else if middle < 2 * num then low + 1
  else low + low % 2

/-- The rank nearest to a decimal number. Powers of ten far outside the range
are settled without computing them. -/
def rankOf (d : Decimal) : Nat :=
  if d.digits = 0 then 0
  else if 400 < d.exponent then infinityRank
  else if Decimal.width d.digits + d.exponent < -400 then 0
  else
    nearestRank (d.digits * Decimal.powerOfTen d.exponent.toNat * unitsPerOne)
      (Decimal.powerOfTen (-d.exponent).toNat)

/-- The number nearest to a decimal number; past the greatest finite magnitude
it is infinite. -/
def ofDecimal (negative : Bool) (d : Decimal) : Binary64 :=
  if h : rankOf d < infinityRank then finite negative ⟨rankOf d, h⟩ else infinite negative

/-- The number that a numeral without a sign denotes. -/
def ofNumeral (numeral : List Char) : Binary64 := ofDecimal false (Decimal.ofNumeral numeral)

/-! ## Comparing -/

/-- Numeric equality: the zeros of both signs are equal, and what is no number
equals nothing. -/
def same : Binary64 → Binary64 → Bool
  | finite n r, finite m s => r = s && (n = m || r.val = 0)
  | infinite n, infinite m => n = m
  | _, _ => false

end Binary64

end Pseudocode
