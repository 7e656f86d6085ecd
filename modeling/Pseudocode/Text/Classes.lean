-- The character classes that the scanner asks for: blanks, letters, word
-- characters and digits. ASCII is decided by rule, all else by the tables.
import Pseudocode.Text.Alphabetic
import Pseudocode.Text.Numeric

namespace Pseudocode.Text

/-! ## ASCII -/

/-- One of `0` to `9`; no other digit can stand in a number. -/
def isDigit (c : Char) : Bool := '0' ≤ c && c ≤ '9'

/-- A letter from `a` to `z` or from `A` to `Z`. -/
def isAsciiLetter (c : Char) : Bool :=
  ('a' ≤ c && c ≤ 'z') || ('A' ≤ c && c ≤ 'Z')

/-! ## Unicode -/

/-- The characters of the property White_Space. -/
def blankRanges : CharRanges := [
  (0x9, 0xd), (0x20, 0x20), (0x85, 0x85), (0xa0, 0xa0), (0x1680, 0x1680), (0x2000, 0x200a),
  (0x2028, 0x2029), (0x202f, 0x202f), (0x205f, 0x205f), (0x3000, 0x3000)]

/-- A blank only separates tokens. -/
def isBlank (c : Char) : Bool := blankRanges.has c

/-- A letter in the sense of Unicode (the property Alphabetic). -/
def isLetter (c : Char) : Bool :=
  if c.toNat < 0x80 then isAsciiLetter c else alphabeticRanges.has c

/-- A number in the sense of Unicode (decimal digits, letter numbers and others). -/
def isNumeric (c : Char) : Bool :=
  if c.toNat < 0x80 then isDigit c else numericRanges.has c

/-- A word starts with a letter or an underscore. -/
def isWordStart (c : Char) : Bool := isLetter c || c = '_'

/-- A word goes on with letters, numbers and underscores. -/
def isWordChar (c : Char) : Bool := isLetter c || isNumeric c || c = '_'

/-! ## How the classes lie in each other -/

theorem isWordChar_of_isWordStart {c : Char} (h : isWordStart c = true) : isWordChar c = true := by
  simp only [isWordStart, isWordChar, Bool.or_eq_true] at h ⊢
  exact h.elim (fun hl => .inl (.inl hl)) .inr

theorem isDigit_iff {c : Char} : isDigit c = true ↔ 48 ≤ c.toNat ∧ c.toNat ≤ 57 := by
  simp only [isDigit, Bool.and_eq_true, decide_eq_true_eq, Char.le_def, UInt32.le_iff_toNat_le]
  exact Iff.rfl

theorem isWordChar_of_isDigit {c : Char} (h : isDigit c = true) : isWordChar c = true := by
  have hsmall : c.toNat < 0x80 := by have := (isDigit_iff.1 h).2; omega
  simp [isWordChar, isNumeric, hsmall, h]

end Pseudocode.Text
