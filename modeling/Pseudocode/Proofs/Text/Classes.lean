-- The characters that a fragment of each sort can begin with. The classes that
-- decide between the sorts do not overlap, and no fragment begins with a blank.
import Pseudocode.Token.Classify

namespace Pseudocode

open Text
open Fragment (isNameStart isNameChar)

variable {c : Char}

/-! ## Letters and digits -/

theorem isAsciiLetter_iff {c : Char} :
    isAsciiLetter c = true ↔ 97 ≤ c.toNat ∧ c.toNat ≤ 122 ∨ 65 ≤ c.toNat ∧ c.toNat ≤ 90 := by
  simp only [isAsciiLetter, Bool.or_eq_true, Bool.and_eq_true, decide_eq_true_eq, Char.le_def,
    UInt32.le_iff_toNat_le]
  exact Iff.rfl

/-- The code point of a character that a name begins with. -/
theorem toNat_of_isNameStart (h : isNameStart c = true) : 65 ≤ c.toNat ∧ c.toNat ≤ 122 := by
  unfold isNameStart at h
  rw [Bool.or_eq_true, isAsciiLetter_iff, decide_eq_true_eq] at h
  rcases h with h | rfl
  · omega
  · decide

theorem isWordStart_of_isNameStart (h : isNameStart c = true) : isWordStart c = true := by
  have hsmall : c.toNat < 0x80 := by
    have := toNat_of_isNameStart h
    omega
  unfold isNameStart at h
  unfold isWordStart isLetter
  rwa [if_pos hsmall]

theorem isWordChar_of_isNameChar (h : isNameChar c = true) : isWordChar c = true := by
  unfold isNameChar at h
  rw [Bool.or_eq_true] at h
  rcases h with h | h
  · exact isWordChar_of_isWordStart (isWordStart_of_isNameStart h)
  · exact isWordChar_of_isDigit h

theorem not_isDigit_of_isNameStart (h : isNameStart c = true) : isDigit c = false := by
  have hrange := toNat_of_isNameStart h
  cases hd : isDigit c with
  | false => rfl
  | true =>
    have hdigit := isDigit_iff.1 hd
    omega

theorem not_isNameStart_of_isDigit (h : isDigit c = true) : isNameStart c = false := by
  cases hn : isNameStart c with
  | false => rfl
  | true =>
    rw [not_isDigit_of_isNameStart hn] at h
    cases h

theorem not_isWordStart_of_isDigit (h : isDigit c = true) : isWordStart c = false := by
  have hsmall : c.toNat < 0x80 := by
    have hrange := isDigit_iff.1 h
    omega
  have hname := not_isNameStart_of_isDigit h
  unfold isNameStart at hname
  unfold isWordStart isLetter
  rwa [if_pos hsmall]

/-! ## Blanks -/

/-- No visible character of ASCII is a blank. -/
theorem not_isBlank (hlow : 33 ≤ c.toNat) (hhigh : c.toNat < 0x80) : isBlank c = false := by
  cases hb : isBlank c with
  | false => rfl
  | true =>
    unfold isBlank at hb
    rw [CharRanges.has_iff] at hb
    obtain ⟨range, hmem, hfirst, hlast⟩ := hb
    simp only [blankRanges, List.mem_cons, List.not_mem_nil, or_false] at hmem
    rcases hmem with rfl | rfl | rfl | rfl | rfl | rfl | rfl | rfl | rfl | rfl <;>
      simp only at hfirst hlast <;> omega

theorem not_isBlank_of_isNameStart (h : isNameStart c = true) : isBlank c = false := by
  have hrange := toNat_of_isNameStart h
  exact not_isBlank (by omega) (by omega)

theorem not_isBlank_of_isDigit (h : isDigit c = true) : isBlank c = false := by
  have hrange := isDigit_iff.1 h
  exact not_isBlank (by omega) (by omega)

/-- Two sets of ranges that do not meet. -/
def Text.CharRanges.Apart (ranges others : CharRanges) : Prop :=
  ∀ range ∈ ranges, ∀ other ∈ others, range.2 < other.1 ∨ other.2 < range.1

theorem not_has_of_apart {ranges others : CharRanges} (h : ranges.Apart others)
    (hc : ranges.has c = true) : others.has c = false := by
  rw [Bool.eq_false_iff]
  intro ho
  obtain ⟨range, hr, hfirst, hlast⟩ := CharRanges.has_iff.1 hc
  obtain ⟨other, ho, hfirst', hlast'⟩ := CharRanges.has_iff.1 ho
  rcases h range hr other ho with h | h <;> omega

/-- A blank ends every word. -/
theorem not_isWordChar_of_isBlank (h : isBlank c = true) : isWordChar c = false := by
  have hletters : blankRanges.Apart alphabeticRanges := by
    unfold Text.CharRanges.Apart
    decide +kernel
  have hnumbers : blankRanges.Apart numericRanges := by
    unfold Text.CharRanges.Apart
    decide +kernel
  by_cases hsmall : c.toNat < 0x80
  · have hlow : c.toNat < 33 := by
      refine Nat.lt_of_not_le fun hvisible => ?_
      rw [not_isBlank hvisible hsmall] at h
      cases h
    have hletter : isAsciiLetter c = false := by
      rw [Bool.eq_false_iff, Ne, isAsciiLetter_iff]
      omega
    have hdigit : isDigit c = false := by
      rw [Bool.eq_false_iff, Ne, isDigit_iff]
      omega
    have hscore : c ≠ '_' := by
      rintro rfl
      exact absurd hlow (by decide)
    simp [isWordChar, isLetter, isNumeric, hsmall, hletter, hdigit, hscore]
  · have hscore : c ≠ '_' := by
      rintro rfl
      exact absurd hsmall (by decide)
    simp [isWordChar, isLetter, isNumeric, hsmall, not_has_of_apart hletters h,
      not_has_of_apart hnumbers h, hscore]

end Pseudocode
