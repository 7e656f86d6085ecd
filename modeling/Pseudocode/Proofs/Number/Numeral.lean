-- The texts of numbers: digits, a point with digits behind it, and an exponent.
-- The text of a decimal number denotes a number of the same rank.
import Pseudocode.Proofs.Number.ReadBack
import Pseudocode.Proofs.Token.Forms

namespace Pseudocode

open Text (isDigit isWordChar)
open Fragment (digitNext)

namespace Decimal

theorem isDigit_of_mem_digitsOf {n : Nat} {c : Char} (h : c ∈ digitsOf n) : isDigit c = true := by
  have hc := Nat.isDigit_of_mem_toDigits (by decide) (by decide) h
  simpa [Char.isDigit, isDigit, Char.le_def] using hc

theorem wholeOf_digitsOf (n : Nat) : wholeOf (digitsOf n) = n := Nat.ofDigitChars_ten_toDigits

theorem toList_toString (n : Nat) : (toString n).toList = digitsOf n := String.toList_ofList

theorem toList_toString_natCast (n : Nat) : (toString (n : Int)).toList = digitsOf n :=
  String.toList_ofList

/-- Zeros in front add nothing. -/
theorem wholeOf_zeros_append (k : Nat) (ds : List Char) :
    wholeOf (List.replicate k '0' ++ ds) = wholeOf ds := by
  have h := Nat.ofDigitChars_append (b := 10) (l := List.replicate k '0') (m := ds) 0
  rw [Nat.ofDigitChars_replicate_zero, Nat.mul_zero] at h
  exact h

/-- Zeros behind multiply by ten. -/
theorem wholeOf_append_zeros (ds : List Char) (k : Nat) :
    wholeOf (ds ++ List.replicate k '0') = wholeOf ds * powerOfTen k := by
  have h := Nat.ofDigitChars_append (b := 10) (l := ds) (m := List.replicate k '0') 0
  rw [Nat.ofDigitChars_replicate_zero, Nat.mul_comm] at h
  exact h

end Decimal

/-! ## The shape of a numeral -/

/-- No word and no number can go on with the text. -/
def Breaks (rest : List Char) : Prop :=
  rest = [] ∨ ∃ c cs, rest = c :: cs ∧ isWordChar c = false ∧ (c = '.' → digitNext cs = false)

/-- The mark of an exponent, a minus or none, and digits. -/
def IsExponentText (cs : List Char) : Prop :=
  ∃ sign digits, cs = 'e' :: sign ++ digits ∧ (sign = [] ∨ sign = ['-']) ∧ digits ≠ [] ∧
    ∀ c ∈ digits, isDigit c = true

/-- A numeral in its parts: the digits before the point, those behind it, which
have no point if there are none, and the exponent with its mark. -/
structure Numeral where
  whole : List Char
  fraction : List Char
  exponent : List Char
  whole_ne_nil : whole ≠ []
  whole_digits : ∀ c ∈ whole, isDigit c = true
  fraction_digits : ∀ c ∈ fraction, isDigit c = true
  exponent_form : exponent = [] ∨ IsExponentText exponent

namespace Numeral

/-- The point and the digits behind it. -/
def point (n : Numeral) : List Char := if n.fraction = [] then [] else '.' :: n.fraction

/-- The numeral as it is written. -/
def text (n : Numeral) : List Char := n.whole ++ (n.point ++ n.exponent)

/-- A numeral with a point or an exponent denotes a real number. -/
def IsReal (n : Numeral) : Prop := n.fraction ≠ [] ∨ n.exponent ≠ []

variable {n : Numeral} {rest : List Char}

theorem isExponent_of_text {cs : List Char} (h : IsExponentText cs) :
    Fragment.isExponent cs = true := by
  obtain ⟨sign, digits, rfl, hsign, hdigits⟩ := h
  exact isExponent_iff.2 ⟨'e', sign, digits, rfl, .inl rfl, hsign.imp_right .inr, hdigits⟩

/-- The parts of a numeral are those of a number. -/
theorem isNumber (n : Numeral) : Fragment.IsNumber n.whole n.point n.exponent where
  whole_digits := n.whole_digits
  point_form := by
    unfold point
    split
    · exact .inl rfl
    · rename_i hne
      exact .inr ⟨n.fraction, rfl, hne, n.fraction_digits⟩
  mark_form := n.exponent_form.imp_right isExponent_of_text
  some_digits := .inl n.whole_ne_nil

/-! ## What a numeral is and denotes -/

theorem digitNext_text (n : Numeral) (rest : List Char) : digitNext (n.text ++ rest) = true := by
  unfold text
  rw [List.append_assoc]
  exact digitNext_append n.whole_digits n.whole_ne_nil _

theorem takeWhile_text (n : Numeral) : n.text.takeWhile isDigit = n.whole :=
  n.isNumber.takeWhile_eq

theorem dropWhile_text (n : Numeral) : n.text.dropWhile isDigit = n.point ++ n.exponent :=
  n.isNumber.dropWhile_eq

theorem some_of_isReal (h : n.IsReal) : n.point ≠ [] ∨ n.exponent ≠ [] := by
  refine h.imp_left fun hf => ?_
  rw [point, if_neg hf]
  exact List.cons_ne_nil _ _

theorem isReal_text (h : n.IsReal) : Fragment.isReal n.text = true :=
  n.isNumber.isReal (some_of_isReal h)

theorem not_isDigits_text (h : n.IsReal) : Fragment.isDigits n.text = false := by
  rw [Bool.eq_false_iff]
  intro hdigits
  obtain ⟨hpoint, hexponent⟩ := n.isNumber.eq_nil_of_isDigits hdigits
  exact (some_of_isReal h).elim (absurd hpoint) (absurd hexponent)

/-- The digits on both sides of the point make a whole number, which the
exponent and the digits behind the point scale. -/
theorem ofNumeral_text (n : Numeral) :
    Decimal.ofNumeral n.text =
      ⟨Decimal.wholeOf (n.whole ++ n.fraction),
        Decimal.exponentOf n.exponent - n.fraction.length⟩ := by
  unfold Decimal.ofNumeral
  rw [takeWhile_text, dropWhile_text]
  by_cases hf : n.fraction = []
  · have hpoint : n.point = [] := if_pos hf
    rw [hpoint, List.nil_append]
    rcases n.exponent_form with he | ⟨sign, digits, he, -⟩
    · rw [he, hf]
      rfl
    · rw [he, hf]
      rfl
  · have hpoint : n.point = '.' :: n.fraction := if_neg hf
    have hend : digitNext n.exponent = false := by
      have hn : digitNext (n.exponent ++ []) = false := digitNext_mark n.isNumber.mark_form rfl
      rwa [List.append_nil] at hn
    rw [hpoint, List.cons_append]
    simp only [Decimal.fractionOf, takeWhile_digits n.fraction_digits hend,
      dropWhile_digits n.fraction_digits hend]

end Numeral

/-! ## The texts of decimal numbers -/

namespace Decimal

theorem exponentOf_digits {ds : List Char} (hd : ∀ c ∈ ds, isDigit c = true) (hne : ds ≠ []) :
    exponentOf ('e' :: ds) = wholeOf ds := by
  obtain ⟨d, rest, rfl⟩ := List.exists_cons_of_ne_nil hne
  have hdigit := hd d (by simp)
  unfold exponentOf
  split
  · rename_i heq
    cases heq
    exact absurd hdigit (by decide)
  · rename_i heq
    cases heq
    exact absurd hdigit (by decide)
  · rename_i heq
    cases heq
    rfl
  · rename_i heq
    cases heq

/-- The digits of a number that is not 0 are a numeral's digits before and
behind a point wherever the point stands. -/
theorem isDigit_of_mem_split {n k : Nat} {c : Char}
    (h : c ∈ (digitsOf n).take k ∨ c ∈ (digitsOf n).drop k) : isDigit c = true := by
  rcases h with h | h
  · exact isDigit_of_mem_digitsOf (List.mem_of_mem_take h)
  · exact isDigit_of_mem_digitsOf (List.mem_of_mem_drop h)

theorem digitsOf_ne_nil (n : Nat) : digitsOf n ≠ [] := Nat.toDigits_ne_nil

/-- A numeral for a decimal number: it is written as that number is, denotes a
real number, and has the same rank. -/
def HasNumeral (text : List Char) (d : Decimal) : Prop :=
  ∃ n : Numeral, n.text = text ∧ n.IsReal ∧ Binary64.rankOf (ofNumeral n.text) = Binary64.rankOf d

variable {d : Decimal}

/-- All digits stand behind the point, with zeros before them. -/
theorem hasNumeral_below_one {k : Nat} (hk : (width d.digits + k : Int) = -d.exponent) :
    HasNumeral (['0', '.'] ++ List.replicate k '0' ++ digitsOf d.digits) d := by
  let n : Numeral :=
    { whole := ['0']
      fraction := List.replicate k '0' ++ digitsOf d.digits
      exponent := []
      whole_ne_nil := by simp
      whole_digits := by simp; decide
      fraction_digits := by
        intro c hc
        rcases List.mem_append.1 hc with hc | hc
        · rw [List.eq_of_mem_replicate hc]
          decide
        · exact isDigit_of_mem_digitsOf hc
      exponent_form := .inl rfl }
  have hne : n.fraction ≠ [] := by simp [n, digitsOf_ne_nil]
  refine ⟨n, ?_, .inl hne, ?_⟩
  · simp [Numeral.text, Numeral.point, hne]
    simp [n]
  · have hzeros : ['0'] ++ (List.replicate k '0' ++ digitsOf d.digits) =
        List.replicate (k + 1) '0' ++ digitsOf d.digits := rfl
    have hlength : (List.replicate k '0' ++ digitsOf d.digits).length = k + width d.digits := by
      simp [width]
    have hexp : exponentOf [] - ((k + width d.digits : Nat) : Int) = d.exponent := by
      simp only [exponentOf]
      omega
    rw [Numeral.ofNumeral_text]
    dsimp only [n]
    rw [hzeros, wholeOf_zeros_append, wholeOf_digitsOf, hlength, hexp]

/-- The point stands between the digits. -/
theorem hasNumeral_between {k : Nat} (hpos : 0 < k) (hk : (k : Int) = width d.digits + d.exponent)
    (hneg : d.exponent < 0) :
    HasNumeral ((digitsOf d.digits).take k ++ ['.'] ++ (digitsOf d.digits).drop k) d := by
  have hwidth : (digitsOf d.digits).length = width d.digits := rfl
  let n : Numeral :=
    { whole := (digitsOf d.digits).take k
      fraction := (digitsOf d.digits).drop k
      exponent := []
      whole_ne_nil := by
        intro hnil
        rcases List.take_eq_nil_iff.1 hnil with hz | hz
        · omega
        · exact digitsOf_ne_nil _ hz
      whole_digits := fun c hc => isDigit_of_mem_split (.inl hc)
      fraction_digits := fun c hc => isDigit_of_mem_split (.inr hc)
      exponent_form := .inl rfl }
  have hne : n.fraction ≠ [] := by
    intro hnil
    have hle := List.drop_eq_nil_iff.1 hnil
    omega
  refine ⟨n, ?_, .inl hne, ?_⟩
  · simp [Numeral.text, Numeral.point, hne]
    simp [n]
  · have hexp : exponentOf [] - ((width d.digits - k : Nat) : Int) = d.exponent := by
      simp only [exponentOf]
      omega
    rw [Numeral.ofNumeral_text]
    dsimp only [n]
    rw [List.take_append_drop, wholeOf_digitsOf, List.length_drop, hwidth, hexp]

/-- A whole number has a zero behind the point. -/
theorem hasNumeral_whole {k : Nat} (hd : d.digits ≠ 0) (hk : d.exponent = k) (hle : k ≤ 400) :
    HasNumeral (digitsOf d.digits ++ List.replicate k '0' ++ ['.', '0']) d := by
  let n : Numeral :=
    { whole := digitsOf d.digits ++ List.replicate k '0'
      fraction := ['0']
      exponent := []
      whole_ne_nil := by simp [digitsOf_ne_nil]
      whole_digits := by
        intro c hc
        rcases List.mem_append.1 hc with hc | hc
        · exact isDigit_of_mem_digitsOf hc
        · rw [List.eq_of_mem_replicate hc]
          decide
      fraction_digits := by simp; decide
      exponent_form := .inl rfl }
  have hne : n.fraction ≠ [] := by simp [n]
  refine ⟨n, ?_, .inl hne, ?_⟩
  · simp [Numeral.text, Numeral.point, hne]
    simp [n]
  · have hzeros : digitsOf d.digits ++ List.replicate k '0' ++ ['0'] =
        digitsOf d.digits ++ List.replicate (k + 1) '0' := by
      rw [List.replicate_succ', List.append_assoc]
    have hexp : exponentOf [] - ((1 : Nat) : Int) = -1 := rfl
    have hsum : (-1 : Int) + ((k + 1 : Nat) : Int) = d.exponent := by omega
    rw [Numeral.ofNumeral_text]
    dsimp only [n]
    rw [hzeros, wholeOf_append_zeros, wholeOf_digitsOf, List.length_singleton, hexp,
      Binary64.rankOf_mul_powerOfTen hd _ (by omega), hsum]

theorem hasNumeral_plain (hd : d.digits ≠ 0) (hle : d.exponent ≤ 400) : HasNumeral d.plain d := by
  have hwidth : (digitsOf d.digits).length = width d.digits := rfl
  unfold plain
  dsimp only
  rw [hwidth]
  split
  · exact hasNumeral_below_one (by omega)
  · split
    · exact hasNumeral_between (by omega) (by omega) ‹_›
    · exact hasNumeral_whole hd (by omega) (by omega)

theorem hasNumeral_scientific (d : Decimal) : HasNumeral d.scientific d := by
  have hwidth : (digitsOf d.digits).length = width d.digits := rfl
  have hpos : 0 < width d.digits := Nat.length_toDigits_pos
  let power : Int := width d.digits + d.exponent - 1
  let sign : List Char := if power < 0 then ['-'] else []
  let n : Numeral :=
    { whole := (digitsOf d.digits).take 1
      fraction := (digitsOf d.digits).drop 1
      exponent := 'e' :: sign ++ digitsOf power.natAbs
      whole_ne_nil := by
        intro hnil
        rcases List.take_eq_nil_iff.1 hnil with hz | hz
        · omega
        · exact digitsOf_ne_nil _ hz
      whole_digits := fun c hc => isDigit_of_mem_split (.inl hc)
      fraction_digits := fun c hc => isDigit_of_mem_split (.inr hc)
      exponent_form := by
        refine .inr ⟨sign, digitsOf power.natAbs, rfl, ?_, digitsOf_ne_nil _,
          fun c hc => isDigit_of_mem_digitsOf hc⟩
        dsimp only [sign]
        split
        · exact .inr rfl
        · exact .inl rfl }
  have hreal : n.IsReal := .inr (by simp [n])
  refine ⟨n, ?_, hreal, ?_⟩
  · have hiff : (digitsOf d.digits).drop 1 = [] ↔ (digitsOf d.digits).length ≤ 1 :=
      List.drop_eq_nil_iff
    unfold scientific Numeral.text Numeral.point
    dsimp only [n]
    simp only [hiff, List.append_assoc]
    rfl
  · have hexp : exponentOf ('e' :: sign ++ digitsOf power.natAbs) = power := by
      by_cases hneg : power < 0
      · have hsign : sign = ['-'] := if_pos hneg
        rw [hsign]
        simp only [List.cons_append, List.nil_append, exponentOf, wholeOf_digitsOf]
        rw [if_pos (by decide)]
        omega
      · have hsign : sign = [] := if_neg hneg
        rw [hsign, List.singleton_append,
          exponentOf_digits (fun c hc => isDigit_of_mem_digitsOf hc) (digitsOf_ne_nil _),
          wholeOf_digitsOf]
        omega
    have hsum : power - ((width d.digits - 1 : Nat) : Int) = d.exponent := by
      dsimp only [power]
      omega
    rw [Numeral.ofNumeral_text]
    dsimp only [n]
    rw [List.take_append_drop, wholeOf_digitsOf, List.length_drop, hwidth, hexp, hsum]

/-- The text of a decimal number that is not 0 is a numeral of the same rank. -/
theorem hasNumeral_numeral (hd : d.digits ≠ 0) : HasNumeral d.numeral d := by
  unfold numeral
  dsimp only
  split
  · rename_i hplace
    simp only [Bool.and_eq_true, decide_eq_true_eq] at hplace
    exact hasNumeral_plain hd (by omega)
  · exact hasNumeral_scientific d

end Decimal

/-! ## The texts of magnitudes -/

namespace Binary64

/-- The text of a magnitude is a numeral that denotes the magnitude. -/
theorem numeral_of_magnitude (rank : Fin infinityRank) :
    ∃ n : Numeral, n.text = magnitude rank ∧ n.IsReal ∧ ofNumeral n.text = finite false rank := by
  have main : ∃ n : Numeral, n.text = magnitude rank ∧ n.IsReal ∧
      rankOf (Decimal.ofNumeral n.text) = rank := by
    unfold magnitude
    split
    · rename_i hzero
      let n : Numeral :=
        { whole := ['0']
          fraction := ['0']
          exponent := []
          whole_ne_nil := by simp
          whole_digits := by simp; decide
          fraction_digits := by simp; decide
          exponent_form := .inl rfl }
      refine ⟨n, rfl, .inl (by simp [n]), ?_⟩
      rw [Numeral.ofNumeral_text, hzero]
      rfl
    · rename_i hpos
      have hrank := rankOf_shortest rank.isLt
      have hd : (shortest rank).digits ≠ 0 := by
        intro hnone
        unfold rankOf at hrank
        rw [if_pos hnone] at hrank
        exact hpos hrank.symm
      obtain ⟨n, htext, hreal, hn⟩ := Decimal.hasNumeral_numeral hd
      exact ⟨n, htext, hreal, hn.trans hrank⟩
  obtain ⟨n, htext, hreal, hrank⟩ := main
  refine ⟨n, htext, hreal, ?_⟩
  unfold ofNumeral ofDecimal
  simp only [hrank, rank.isLt, dif_pos]

end Binary64

end Pseudocode
