-- The forms of fragments in their parts: the rows of digits, the point and the
-- exponent of a number, the quotes of a string. A number is found as a whole in
-- front of a text that cannot go on with it.
import Mathlib.Data.List.TakeWhile
import Pseudocode.Proofs.Text.Classes
import Pseudocode.Token.Fragment

namespace Pseudocode

open Text
open Fragment (digitNext isDigits isExponent isReal isQuoted fraction signOf exponent number)

/-! ## What comes next -/

namespace Fragment

/-- Whether a character of a word comes next. -/
def wordNext : List Char → Bool
  | c :: _ => isWordChar c
  | [] => false

/-- Whether a point comes next that has a digit behind it. -/
def pointNext : List Char → Bool
  | '.' :: cs => digitNext cs
  | _ => false

/-- Whether the digits in front end in a point that has no digit behind it. -/
def hasBarePoint (cs : List Char) : Bool :=
  match cs.dropWhile isDigit with
  | '.' :: rest => !digitNext rest
  | _ => false

end Fragment

open Fragment (wordNext pointNext hasBarePoint)

section Next

variable {c : Char} {cs rest : List Char}

theorem digitNext_of_wordNext (h : wordNext cs = false) : digitNext cs = false := by
  cases cs with
  | nil => rfl
  | cons c cs =>
    cases hd : isDigit c with
    | false => exact hd
    | true =>
      have hword : isWordChar c = false := h
      rw [isWordChar_of_isDigit hd] at hword
      cases hword

theorem takeWhile_of_wordNext (h : wordNext cs = false) : cs.takeWhile isWordChar = [] := by
  cases cs with
  | nil => rfl
  | cons c cs =>
    have hword : isWordChar c = false := h
    exact List.takeWhile_cons_of_neg (by simp [hword])

theorem wordNext_of_takeWhile (h : cs.takeWhile isWordChar = []) : wordNext cs = false := by
  cases cs with
  | nil => rfl
  | cons c cs =>
    cases hword : isWordChar c with
    | false => exact hword
    | true =>
      rw [List.takeWhile_cons_of_pos hword] at h
      cases h

theorem wordNext_of_takeWhile_append {word : List Char}
    (h : (word ++ rest).takeWhile isWordChar = word) : wordNext rest = false := by
  have hword : ∀ c ∈ word, isWordChar c = true := by
    rw [← h]
    exact fun c => List.mem_takeWhile_imp
  rw [List.takeWhile_append_of_pos hword] at h
  exact wordNext_of_takeWhile (List.append_right_eq_self.1 h)

/-- A number begins with a digit or with a point that has a digit behind it. -/
theorem next_cons_iff : digitNext (c :: cs) = true ∨ pointNext (c :: cs) = true ↔
    isDigit c = true ∨ c = '.' ∧ digitNext cs = true := by
  constructor
  · rintro (hdigit | hpoint)
    · exact .inl hdigit
    · unfold pointNext at hpoint
      split at hpoint
      · rename_i heq
        cases heq
        exact .inr ⟨rfl, hpoint⟩
      · cases hpoint
  · rintro (hdigit | ⟨rfl, hpoint⟩)
    · exact .inl hdigit
    · exact .inr hpoint

/-- What a text begins with is not changed by what comes behind it. -/
theorem next_append (h : digitNext cs = true ∨ pointNext cs = true) (rest : List Char) :
    digitNext (cs ++ rest) = true ∨ pointNext (cs ++ rest) = true := by
  cases cs with
  | nil => exact absurd h (by decide)
  | cons c cs =>
    refine next_cons_iff.2 ((next_cons_iff.1 h).imp_right fun hpoint => ⟨hpoint.1, ?_⟩)
    cases cs with
    | nil => exact absurd hpoint.2 (by decide)
    | cons d cs => exact hpoint.2

end Next

/-! ## Rows of digits -/

section Digits

variable {ws rest cs : List Char}

theorem isDigits_iff : isDigits cs = true ↔ cs ≠ [] ∧ ∀ c ∈ cs, isDigit c = true := by
  unfold isDigits
  rw [Bool.and_eq_true, List.all_eq_true, Bool.not_eq_true', List.isEmpty_eq_false_iff]

/-- A row of digits ends where no digit comes next. -/
theorem takeWhile_digits (hw : ∀ c ∈ ws, isDigit c = true) (hr : digitNext rest = false) :
    (ws ++ rest).takeWhile isDigit = ws := by
  rw [List.takeWhile_append_of_pos hw]
  cases rest with
  | nil => simp
  | cons c cs => rw [List.takeWhile_cons_of_neg (by simpa [digitNext] using hr), List.append_nil]

theorem dropWhile_digits (hw : ∀ c ∈ ws, isDigit c = true) (hr : digitNext rest = false) :
    (ws ++ rest).dropWhile isDigit = rest := by
  rw [List.dropWhile_append_of_pos hw]
  cases rest with
  | nil => rfl
  | cons c cs => rw [List.dropWhile_cons_of_neg (by simpa [digitNext] using hr)]

theorem digitNext_append (hw : ∀ c ∈ ws, isDigit c = true) (hne : ws ≠ []) (rest : List Char) :
    digitNext (ws ++ rest) = true := by
  cases ws with
  | nil => exact absurd rfl hne
  | cons c cs => exact hw c (by simp)

theorem digitNext_of_takeWhile (h : digitNext cs = true) : cs.takeWhile isDigit ≠ [] := by
  cases cs with
  | nil => cases h
  | cons c cs =>
    rw [List.takeWhile_cons_of_pos (show isDigit c = true from h)]
    exact List.cons_ne_nil _ _

end Digits

/-! ## Fractions -/

section Fractions

variable {cs ds rest : List Char}

theorem fraction_of_pointNext (h : pointNext cs = false) : fraction cs = [] := by
  unfold fraction
  split
  · rw [if_neg (by simpa [pointNext] using h)]
  · rfl

theorem pointNext_of_fraction (h : fraction cs = []) : pointNext cs = false := by
  unfold pointNext
  split
  · rename_i rest
    cases hd : digitNext rest with
    | false => rfl
    | true =>
      rw [fraction, if_pos hd] at h
      cases h
  · rfl

/-- A point with digits behind it ends where no digit comes next. -/
theorem fraction_append (hd : ∀ c ∈ ds, isDigit c = true) (hne : ds ≠ [])
    (hr : digitNext rest = false) : fraction ('.' :: (ds ++ rest)) = '.' :: ds := by
  rw [fraction, if_pos (digitNext_append hd hne rest), takeWhile_digits hd hr]

theorem prefix_fraction (cs : List Char) : fraction cs <+: cs := by
  unfold fraction
  split
  · split
    · exact List.cons_prefix_cons.2 ⟨rfl, List.takeWhile_prefix isDigit⟩
    · exact List.nil_prefix
  · exact List.nil_prefix

theorem fraction_form (cs : List Char) : fraction cs = [] ∨
    ∃ ds, fraction cs = '.' :: ds ∧ ds ≠ [] ∧ ∀ c ∈ ds, isDigit c = true := by
  unfold fraction
  split
  · rename_i rest
    cases hd : digitNext rest with
    | false => exact .inl rfl
    | true => exact .inr ⟨_, rfl, digitNext_of_takeWhile hd, fun c => List.mem_takeWhile_imp⟩
  · exact .inl rfl

end Fractions

/-! ## Exponents -/

/-- A plus, a minus or nothing. -/
def Fragment.IsSign (sign : List Char) : Prop := sign = [] ∨ sign = ['+'] ∨ sign = ['-']

open Fragment (IsSign)

section Exponents

variable {sign digits mark rest cs : List Char}

theorem isExponent_iff : isExponent cs = true ↔ ∃ e sign digits, cs = e :: (sign ++ digits) ∧
    (e = 'e' ∨ e = 'E') ∧ IsSign sign ∧ digits ≠ [] ∧ ∀ c ∈ digits, isDigit c = true := by
  constructor
  · intro h
    unfold isExponent at h
    split at h
    · rename_i e digits
      rw [Bool.and_eq_true, isDigits_iff] at h
      exact ⟨e, ['+'], digits, rfl, by simpa using h.1, .inr (.inl rfl), h.2⟩
    · rename_i e digits
      rw [Bool.and_eq_true, isDigits_iff] at h
      exact ⟨e, ['-'], digits, rfl, by simpa using h.1, .inr (.inr rfl), h.2⟩
    · rename_i e digits _ _
      rw [Bool.and_eq_true, isDigits_iff] at h
      exact ⟨e, [], digits, rfl, by simpa using h.1, .inl rfl, h.2⟩
    · cases h
  · rintro ⟨e, sign, digits, rfl, he, hsign, hne, hd⟩
    have hmark : (decide (e = 'e') || decide (e = 'E')) = true := by simpa using he
    have hdigits : isDigits digits = true := isDigits_iff.2 ⟨hne, hd⟩
    rcases hsign with rfl | rfl | rfl
    · -- a digit is no sign, so the digits are all that follows the mark
      obtain ⟨d, ds, rfl⟩ := List.exists_cons_of_ne_nil hne
      have hdigit := hd d (by simp)
      unfold isExponent
      split
      · rename_i heq
        cases heq
        exact absurd hdigit (by decide)
      · rename_i heq
        cases heq
        exact absurd hdigit (by decide)
      · rename_i heq
        cases heq
        rw [Bool.and_eq_true]
        exact ⟨hmark, hdigits⟩
      · rename_i heq
        cases heq
    · simp [isExponent, hmark, hdigits]
    · simp [isExponent, hmark, hdigits]

theorem isSign_signOf (cs : List Char) : IsSign (signOf cs) := by
  unfold signOf
  split
  · exact .inr (.inl rfl)
  · exact .inr (.inr rfl)
  · exact .inl rfl

theorem prefix_signOf (cs : List Char) : signOf cs <+: cs := by
  unfold signOf
  split
  · exact List.cons_prefix_cons.2 ⟨rfl, List.nil_prefix⟩
  · exact List.cons_prefix_cons.2 ⟨rfl, List.nil_prefix⟩
  · exact List.nil_prefix

theorem signOf_of_digitNext (hs : IsSign sign) (hd : digitNext rest = true) :
    signOf (sign ++ rest) = sign := by
  rcases hs with rfl | rfl | rfl
  · cases rest with
    | nil => cases hd
    | cons d ds =>
      have hdigit : isDigit d = true := hd
      rw [List.nil_append]
      unfold signOf
      split
      · rename_i heq
        cases heq
        exact absurd hdigit (by decide)
      · rename_i heq
        cases heq
        exact absurd hdigit (by decide)
      · rfl
  · rfl
  · rfl

/-- An exponent ends where no digit comes next. -/
theorem exponent_of_isExponent (h : isExponent mark = true) (hr : digitNext rest = false) :
    exponent (mark ++ rest) = mark := by
  obtain ⟨e, sign, digits, rfl, he, hsign, hne, hd⟩ := isExponent_iff.1 h
  have hmark : (decide (e = 'e') || decide (e = 'E')) = true := by simpa using he
  have hsignOf : signOf (sign ++ (digits ++ rest)) = sign :=
    signOf_of_digitNext hsign (digitNext_append hd hne rest)
  have hdigits : (digits ++ rest).takeWhile isDigit = digits := takeWhile_digits hd hr
  have hsome : digits.isEmpty = false := by simpa using hne
  rw [List.cons_append, List.append_assoc, exponent]
  simp only [hsignOf, List.drop_left, hdigits, hmark, hsome, Bool.not_false, Bool.and_self,
    if_true, List.cons_append]

theorem exponent_of_wordNext (h : wordNext cs = false) : exponent cs = [] := by
  cases cs with
  | nil => rfl
  | cons c cs =>
    have hword : isWordChar c = false := h
    have hmark : (decide (c = 'e') || decide (c = 'E')) = false := by
      rw [Bool.or_eq_false_iff, decide_eq_false_iff_not, decide_eq_false_iff_not]
      constructor
      · rintro rfl
        exact absurd hword (by decide)
      · rintro rfl
        exact absurd hword (by decide)
    simp only [exponent, hmark, Bool.false_and]
    rfl

theorem prefix_exponent (cs : List Char) : exponent cs <+: cs := by
  cases cs with
  | nil => exact List.nil_prefix
  | cons e cs =>
    unfold exponent
    dsimp only
    split
    · have hsign := List.prefix_iff_eq_append.1 (prefix_signOf cs)
      have hdigits := List.takeWhile_prefix (l := cs.drop (signOf cs).length) isDigit
      rw [List.cons_append]
      have hparts := (List.prefix_append_right_inj (signOf cs)).2 hdigits
      rw [hsign] at hparts
      exact List.cons_prefix_cons.2 ⟨rfl, hparts⟩
    · exact List.nil_prefix

theorem exponent_form (cs : List Char) : exponent cs = [] ∨ isExponent (exponent cs) = true := by
  cases cs with
  | nil => exact .inl rfl
  | cons e cs =>
    unfold exponent
    dsimp only
    split
    · rename_i h
      rw [Bool.and_eq_true, Bool.not_eq_true', List.isEmpty_eq_false_iff] at h
      exact .inr (isExponent_iff.2 ⟨e, _, _, rfl, by simpa using h.1, isSign_signOf cs, h.2,
        fun c => List.mem_takeWhile_imp⟩)
    · exact .inl rfl

end Exponents

/-! ## Numbers -/

/-- The parts of a number: digits, a point with digits behind it or none, and an
exponent or none. There are digits in front of the exponent. -/
structure Fragment.IsNumber (whole point mark : List Char) : Prop where
  whole_digits : ∀ c ∈ whole, isDigit c = true
  point_form : point = [] ∨ ∃ ds, point = '.' :: ds ∧ ds ≠ [] ∧ ∀ c ∈ ds, isDigit c = true
  mark_form : mark = [] ∨ isExponent mark = true
  some_digits : whole ≠ [] ∨ point ≠ []

open Fragment (IsNumber)

section Numbers

variable {whole point mark rest cs : List Char}

theorem digitNext_mark (h : mark = [] ∨ isExponent mark = true) (hr : digitNext rest = false) :
    digitNext (mark ++ rest) = false := by
  rcases h with rfl | h
  · exact hr
  · obtain ⟨e, sign, digits, rfl, rfl | rfl, -⟩ := isExponent_iff.1 h
    · rfl
    · rfl

theorem pointNext_mark (h : isExponent mark = true) (rest : List Char) :
    pointNext (mark ++ rest) = false := by
  obtain ⟨e, sign, digits, rfl, rfl | rfl, -⟩ := isExponent_iff.1 h
  · rfl
  · rfl

namespace Fragment.IsNumber

theorem digitNext_point (h : IsNumber whole point mark) (hr : digitNext rest = false) :
    digitNext (point ++ (mark ++ rest)) = false := by
  rcases h.point_form with hp | ⟨ds, hp, -⟩
  · rw [hp, List.nil_append]
    exact digitNext_mark h.mark_form hr
  · rw [hp]
    rfl

/-- A number is found as a whole where no word comes next, and after an integer
no point with a digit. -/
theorem number_append (h : IsNumber whole point mark) (hword : wordNext rest = false)
    (hpoint : point = [] → mark = [] → pointNext rest = false) :
    number (whole ++ (point ++ mark) ++ rest) = whole ++ (point ++ mark) := by
  have hr : digitNext rest = false := digitNext_of_wordNext hword
  have hmark := digitNext_mark h.mark_form hr
  have htake : (whole ++ (point ++ (mark ++ rest))).takeWhile isDigit = whole :=
    takeWhile_digits h.whole_digits (h.digitNext_point hr)
  have hfraction : fraction (point ++ (mark ++ rest)) = point := by
    rcases h.point_form with hp | ⟨ds, hp, hne, hd⟩
    · rw [hp, List.nil_append]
      rcases h.mark_form with hm | hm
      · rw [hm]
        exact fraction_of_pointNext (hpoint hp hm)
      · exact fraction_of_pointNext (pointNext_mark hm rest)
    · rw [hp]
      exact fraction_append hd hne hmark
  have hexponent : exponent (mark ++ rest) = mark := by
    rcases h.mark_form with hm | hm
    · rw [hm]
      exact exponent_of_wordNext hword
    · exact exponent_of_isExponent hm hr
  have hdrop : (whole ++ (point ++ (mark ++ rest))).drop (whole.length + point.length) =
      mark ++ rest := by
    rw [← List.append_assoc, ← List.length_append, List.drop_left]
  unfold number
  simp only [List.append_assoc, htake, List.drop_left, hfraction, hdrop, hexponent]

end Fragment.IsNumber

theorem drop_length_of_append {front : List Char} (h : front ++ rest = cs) :
    cs.drop front.length = rest := by
  rw [← h, List.drop_left]

/-- What is found as a number in front of a text, in its parts. -/
theorem number_parts (cs : List Char) : ∃ whole point mark rest,
    cs = whole ++ (point ++ (mark ++ rest)) ∧ number cs = whole ++ (point ++ mark) ∧
      whole = cs.takeWhile isDigit ∧ point = fraction (point ++ (mark ++ rest)) ∧
      mark = exponent (mark ++ rest) := by
  obtain ⟨cs₁, hwhole⟩ := List.takeWhile_prefix (l := cs) isDigit
  obtain ⟨cs₂, hpoint⟩ := prefix_fraction cs₁
  obtain ⟨rest, hmark⟩ := prefix_exponent cs₂
  refine ⟨cs.takeWhile isDigit, fraction cs₁, exponent cs₂, rest, ?_, ?_, rfl, ?_, ?_⟩
  · rw [hmark, hpoint, hwhole]
  · unfold number
    dsimp only
    rw [← List.drop_drop, drop_length_of_append hwhole, drop_length_of_append hpoint,
      List.append_assoc]
  · rw [hmark, hpoint]
  · rw [hmark]

theorem prefix_number (cs : List Char) : number cs <+: cs := by
  obtain ⟨whole, point, mark, rest, hcs, hnumber, -⟩ := number_parts cs
  refine ⟨rest, ?_⟩
  rw [hnumber, hcs, List.append_assoc, List.append_assoc]

/-- The number in front of a text that begins with one, and what comes next. -/
theorem isNumber_of_number (h : digitNext cs = true ∨ pointNext cs = true) :
    ∃ whole point mark rest, cs = whole ++ (point ++ mark) ++ rest ∧
      number cs = whole ++ (point ++ mark) ∧ IsNumber whole point mark ∧
      (point = [] → mark = [] → pointNext rest = false) := by
  obtain ⟨whole, point, mark, rest, hcs, hnumber, hwhole, hpoint, hmark⟩ := number_parts cs
  refine ⟨whole, point, mark, rest, ?_, hnumber, ⟨?_, ?_, ?_, ?_⟩, ?_⟩
  · rw [hcs, List.append_assoc, List.append_assoc]
  · rw [hwhole]
    exact fun c => List.mem_takeWhile_imp
  · rw [hpoint]
    exact fraction_form _
  · rw [hmark]
    exact exponent_form _
  · rcases h with hdigit | hstart
    · exact .inl (hwhole ▸ digitNext_of_takeWhile hdigit)
    · by_cases hw : whole = []
      · rw [hw, List.nil_append] at hcs
        refine .inr fun hp => ?_
        rw [← hcs, hp] at hpoint
        rw [pointNext_of_fraction hpoint.symm] at hstart
        cases hstart
      · exact .inl hw
  · intro hp hm
    rw [hp, hm] at hpoint
    exact pointNext_of_fraction hpoint.symm

/-! ## The form of a number as a whole -/

/-- Digits alone are a number without a point and without an exponent. -/
theorem isNumber_of_isDigits (h : isDigits cs = true) : IsNumber cs [] [] where
  whole_digits := (isDigits_iff.1 h).2
  point_form := .inl rfl
  mark_form := .inl rfl
  some_digits := .inl (isDigits_iff.1 h).1

/-- A real number that has no bare point is a number with a point or an exponent. -/
theorem isNumber_of_isReal (h : isReal cs = true) (hbare : hasBarePoint cs = false) :
    ∃ whole point mark, cs = whole ++ (point ++ mark) ∧ IsNumber whole point mark ∧
      (point = [] → mark ≠ []) := by
  have hcs := List.takeWhile_append_dropWhile (p := isDigit) (l := cs)
  have hwhole : ∀ c ∈ cs.takeWhile isDigit, isDigit c = true := fun c => List.mem_takeWhile_imp
  unfold isReal at h
  unfold hasBarePoint at hbare
  dsimp only at h
  split at h
  · rename_i rest hrest
    rw [hrest] at hbare hcs
    have hnext : digitNext rest = true := by simpa using hbare
    have hfraction := List.takeWhile_append_dropWhile (p := isDigit) (l := rest)
    rw [Bool.and_eq_true] at h
    refine ⟨cs.takeWhile isDigit, '.' :: rest.takeWhile isDigit, rest.dropWhile isDigit, ?_,
      ⟨hwhole, .inr ⟨_, rfl, digitNext_of_takeWhile hnext, fun c => List.mem_takeWhile_imp⟩, ?_,
      .inr (List.cons_ne_nil _ _)⟩, fun hnil => absurd hnil (List.cons_ne_nil _ _)⟩
    · rw [List.cons_append, hfraction, hcs]
    · simpa using h.2
  · rw [Bool.and_eq_true, Bool.not_eq_true', List.isEmpty_eq_false_iff] at h
    refine ⟨cs.takeWhile isDigit, [], cs.dropWhile isDigit, hcs.symm,
      ⟨hwhole, .inl rfl, .inr h.2, .inl h.1⟩, fun _ hmark => ?_⟩
    rw [hmark] at h
    cases h.2

namespace Fragment.IsNumber

variable (h : IsNumber whole point mark)
include h

theorem takeWhile_eq : (whole ++ (point ++ mark)).takeWhile isDigit = whole := by
  have hnext : digitNext (point ++ (mark ++ [])) = false := h.digitNext_point rfl
  rw [List.append_nil] at hnext
  exact takeWhile_digits h.whole_digits hnext

theorem dropWhile_eq : (whole ++ (point ++ mark)).dropWhile isDigit = point ++ mark := by
  have hnext : digitNext (point ++ (mark ++ [])) = false := h.digitNext_point rfl
  rw [List.append_nil] at hnext
  exact dropWhile_digits h.whole_digits hnext

theorem hasBarePoint_eq_false : hasBarePoint (whole ++ (point ++ mark)) = false := by
  unfold hasBarePoint
  rw [h.dropWhile_eq]
  rcases h.point_form with hp | ⟨ds, hp, hne, hd⟩
  · rw [hp, List.nil_append]
    rcases h.mark_form with hm | hm
    · rw [hm]
    · obtain ⟨e, sign, digits, rfl, rfl | rfl, -⟩ := isExponent_iff.1 hm
      · rfl
      · rfl
  · rw [hp, List.cons_append]
    change (!digitNext (ds ++ mark)) = false
    rw [digitNext_append hd hne]
    rfl

/-- A number that is all digits has no point and no exponent. -/
theorem eq_nil_of_isDigits (hdigits : isDigits (whole ++ (point ++ mark)) = true) :
    point = [] ∧ mark = [] := by
  have hall := (isDigits_iff.1 hdigits).2
  constructor
  · refine h.point_form.resolve_right ?_
    rintro ⟨ds, rfl, -⟩
    exact absurd (hall '.' (by simp)) (by decide)
  · refine h.mark_form.resolve_right fun hm => ?_
    obtain ⟨e, sign, digits, rfl, he, -⟩ := isExponent_iff.1 hm
    have hdigit := hall e (by simp)
    rcases he with rfl | rfl
    · exact absurd hdigit (by decide)
    · exact absurd hdigit (by decide)

/-- A number with a point or an exponent is real. -/
theorem isReal (hsome : point ≠ [] ∨ mark ≠ []) : Fragment.isReal (whole ++ (point ++ mark)) = true := by
  have hmark : mark = [] ∨ isExponent mark = true := h.mark_form
  unfold Fragment.isReal
  dsimp only
  rw [h.takeWhile_eq, h.dropWhile_eq]
  rcases h.point_form with hp | ⟨ds, hp, hne, hd⟩
  · have hw : whole.isEmpty = false := by simpa [hp] using h.some_digits
    have hexponent := hmark.resolve_left (hsome.resolve_left (absurd hp))
    obtain ⟨e, sign, digits, hparts, he, -⟩ := isExponent_iff.1 hexponent
    rw [hp, List.nil_append]
    rcases he with rfl | rfl
    · rw [hparts] at hexponent ⊢
      simpa [hw] using hexponent
    · rw [hparts] at hexponent ⊢
      simpa [hw] using hexponent
  · have hnext : digitNext (mark ++ []) = false := digitNext_mark hmark rfl
    rw [List.append_nil] at hnext
    rw [hp, List.cons_append]
    change ((!whole.isEmpty || !((ds ++ mark).takeWhile isDigit).isEmpty) &&
      (((ds ++ mark).dropWhile isDigit).isEmpty ||
        isExponent ((ds ++ mark).dropWhile isDigit))) = true
    rw [takeWhile_digits hd hnext, dropWhile_digits hd hnext]
    simpa [hne] using hmark

/-- A number begins with a digit or with a point that has one behind it. -/
theorem next : digitNext (whole ++ (point ++ mark)) = true ∨
    pointNext (whole ++ (point ++ mark)) = true := by
  by_cases hw : whole = []
  · obtain ⟨ds, hp, hne, hd⟩ := h.point_form.resolve_left (h.some_digits.resolve_left (absurd hw))
    rw [hw, hp]
    right
    exact digitNext_append hd hne mark
  · exact .inl (digitNext_append h.whole_digits hw _)

end Fragment.IsNumber

/-- A real number begins with a digit or with a point and a digit. -/
theorem next_of_isReal (h : isReal cs = true) : digitNext cs = true ∨ pointNext cs = true := by
  have hcs := List.takeWhile_append_dropWhile (p := isDigit) (l := cs)
  have hwhole : cs.takeWhile isDigit ≠ [] → digitNext cs = true := by
    intro hne
    rw [← hcs]
    exact digitNext_append (fun c => List.mem_takeWhile_imp) hne _
  unfold isReal at h
  dsimp only at h
  split at h
  · rename_i rest hrest
    rw [Bool.and_eq_true, Bool.or_eq_true, Bool.not_eq_true', Bool.not_eq_true',
      List.isEmpty_eq_false_iff, List.isEmpty_eq_false_iff] at h
    by_cases hw : cs.takeWhile isDigit = []
    · rw [hw, hrest, List.nil_append] at hcs
      rw [← hcs]
      right
      change digitNext rest = true
      rw [← List.takeWhile_append_dropWhile (p := isDigit) (l := rest)]
      exact digitNext_append (fun c => List.mem_takeWhile_imp) (h.1.resolve_left (absurd hw)) _
    · exact .inl (hwhole hw)
  · rw [Bool.and_eq_true, Bool.not_eq_true', List.isEmpty_eq_false_iff] at h
    exact .inl (hwhole h.1)

end Numbers

/-! ## Quotes -/

theorem isQuoted_iff {cs : List Char} : isQuoted cs = true ↔ ∃ quote inner,
    cs = quote :: (inner ++ [quote]) ∧ (quote = '"' ∨ quote = '\'') ∧ quote ∉ inner := by
  constructor
  · intro h
    cases cs with
    | nil => cases h
    | cons quote rest =>
      rw [isQuoted, Bool.and_eq_true, Bool.and_eq_true, decide_eq_true_eq] at h
      obtain ⟨⟨hquote, hlast⟩, hinner⟩ := h
      obtain ⟨inner, rfl⟩ := List.getLast?_eq_some_iff.1 hlast
      exact ⟨quote, inner, rfl, by simpa using hquote, by simpa using hinner⟩
  · rintro ⟨quote, inner, rfl, hquote, hinner⟩
    simpa [isQuoted, hinner] using hquote

end Pseudocode
