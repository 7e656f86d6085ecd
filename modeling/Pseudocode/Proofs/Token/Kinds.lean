-- The kind of a text is that of the one lexical class that it is in. Only words
-- are in two classes: a keyword or a truth value has the form of a name too, and
-- so has to be asked for before a name. All else may be asked for in any order.
import Mathlib.Data.List.Basic
import Pseudocode.Proofs.Token.Characters

namespace Pseudocode

open Text
open Fragment (IsSign classify? digitNext pointNext isName isNameStart isNameChar isDigits isReal
  isExponent isQuoted)

/-! ## The forms -/

namespace Fragment

/-- A word of ASCII that does not begin with a digit. -/
def IsAsciiName (cs : List Char) : Prop :=
  cs ≠ [] ∧ (∀ c ∈ cs, isAsciiLetter c = true ∨ isDigit c = true ∨ c = '_') ∧
    ∀ c ∈ cs.head?, isDigit c = false

/-- One or more digits. -/
def IsDigitRow (cs : List Char) : Prop := cs ≠ [] ∧ ∀ c ∈ cs, isDigit c = true

/-- The mark `e` or `E`, a sign or none, and one or more digits. -/
def IsPower (cs : List Char) : Prop := ∃ e sign digits, cs = e :: (sign ++ digits) ∧
  (e = 'e' ∨ e = 'E') ∧ IsSign sign ∧ IsDigitRow digits

/-- What a real number is made of: digits with a point among or behind them, or a
point with digits behind it, each with an exponent or without, or digits with an
exponent. -/
inductive IsRealNumber : List Char → Prop where
  | among {whole fraction mark : List Char} (hwhole : IsDigitRow whole)
      (hfraction : ∀ c ∈ fraction, isDigit c = true) (hmark : mark = [] ∨ IsPower mark) :
      IsRealNumber (whole ++ '.' :: (fraction ++ mark))
  | front {fraction mark : List Char} (hfraction : IsDigitRow fraction)
      (hmark : mark = [] ∨ IsPower mark) : IsRealNumber ('.' :: (fraction ++ mark))
  | scaled {whole mark : List Char} (hwhole : IsDigitRow whole) (hmark : IsPower mark) :
      IsRealNumber (whole ++ mark)

/-- Two quotes of one sort, with anything but a third one between them. -/
def IsQuotation (cs : List Char) : Prop :=
  ∃ quote inner, cs = quote :: (inner ++ [quote]) ∧ (quote = '"' ∨ quote = '\'') ∧ quote ∉ inner

end Fragment

open Fragment (IsAsciiName IsDigitRow IsPower IsRealNumber IsQuotation)

section Forms

variable {cs rest whole fraction mark : List Char}

theorem isNameChar_iff {c : Char} :
    isNameChar c = true ↔ isAsciiLetter c = true ∨ isDigit c = true ∨ c = '_' := by
  unfold isNameChar isNameStart
  rw [Bool.or_eq_true, Bool.or_eq_true, decide_eq_true_eq, or_assoc, or_comm (a := c = '_')]

/-- A character of a name that is no digit can begin one. -/
theorem isNameStart_iff {c : Char} :
    isNameStart c = true ↔ isNameChar c = true ∧ isDigit c = false := by
  constructor
  · intro h
    refine ⟨?_, not_isDigit_of_isNameStart h⟩
    unfold isNameChar
    rw [h, Bool.true_or]
  · rintro ⟨hchar, hdigit⟩
    unfold isNameChar at hchar
    rwa [hdigit, Bool.or_false] at hchar

theorem isName_iff : isName cs = true ↔ IsAsciiName cs := by
  unfold IsAsciiName
  simp only [← isNameChar_iff]
  cases cs with
  | nil => simp [isName]
  | cons c cs =>
    rw [isName, Bool.and_eq_true, List.all_eq_true, isNameStart_iff]
    simp only [ne_eq, List.cons_ne_nil, not_false_eq_true, true_and, List.forall_mem_cons,
      List.head?_cons, Option.mem_some_iff, forall_eq']
    exact and_right_comm

theorem isDigits_iff_isDigitRow : isDigits cs = true ↔ IsDigitRow cs := isDigits_iff

theorem isExponent_iff_isPower : isExponent cs = true ↔ IsPower cs := isExponent_iff

theorem isQuoted_iff_isQuotation : isQuoted cs = true ↔ IsQuotation cs := isQuoted_iff

/-- An exponent begins with its mark. -/
theorem head_of_isPower (h : IsPower mark) :
    ∃ e es, mark = e :: es ∧ isDigit e = false ∧ e ≠ '.' := by
  obtain ⟨e, sign, digits, rfl, rfl | rfl, -⟩ := h
  · exact ⟨_, _, rfl, by decide, by decide⟩
  · exact ⟨_, _, rfl, by decide, by decide⟩

theorem digitNext_of_isPower (h : mark = [] ∨ IsPower mark) : digitNext mark = false := by
  rcases h with rfl | h
  · rfl
  · obtain ⟨e, es, rfl, hdigit, -⟩ := head_of_isPower h
    exact hdigit

theorem isPower_or_nil_iff :
    (mark.isEmpty || isExponent mark) = true ↔ mark = [] ∨ IsPower mark := by
  rw [Bool.or_eq_true, List.isEmpty_iff, isExponent_iff_isPower]

/-- Digits up to a point, and what comes behind the point. -/
theorem isReal_point (hwhole : ∀ c ∈ whole, isDigit c = true)
    (hfraction : ∀ c ∈ fraction, isDigit c = true) (hmark : mark = [] ∨ IsPower mark)
    (hsome : whole ≠ [] ∨ fraction ≠ []) :
    isReal (whole ++ '.' :: (fraction ++ mark)) = true := by
  have hnext := digitNext_of_isPower hmark
  unfold isReal
  rw [takeWhile_digits hwhole rfl, dropWhile_digits hwhole rfl]
  change ((!whole.isEmpty || !((fraction ++ mark).takeWhile isDigit).isEmpty) &&
    (((fraction ++ mark).dropWhile isDigit).isEmpty ||
      isExponent ((fraction ++ mark).dropWhile isDigit))) = true
  rw [takeWhile_digits hfraction hnext, dropWhile_digits hfraction hnext, Bool.and_eq_true,
    isPower_or_nil_iff]
  exact ⟨by simpa using hsome, hmark⟩

theorem isReal_of_isRealNumber (h : IsRealNumber cs) : isReal cs = true := by
  cases h with
  | among hwhole hfraction hmark => exact isReal_point hwhole.2 hfraction hmark (.inl hwhole.1)
  | @front fraction mark hfraction hmark =>
    have hreal := @isReal_point [] fraction mark nofun hfraction.2 hmark (.inr hfraction.1)
    rwa [List.nil_append] at hreal
  | @scaled whole mark hwhole hmark =>
    obtain ⟨e, es, rfl, hdigit, hpoint⟩ := head_of_isPower hmark
    have hnext : digitNext (e :: es) = false := hdigit
    unfold isReal
    rw [takeWhile_digits hwhole.2 hnext, dropWhile_digits hwhole.2 hnext]
    dsimp only
    split
    · rename_i heq
      cases heq
      exact absurd rfl hpoint
    · rw [Bool.and_eq_true, isExponent_iff_isPower]
      exact ⟨by simpa using hwhole.1, hmark⟩

theorem isRealNumber_of_isReal (h : isReal cs = true) : IsRealNumber cs := by
  have hcs := List.takeWhile_append_dropWhile (p := isDigit) (l := cs)
  have hwhole : ∀ c ∈ cs.takeWhile isDigit, isDigit c = true := fun c => List.mem_takeWhile_imp
  unfold isReal at h
  dsimp only at h
  split at h
  · rename_i rest hrest
    have hfraction : ∀ c ∈ rest.takeWhile isDigit, isDigit c = true :=
      fun c => List.mem_takeWhile_imp
    rw [Bool.and_eq_true, isPower_or_nil_iff, Bool.or_eq_true, Bool.not_eq_true',
      Bool.not_eq_true', List.isEmpty_eq_false_iff, List.isEmpty_eq_false_iff] at h
    obtain ⟨hsome, hmark⟩ := h
    rw [← hcs, hrest, ← List.takeWhile_append_dropWhile (p := isDigit) (l := rest)]
    by_cases hnil : cs.takeWhile isDigit = []
    · rw [hnil]
      exact .front ⟨hsome.resolve_left (absurd hnil), hfraction⟩ hmark
    · exact .among ⟨hnil, hwhole⟩ hfraction hmark
  · rw [Bool.and_eq_true, Bool.not_eq_true', List.isEmpty_eq_false_iff,
      isExponent_iff_isPower] at h
    rw [← hcs]
    exact .scaled ⟨h.1, hwhole⟩ h.2

theorem isReal_iff : isReal cs = true ↔ IsRealNumber cs :=
  ⟨isRealNumber_of_isReal, isReal_of_isRealNumber⟩

end Forms

/-! ## The classes -/

/-- The lexical classes: the keywords and operators, the truth values, the names,
the two sorts of numbers and the strings. -/
inductive LexicalClass where
  | spelled | truth | name | integer | real | quoted
  deriving Repr, DecidableEq

namespace LexicalClass

/-- All classes, in the order in which they are asked for. -/
def all : List LexicalClass := [spelled, truth, name, integer, real, quoted]

/-- The texts of a class. -/
def Has : LexicalClass → String → Prop
  | spelled, text => ∃ kind : TokenKind, kind.text? = some text
  | truth, text => text = "true" ∨ text = "false"
  | name, text => IsAsciiName text.toList
  | integer, text => IsDigitRow text.toList
  | real, text => IsRealNumber text.toList
  | quoted, text => IsQuotation text.toList

/-- The kind that the test for a class gives to a text. -/
def kind? : LexicalClass → String → Option TokenKind
  | spelled, text => TokenKind.ofText? text
  | truth, text => if text = "true" || text = "false" then some .boolLiteral else none
  | name, text => if isName text.toList then some .identifier else none
  | integer, text => if isDigits text.toList then some .intLiteral else none
  | real, text => if isReal text.toList then some .realLiteral else none
  | quoted, text => if isQuoted text.toList then some .strLiteral else none

/-- The kind of a text when the classes are asked for in the order given. -/
def firstOf (order : List LexicalClass) (text : String) : Option TokenKind :=
  order.findSome? (·.kind? text)

/-- Two classes that have a text in common. -/
def Overlaps (first second : LexicalClass) : Prop :=
  first = second ∨ first = name ∧ (second = spelled ∨ second = truth) ∨
    second = name ∧ (first = spelled ∨ first = truth)

/-- A keyword and a truth value are asked for before a name. -/
def NameLater (order : List LexicalClass) : Prop :=
  order.idxOf spelled < order.idxOf name ∧ order.idxOf truth < order.idxOf name

/-- The class that decides the kind of a text: of two, the one that is not of names. -/
structure Decides (first : LexicalClass) (text : String) : Prop where
  has : first.Has text
  name : first = name → ¬spelled.Has text ∧ ¬truth.Has text

/-- The class that the texts of a kind are in. -/
def ofKind : TokenKind → LexicalClass
  | .identifier => name
  | .intLiteral => integer
  | .realLiteral => real
  | .strLiteral => quoted
  | .boolLiteral => truth
  | _ => spelled

end LexicalClass

open LexicalClass (firstOf Overlaps NameLater Decides ofKind)

section Classes

variable {first second other : LexicalClass} {text : String} {kind : TokenKind}

theorem LexicalClass.mem_all (first : LexicalClass) : first ∈ all := by
  cases first <;> decide

theorem ofKind_spelled : ∀ kind ∈ TokenKind.spelled, ofKind kind = .spelled := by
  decide +kernel

/-- The test for a class finds its texts and gives them a kind of their own. -/
theorem LexicalClass.has_iff : first.Has text ↔ ∃ kind, first.kind? text = some kind := by
  cases first with
  | spelled => simp only [Has, kind?, TokenKind.ofText?_eq_some_iff]
  | truth => simp [Has, kind?, ite_eq_iff]
  | name => simp [Has, kind?, ite_eq_iff, isName_iff]
  | integer => simp [Has, kind?, ite_eq_iff, isDigits_iff_isDigitRow]
  | real => simp [Has, kind?, ite_eq_iff, isReal_iff]
  | quoted => simp [Has, kind?, ite_eq_iff, isQuoted_iff_isQuotation]

theorem LexicalClass.ofKind_of_kind? (h : first.kind? text = some kind) : ofKind kind = first := by
  cases first with
  | spelled => exact ofKind_spelled kind (TokenKind.mem_spelled (TokenKind.ofText?_eq_some_iff.1 h))
  | truth => exact Option.some.inj (Option.ite_none_right_eq_some.1 h).2 ▸ rfl
  | name => exact Option.some.inj (Option.ite_none_right_eq_some.1 h).2 ▸ rfl
  | integer => exact Option.some.inj (Option.ite_none_right_eq_some.1 h).2 ▸ rfl
  | real => exact Option.some.inj (Option.ite_none_right_eq_some.1 h).2 ▸ rfl
  | quoted => exact Option.some.inj (Option.ite_none_right_eq_some.1 h).2 ▸ rfl

end Classes

/-! ## How the texts of a class begin -/

/-- What the first characters of a text are. -/
inductive Lead where
  | letter | number | quote | other
  deriving Repr, DecidableEq

/-- How a text begins. -/
def Fragment.lead (cs : List Char) : Lead :=
  if cs.head?.any isNameStart then .letter
  else if digitNext cs || pointNext cs then .number
  else if cs.head? = some '"' || cs.head? = some '\'' then .quote
  else .other

/-- How the texts of a class begin: only a fixed spelling is a word or a sign. -/
def LexicalClass.leads : LexicalClass → List Lead
  | spelled => [.letter, .other]
  | truth => [.letter]
  | name => [.letter]
  | integer => [.number]
  | real => [.number]
  | quoted => [.quote]

open Fragment (lead)

section Leads

variable {first second : LexicalClass} {text : String} {kind : TokenKind} {cs : List Char}

theorem lead_of_spelled :
    ∀ kind ∈ TokenKind.spelled, lead kind.spelling.toList ∈ LexicalClass.spelled.leads := by
  decide +kernel

theorem lead_of_isAsciiName (h : IsAsciiName cs) : lead cs = .letter := by
  have hname := isName_iff.2 h
  cases cs with
  | nil => cases hname
  | cons c cs =>
    rw [isName, Bool.and_eq_true] at hname
    unfold lead
    exact if_pos hname.1

theorem lead_of_next (h : digitNext cs = true ∨ pointNext cs = true) : lead cs = .number := by
  cases cs with
  | nil => exact absurd h (by decide)
  | cons c cs =>
    have hstart : isNameStart c = false := by
      rcases next_cons_iff.1 h with hdigit | ⟨rfl, -⟩
      · exact not_isNameStart_of_isDigit hdigit
      · decide
    unfold lead
    rw [List.head?_cons, Option.any_some, hstart, if_neg Bool.false_ne_true,
      if_pos (Bool.or_eq_true_iff.2 h)]

theorem lead_of_isQuotation (h : IsQuotation cs) : lead cs = .quote := by
  obtain ⟨quote, inner, rfl, rfl | rfl, -⟩ := h
  · rfl
  · rfl

theorem lead_of_has (h : first.Has text) : lead text.toList ∈ first.leads := by
  cases first with
  | spelled =>
    obtain ⟨kind, hkind⟩ := h
    have hlead := lead_of_spelled kind (TokenKind.mem_spelled hkind)
    rwa [TokenKind.spelling, hkind] at hlead
  | truth =>
    rcases h with rfl | rfl
    · decide
    · decide
  | name => exact List.mem_singleton.2 (lead_of_isAsciiName h)
  | integer =>
    have hnext := digitNext_append h.2 h.1 []
    rw [List.append_nil] at hnext
    exact List.mem_singleton.2 (lead_of_next (.inl hnext))
  | real => exact List.mem_singleton.2 (lead_of_next (next_of_isReal (isReal_iff.2 h)))
  | quoted => exact List.mem_singleton.2 (lead_of_isQuotation h)

end Leads

/-! ## Texts in two classes -/

section Apart

variable {first second : LexicalClass} {text : String} {kind : TokenKind} {cs : List Char}

/-- What is digits to its end has no point and no exponent. -/
theorem not_isReal_of_isDigitRow (h : IsDigitRow cs) : isReal cs = false := by
  have hdrop : (cs ++ []).dropWhile isDigit = [] := dropWhile_digits h.2 rfl
  rw [List.append_nil] at hdrop
  unfold isReal
  rw [hdrop]
  exact Bool.and_false _

theorem not_spelled_of_truth (h : LexicalClass.truth.Has text) :
    ¬LexicalClass.spelled.Has text := by
  rw [LexicalClass.has_iff]
  rintro ⟨kind, hkind⟩
  rcases h with rfl | rfl
  · exact absurd hkind (by decide +revert)
  · exact absurd hkind (by decide +revert)

theorem not_real_of_integer (h : LexicalClass.integer.Has text) :
    ¬LexicalClass.real.Has text := by
  intro hreal
  have htrue : isReal text.toList = true := isReal_iff.2 hreal
  rw [not_isReal_of_isDigitRow h] at htrue
  cases htrue

/-- Classes whose texts may begin alike. -/
theorem overlaps_of_leads : ∀ first ∈ LexicalClass.all, ∀ second ∈ LexicalClass.all,
    ∀ lead ∈ first.leads, lead ∈ second.leads → Overlaps first second ∨
      (first, second) ∈ [(.spelled, .truth), (.truth, .spelled), (.integer, .real),
        (.real, .integer)] := by
  unfold Overlaps
  decide

/-- Only a word is in two classes. -/
theorem overlaps_of_has (hfirst : first.Has text) (hsecond : second.Has text) :
    Overlaps first second := by
  refine (overlaps_of_leads first first.mem_all second second.mem_all _ (lead_of_has hfirst)
    (lead_of_has hsecond)).resolve_right fun hmem => ?_
  simp only [List.mem_cons, Prod.mk.injEq, List.not_mem_nil, or_false] at hmem
  rcases hmem with ⟨rfl, rfl⟩ | ⟨rfl, rfl⟩ | ⟨rfl, rfl⟩ | ⟨rfl, rfl⟩
  · exact not_spelled_of_truth hsecond hfirst
  · exact not_spelled_of_truth hfirst hsecond
  · exact not_real_of_integer hfirst hsecond
  · exact not_real_of_integer hsecond hfirst

end Apart

/-! ## The order of the tests -/

section Order

variable {first second : LexicalClass} {text : String} {kind : TokenKind}
  {order : List LexicalClass}

/-- The kind of a text comes from the first class that it is in. -/
theorem firstOf_eq_some (hmem : first ∈ order) (hkind : first.kind? text = some kind)
    (hothers : ∀ other ∈ order, other.Has text → order.idxOf first ≤ order.idxOf other) :
    firstOf order text = some kind := by
  unfold firstOf
  induction order with
  | nil => cases hmem
  | cons c rest ih =>
    by_cases hc : c = first
    · rw [List.findSome?_cons_of_isSome (by rw [hc, hkind]; rfl), hc, hkind]
    have hfirst : (c :: rest).idxOf first = rest.idxOf first + 1 := List.idxOf_cons_ne rest hc
    have hnone : c.kind? text = none := by
      cases hkind' : c.kind? text with
      | none => rfl
      | some other =>
        have hle := hothers c List.mem_cons_self (LexicalClass.has_iff.2 ⟨other, hkind'⟩)
        rw [hfirst, List.idxOf_cons_self] at hle
        cases hle
    rw [List.findSome?_cons_of_isNone (by rw [hnone]; rfl)]
    refine ih ((List.mem_cons.1 hmem).resolve_left (Ne.symm hc)) fun other hother hhas => ?_
    have hle := hothers other (List.mem_cons_of_mem c hother) hhas
    have hne : c ≠ other := by
      rintro rfl
      obtain ⟨kind', hkind'⟩ := LexicalClass.has_iff.1 hhas
      rw [hnone] at hkind'
      cases hkind'
    rw [hfirst, List.idxOf_cons_ne rest hne] at hle
    exact Nat.le_of_succ_le_succ hle

/-- The kind of a text is decided by asking for the classes in turn. -/
theorem classify?_eq_firstOf (text : String) : classify? text = firstOf LexicalClass.all text := by
  simp only [firstOf, LexicalClass.all, List.findSome?_cons, List.findSome?_nil,
    LexicalClass.kind?]
  unfold classify?
  cases TokenKind.ofText? text with
  | some kind => rfl
  | none =>
    dsimp only
    repeat' split
    all_goals simp_all

theorem exists_decides (h : first.Has text) : ∃ second, Decides second text := by
  by_cases hspelled : LexicalClass.spelled.Has text
  · exact ⟨.spelled, hspelled, nofun⟩
  by_cases htruth : LexicalClass.truth.Has text
  · exact ⟨.truth, htruth, nofun⟩
  exact ⟨first, h, fun _ => ⟨hspelled, htruth⟩⟩

theorem firstOf_of_decides (hmem : first ∈ order) (hlater : NameLater order)
    (hdecides : Decides first text) (hkind : first.kind? text = some kind) :
    firstOf order text = some kind := by
  refine firstOf_eq_some hmem hkind fun other _ hother => ?_
  rcases overlaps_of_has hdecides.has hother with rfl | ⟨rfl, rfl | rfl⟩ | ⟨rfl, rfl | rfl⟩
  · exact Nat.le_refl _
  · exact absurd hother (hdecides.name rfl).1
  · exact absurd hother (hdecides.name rfl).2
  · exact Nat.le_of_lt hlater.1
  · exact Nat.le_of_lt hlater.2

theorem firstOf_eq_none (hnone : ∀ first : LexicalClass, ¬first.Has text) :
    firstOf order text = none := by
  refine List.findSome?_eq_none_iff.2 fun first _ => ?_
  cases hkind : first.kind? text with
  | none => rfl
  | some kind => exact absurd (LexicalClass.has_iff.2 ⟨kind, hkind⟩) (hnone first)

theorem nameLater_all : NameLater LexicalClass.all := by
  unfold NameLater
  decide

theorem classify?_of_decides (hdecides : Decides first text)
    (hkind : first.kind? text = some kind) : classify? text = some kind := by
  rw [classify?_eq_firstOf]
  exact firstOf_of_decides first.mem_all nameLater_all hdecides hkind

theorem classify?_eq_none_iff_not_has :
    classify? text = none ↔ ∀ first : LexicalClass, ¬first.Has text := by
  constructor
  · intro hnone first hfirst
    obtain ⟨second, hdecides⟩ := exists_decides hfirst
    obtain ⟨kind, hkind⟩ := LexicalClass.has_iff.1 hdecides.has
    rw [classify?_of_decides hdecides hkind] at hnone
    cases hnone
  · intro hnone
    rw [classify?_eq_firstOf]
    exact firstOf_eq_none hnone

/-- A text has a kind when the class of that kind decides. -/
theorem classify?_eq_some_iff : classify? text = some kind ↔
    (ofKind kind).kind? text = some kind ∧ Decides (ofKind kind) text := by
  constructor
  · intro h
    have hsome : ∃ first : LexicalClass, first.Has text := by
      by_contra hnone
      rw [classify?_eq_none_iff_not_has.2 (not_exists.1 hnone)] at h
      cases h
    obtain ⟨first, hfirst⟩ := hsome
    obtain ⟨second, hdecides⟩ := exists_decides hfirst
    obtain ⟨found, hfound⟩ := LexicalClass.has_iff.1 hdecides.has
    have hsame : found = kind := by
      rw [classify?_of_decides hdecides hfound] at h
      exact Option.some.inj h
    rw [← hsame, second.ofKind_of_kind? hfound]
    exact ⟨hfound, hdecides⟩
  · rintro ⟨hkind, hdecides⟩
    exact classify?_of_decides hdecides hkind

/-- A word that is no name in the end is in a class that is asked for before the names. -/
theorem idxOf_lt_of_firstOf (hmem : .name ∈ order) (hname : isName text.toList = true)
    (hfirst : first.Has text) (hother : first ≠ .name)
    (hkind : firstOf order text ≠ some .identifier) :
    order.idxOf first < order.idxOf .name := by
  by_contra hle
  refine hkind (firstOf_eq_some hmem (if_pos hname) fun other _ hhas => ?_)
  rcases overlaps_of_has hhas hfirst with rfl | ⟨rfl, -⟩ | ⟨rfl, -⟩
  · exact Nat.le_of_not_lt hle
  · exact Nat.le_refl _
  · exact absurd rfl hother

/-- In the right order every text gets its kind, in any other some word does not. -/
theorem firstOf_eq_classify?_iff (hperm : order.Perm LexicalClass.all) :
    (∀ text, firstOf order text = classify? text) ↔ NameLater order := by
  have hmem : ∀ first, first ∈ order := fun first => hperm.mem_iff.2 first.mem_all
  constructor
  · intro h
    have hword : ∀ {first : LexicalClass} {word : String}, isName word.toList = true →
        first.Has word → first ≠ .name → classify? word ≠ some .identifier →
          order.idxOf first < order.idxOf .name := by
      intro first word hname hfirst hother hkind
      exact idxOf_lt_of_firstOf (hmem _) hname hfirst hother (h word ▸ hkind)
    have hspelled : LexicalClass.spelled.Has "if" := ⟨.kwIf, rfl⟩
    have htruth : LexicalClass.truth.Has "true" := .inl rfl
    exact ⟨hword (by decide) hspelled nofun (by decide +kernel),
      hword (by decide) htruth nofun (by decide +kernel)⟩
  · intro hlater text
    by_cases hsome : ∃ first : LexicalClass, first.Has text
    · obtain ⟨first, hfirst⟩ := hsome
      obtain ⟨second, hdecides⟩ := exists_decides hfirst
      obtain ⟨kind, hkind⟩ := LexicalClass.has_iff.1 hdecides.has
      rw [firstOf_of_decides (hmem second) hlater hdecides hkind,
        classify?_of_decides hdecides hkind]
    · have hnone := not_exists.1 hsome
      rw [firstOf_eq_none hnone, classify?_eq_none_iff_not_has.2 hnone]

end Order

/-! ## A line feed at the end -/

/-- No token ends in a line feed, be it a string that may have one in it. -/
theorem classify?_lineFeed (text : String) : classify? (text ++ "\n") = none := by
  cases h : classify? (text ++ "\n") with
  | none => rfl
  | some kind =>
    exfalso
    have hform := hasForm_of_classify? h
    rw [String.toList_append] at hform
    by_cases hkind : kind = .strLiteral
    · subst hkind
      obtain ⟨quote, inner, htext, hquote, -⟩ := isQuoted_iff.1 (isQuoted_of_hasForm hform)
      have hlast := congrArg List.getLast? htext
      rw [← List.cons_append, List.getLast?_concat, List.getLast?_append] at hlast
      rcases hquote with rfl | rfl
      · exact absurd hlast (by simp)
      · exact absurd hlast (by simp)
    · have hblank := not_isBlank_of_hasForm hform hkind '\n' (by simp)
      exact absurd hblank (by decide)

/-! ## The law -/

section Law

variable {text : String}

theorem classify?_eq_boolLiteral_iff :
    classify? text = some .boolLiteral ↔ LexicalClass.truth.Has text := by
  rw [classify?_eq_some_iff]
  constructor
  · exact fun h => h.2.has
  · intro h
    refine ⟨if_pos ?_, h, nofun⟩
    simpa [LexicalClass.Has] using h

theorem classify?_eq_intLiteral_iff :
    classify? text = some .intLiteral ↔ LexicalClass.integer.Has text := by
  rw [classify?_eq_some_iff]
  exact ⟨fun h => h.2.has, fun h => ⟨if_pos (isDigits_iff.2 h), h, nofun⟩⟩

theorem classify?_eq_realLiteral_iff :
    classify? text = some .realLiteral ↔ LexicalClass.real.Has text := by
  rw [classify?_eq_some_iff]
  exact ⟨fun h => h.2.has, fun h => ⟨if_pos (isReal_iff.2 h), h, nofun⟩⟩

theorem classify?_eq_strLiteral_iff :
    classify? text = some .strLiteral ↔ LexicalClass.quoted.Has text := by
  rw [classify?_eq_some_iff]
  exact ⟨fun h => h.2.has, fun h => ⟨if_pos (isQuoted_iff.2 h), h, nofun⟩⟩

theorem classify?_eq_name_iff : classify? text = some .identifier ↔
    LexicalClass.name.Has text ∧ ¬LexicalClass.spelled.Has text ∧ ¬LexicalClass.truth.Has text := by
  rw [classify?_eq_some_iff]
  constructor
  · exact fun h => ⟨h.2.has, h.2.name rfl⟩
  · exact fun h => ⟨if_pos (isName_iff.2 h.1), h.1, fun _ => h.2⟩

theorem classify?_eq_spelled_iff {kind : TokenKind} (hkind : kind ∈ TokenKind.spelled) :
    classify? text = some kind ↔ kind.text? = some text := by
  rw [classify?_eq_some_iff, ofKind_spelled kind hkind]
  constructor
  · exact fun h => TokenKind.ofText?_eq_some_iff.1 h.1
  · exact fun h => ⟨TokenKind.ofText?_eq_some_iff.2 h, ⟨kind, h⟩, nofun⟩

theorem exists_has (first : LexicalClass) : ∃ text, first.Has text := by
  simp only [LexicalClass.has_iff]
  cases first with
  | spelled => exact ⟨"if", .kwIf, by decide +kernel⟩
  | truth => exact ⟨"true", .boolLiteral, by decide⟩
  | name => exact ⟨"_", .identifier, by decide⟩
  | integer => exact ⟨"0", .intLiteral, by decide⟩
  | real => exact ⟨".5", .realLiteral, by decide⟩
  | quoted => exact ⟨"''", .strLiteral, by decide⟩

/-- The classes of words overlap, and no others do. -/
theorem exists_has_iff_overlaps {first second : LexicalClass} :
    (∃ text, first.Has text ∧ second.Has text) ↔ Overlaps first second := by
  have hword : LexicalClass.name.Has "if" := LexicalClass.has_iff.2 ⟨.identifier, by decide⟩
  have htrue : LexicalClass.name.Has "true" := LexicalClass.has_iff.2 ⟨.identifier, by decide⟩
  constructor
  · rintro ⟨text, hfirst, hsecond⟩
    exact overlaps_of_has hfirst hsecond
  · rintro (rfl | ⟨rfl, rfl | rfl⟩ | ⟨rfl, rfl | rfl⟩)
    · obtain ⟨text, h⟩ := exists_has first
      exact ⟨text, h, h⟩
    · exact ⟨"if", hword, .kwIf, rfl⟩
    · exact ⟨"true", htrue, .inl rfl⟩
    · exact ⟨"if", ⟨.kwIf, rfl⟩, hword⟩
    · exact ⟨"true", .inl rfl, htrue⟩

/-- Each kind is given to the texts of its class and to no other text, save that a
keyword and a truth value are no names. No text is in two classes but for those words,
so the classes can be asked for in any order that has them before the names. -/
theorem text_has_the_kind_of_its_class :
    (∀ kind ∈ TokenKind.spelled, ∀ text,
      classify? text = some kind ↔ kind.text? = some text) ∧
    (∀ text, classify? text = some .boolLiteral ↔ LexicalClass.truth.Has text) ∧
    (∀ text, classify? text = some .identifier ↔ LexicalClass.name.Has text ∧
      ¬LexicalClass.spelled.Has text ∧ ¬LexicalClass.truth.Has text) ∧
    (∀ text, classify? text = some .intLiteral ↔ LexicalClass.integer.Has text) ∧
    (∀ text, classify? text = some .realLiteral ↔ LexicalClass.real.Has text) ∧
    (∀ text, classify? text = some .strLiteral ↔ LexicalClass.quoted.Has text) ∧
    (∀ text, classify? text = none ↔ ∀ first : LexicalClass, ¬first.Has text) ∧
    (∀ text, classify? (text ++ "\n") = none) ∧
    (∀ first second : LexicalClass,
      (∃ text, first.Has text ∧ second.Has text) ↔ Overlaps first second) ∧
    ∀ order : List LexicalClass, order.Perm LexicalClass.all →
      ((∀ text, firstOf order text = classify? text) ↔ NameLater order) :=
  ⟨fun _ hkind _ => classify?_eq_spelled_iff hkind, fun _ => classify?_eq_boolLiteral_iff,
    fun _ => classify?_eq_name_iff, fun _ => classify?_eq_intLiteral_iff,
    fun _ => classify?_eq_realLiteral_iff, fun _ => classify?_eq_strLiteral_iff,
    fun _ => classify?_eq_none_iff_not_has, classify?_lineFeed,
    fun _ _ => exists_has_iff_overlaps, fun _ hperm => firstOf_eq_classify?_iff hperm⟩

/-- Strings first, numbers apart, and the names at the end. -/
theorem names_last_is_an_order :
    let order := [.quoted, .truth, .real, .spelled, .integer, .name]
    TokenKind.divide ∈ TokenKind.spelled ∧ order.Perm LexicalClass.all ∧
      (classify? "/" = some .divide ↔ TokenKind.divide.text? = some "/") ∧
        ∀ text, firstOf order text = classify? text := by
  intro order
  have hmem : TokenKind.divide ∈ TokenKind.spelled := by decide
  have hperm : order.Perm LexicalClass.all := by decide
  obtain ⟨hspelled, -, -, -, -, -, -, -, -, horder⟩ := text_has_the_kind_of_its_class
  exact ⟨hmem, hperm, hspelled .divide hmem "/", (horder order hperm).2 (by
    unfold NameLater
    decide)⟩

end Law

end Pseudocode
