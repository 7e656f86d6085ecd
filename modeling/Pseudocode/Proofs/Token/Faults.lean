-- What can be wrong at one place of a line: a string without its end, a number
-- that runs into a word, or a fragment that no token is spelled like. Nothing
-- else keeps a fragment from being read there and from having a kind.
import Pseudocode.Proofs.Token.Rereading

namespace Pseudocode

open Text
open Fragment (Fault IsNumber HasForm digitNext wordNext pointNext isName isNameStart isNameChar
  isDigits isReal isQuoted isExponent signOf exponent fraction number readNumber readString
  takesEqual)

/-! ## The longest number -/

namespace Fragment

/-- Digits with a point and an exponent as a number may have them. -/
def IsNumeral (found : List Char) : Prop :=
  ∃ whole point mark, found = whole ++ (point ++ mark) ∧ IsNumber whole point mark

/-- The text begins with the number, and with no longer one. -/
structure LongestNumber (found cs : List Char) : Prop where
  numeral : IsNumeral found
  front : found <+: cs
  longest : ∀ other, IsNumeral other → other <+: cs → other.length ≤ found.length

end Fragment

open Fragment (IsNumeral LongestNumber)

section Numbers

variable {cs found rest whole point mark : List Char}

/-- More digits can follow an exponent, but none of it is lost. -/
theorem prefix_exponent_of_isExponent (h : isExponent mark = true) (rest : List Char) :
    mark <+: exponent (mark ++ rest) := by
  obtain ⟨e, sign, digits, rfl, he, hsign, hne, hd⟩ := isExponent_iff.1 h
  have hmark : (decide (e = 'e') || decide (e = 'E')) = true := by simpa using he
  have hsignOf : signOf (sign ++ (digits ++ rest)) = sign :=
    signOf_of_digitNext hsign (digitNext_append hd hne rest)
  have hdigits : (digits ++ rest).takeWhile isDigit = digits ++ rest.takeWhile isDigit :=
    List.takeWhile_append_of_pos hd
  have hsome : (digits ++ rest.takeWhile isDigit).isEmpty = false := by simp [hne]
  rw [List.cons_append, List.append_assoc, exponent]
  simp only [hsignOf, List.drop_left, hdigits, hmark, hsome, Bool.not_false, Bool.and_self,
    if_true, List.cons_append]
  rw [← List.append_assoc]
  exact List.prefix_append (e :: (sign ++ digits)) _

/-- An exponent begins with its mark. -/
theorem digitNext_of_isExponent (h : isExponent mark = true) (rest : List Char) :
    digitNext (mark ++ rest) = false := by
  obtain ⟨e, sign, digits, rfl, rfl | rfl, -⟩ := isExponent_iff.1 h
  · rfl
  · rfl

/-- A number in front of a text is in front of the number that is found there. -/
theorem Fragment.IsNumber.prefix_number (h : IsNumber whole point mark)
    (hcs : cs = whole ++ (point ++ (mark ++ rest))) : whole ++ (point ++ mark) <+: number cs := by
  obtain ⟨whole', point', mark', rest', hparts, hnumber, hwhole, hpoint, hmark⟩ := number_parts cs
  rw [hnumber]
  by_cases hdigits : point = [] ∧ mark = []
  · -- more digits can follow
    obtain ⟨rfl, rfl⟩ := hdigits
    have htake : cs.takeWhile isDigit = whole ++ rest.takeWhile isDigit := by
      rw [hcs]
      exact List.takeWhile_append_of_pos h.whole_digits
    rw [hwhole, htake, List.append_nil, List.append_nil, List.append_assoc]
    exact List.prefix_append whole _
  -- the digits end where the point or the exponent begins
  have hstop : digitNext (point ++ (mark ++ rest)) = false := by
    rcases h.point_form with rfl | ⟨ds, rfl, -⟩
    · exact digitNext_of_isExponent (h.mark_form.resolve_left fun hm => hdigits ⟨rfl, hm⟩) rest
    · rfl
  have hsame : whole' = whole := by
    rw [hwhole, hcs]
    exact takeWhile_digits h.whole_digits hstop
  have hrest : point' ++ (mark' ++ rest') = point ++ (mark ++ rest) := by
    rw [hcs, hsame] at hparts
    exact (List.append_cancel_left hparts).symm
  rw [hsame]
  refine (List.prefix_append_right_inj whole).2 ?_
  rcases h.mark_form with hm | hm
  · rw [hm, List.append_nil]
    obtain ⟨ds, hp, hne, hd⟩ := h.point_form.resolve_left fun hp => hdigits ⟨hp, hm⟩
    have htake : point' = '.' :: (ds ++ rest.takeWhile isDigit) := by
      rw [hpoint, hrest, hp, hm, List.nil_append, List.cons_append, fraction,
        if_pos (digitNext_append hd hne rest), List.takeWhile_append_of_pos hd]
    rw [hp, htake, ← List.cons_append, List.append_assoc]
    exact List.prefix_append ('.' :: ds) _
  · have hsame' : point' = point := by
      rw [hpoint, hrest]
      rcases h.point_form with hp | ⟨ds, hp, hne, hd⟩
      · rw [hp, List.nil_append]
        exact fraction_of_pointNext (pointNext_mark hm rest)
      · rw [hp]
        exact fraction_append hd hne (digitNext_of_isExponent hm rest)
    rw [hsame'] at hrest ⊢
    rw [hmark, List.append_cancel_left hrest]
    exact (List.prefix_append_right_inj point).2 (prefix_exponent_of_isExponent hm rest)

theorem next_of_isNumeral (h : IsNumeral found) (hfront : found <+: cs) :
    digitNext cs = true ∨ pointNext cs = true := by
  obtain ⟨whole, point, mark, rfl, hnumber⟩ := h
  obtain ⟨rest, rfl⟩ := hfront
  exact next_append hnumber.next rest

/-- The longest number is the one that is found. -/
theorem longestNumber_iff : LongestNumber found cs ↔
    number cs = found ∧ (digitNext cs = true ∨ pointNext cs = true) := by
  constructor
  · intro h
    have hnext := next_of_isNumeral h.numeral h.front
    obtain ⟨whole, point, mark, rfl, hnumber⟩ := h.numeral
    obtain ⟨rest, hrest⟩ := h.front
    have hcs : cs = whole ++ (point ++ (mark ++ rest)) := by
      rw [← hrest, List.append_assoc, List.append_assoc]
    have hle := hnumber.prefix_number hcs
    obtain ⟨whole', point', mark', rest', -, hfound, his, -⟩ := isNumber_of_number hnext
    have hge := h.longest (number cs) ⟨whole', point', mark', hfound, his⟩ (prefix_number cs)
    exact ⟨(hle.eq_of_length_le hge).symm, hnext⟩
  · rintro ⟨rfl, hnext⟩
    obtain ⟨whole, point, mark, rest, -, hfound, his, -⟩ := isNumber_of_number hnext
    refine ⟨⟨whole, point, mark, hfound, his⟩, prefix_number cs, ?_⟩
    rintro other ⟨whole', point', mark', rfl, hother⟩ ⟨rest', hrest'⟩
    have hcs : cs = whole' ++ (point' ++ (mark' ++ rest')) := by
      rw [← hrest', List.append_assoc, List.append_assoc]
    exact (hother.prefix_number hcs).length_le

end Numbers

/-! ## Text without a kind -/

/-- A text has no kind when it has none of the forms. -/
theorem classify?_eq_none_iff {text : String} : Fragment.classify? text = none ↔
    TokenKind.ofText? text = none ∧ text ≠ "true" ∧ text ≠ "false" ∧
      isName text.toList = false ∧ isDigits text.toList = false ∧
      isReal text.toList = false ∧ isQuoted text.toList = false := by
  unfold Fragment.classify?
  cases TokenKind.ofText? text with
  | some kind => simp
  | none => simp [ite_eq_iff, and_assoc]

/-! ## Words -/

/-- A word: a letter or an underscore, and whatever a word goes on with. -/
def Fragment.IsWord : List Char → Prop
  | [] => False
  | c :: cs => isWordStart c = true ∧ ∀ d ∈ cs, isWordChar d = true

open Fragment (IsWord)

section Words

variable {c : Char} {cs word rest : List Char}

theorem isNameStart_of_isWordStart (h : isWordStart c = true) (hsmall : c.toNat < 0x80) :
    isNameStart c = true := by
  unfold isWordStart isLetter at h
  rwa [if_pos hsmall] at h

theorem isNameChar_of_isWordChar (h : isWordChar c = true) (hsmall : c.toNat < 0x80) :
    isNameChar c = true := by
  unfold isWordChar isLetter isNumeric at h
  rw [if_pos hsmall, if_pos hsmall, Bool.or_assoc, Bool.or_comm (isDigit c), ← Bool.or_assoc] at h
  exact h

/-- A word ends where no character of a word comes next. -/
theorem wordNext_dropWhile (cs : List Char) : wordNext (cs.dropWhile isWordChar) = false := by
  cases hrest : cs.dropWhile isWordChar with
  | nil => rfl
  | cons c rest =>
    have hstop := List.head?_dropWhile_not isWordChar cs
    rw [hrest] at hstop
    simpa [wordNext] using hstop

theorem not_isBlank_of_isWordStart (h : isWordStart c = true) : isBlank c = false := by
  cases hb : isBlank c with
  | false => rfl
  | true =>
    have hword := isWordChar_of_isWordStart h
    rw [not_isWordChar_of_isBlank hb] at hword
    cases hword

theorem toNat_of_isName (h : isName word = true) : ∀ c ∈ word, c.toNat < 0x80 := by
  cases word with
  | nil => cases h
  | cons first word =>
    have hstart : ∀ {c}, isNameStart c = true → c.toNat < 0x80 := by
      intro c hc
      have := toNat_of_isNameStart hc
      omega
    rw [isName, Bool.and_eq_true, List.all_eq_true] at h
    refine List.forall_mem_cons.2 ⟨hstart h.1, fun c hc => ?_⟩
    have hchar := h.2 c hc
    rw [isNameChar, Bool.or_eq_true] at hchar
    rcases hchar with hletter | hdigit
    · exact hstart hletter
    · have := isDigit_iff.1 hdigit
      omega

/-- What begins as a word and has a kind is a name. -/
theorem isName_of_hasForm {kind : TokenKind} (hc : isWordStart c = true)
    (h : HasForm kind (c :: cs)) : isName (c :: cs) = true := by
  generalize htext : c :: cs = text at h
  cases h with
  | word _ hname => exact hname
  | symbol hkind =>
    obtain ⟨d, ds, hchars, -, -, -, hword, -⟩ := chars_of_symbol hkind
    rw [hchars] at htext
    rw [(List.cons.inj htext).1, hword] at hc
    cases hc
  | integer hdigits =>
    subst htext
    have hdigit := (isDigits_iff.1 hdigits).2 c List.mem_cons_self
    rw [not_isWordStart_of_isDigit hdigit] at hc
    cases hc
  | real hreal =>
    subst htext
    rw [not_isWordStart_of_next (next_cons_iff.1 (next_of_isReal hreal))] at hc
    cases hc
  | string hquoted =>
    obtain ⟨quote, inner, hchars, hquote, -⟩ := isQuoted_iff.1 hquoted
    rw [hchars] at htext
    rw [(List.cons.inj htext).1] at hc
    rcases hquote with rfl | rfl
    · exact absurd hc (by decide)
    · exact absurd hc (by decide)

/-- A word has no kind exactly when a character beyond ASCII is in it. -/
theorem classify?_word_eq_none_iff (h : IsWord word) :
    Fragment.classify? (String.ofList word) = none ↔ ∃ c ∈ word, 0x80 ≤ c.toNat := by
  cases word with
  | nil => exact h.elim
  | cons c cs =>
    constructor
    · intro hnone
      by_contra hsmall
      have hascii : ∀ d ∈ c :: cs, d.toNat < 0x80 := by
        intro d hd
        exact Nat.lt_of_not_le fun hle => hsmall ⟨d, hd, hle⟩
      have hname : isName (c :: cs) = true := by
        rw [isName, Bool.and_eq_true, List.all_eq_true]
        exact ⟨isNameStart_of_isWordStart h.1 (hascii c List.mem_cons_self), fun d hd =>
          isNameChar_of_isWordChar (h.2 d hd) (hascii d (List.mem_cons_of_mem c hd))⟩
      obtain ⟨-, -, -, hfalse, -⟩ := classify?_eq_none_iff.1 hnone
      rw [String.toList_ofList, hname] at hfalse
      cases hfalse
    · rintro ⟨d, hd, hlarge⟩
      cases hclass : Fragment.classify? (String.ofList (c :: cs)) with
      | none => rfl
      | some kind =>
        have hform := hasForm_of_classify? hclass
        rw [String.toList_ofList] at hform
        have hsmall := toNat_of_isName (isName_of_hasForm h.1 hform) d hd
        omega

end Words

/-! ## Other characters -/

section Characters

variable {c : Char} {fragment : List Char}

theorem ofFragment_of_classify?_none (h : Fragment.classify? (String.ofList fragment) = none) :
    Lexeme.ofFragment fragment = .error (.unknown (String.ofList fragment)) := by
  unfold Lexeme.ofFragment
  rw [h]

theorem ofText?_symbol : ∀ kind ∈ symbols, TokenKind.ofText? kind.spelling ≠ none := by
  decide +kernel

/-- A character by itself that is no letter and no digit has a kind only as an operator. -/
theorem classify?_character (hword : isWordStart c = false) (hdigit : isDigit c = false)
    (hpoint : c ≠ '.') (hoperator : TokenKind.ofText? (String.ofList [c]) = none) :
    Fragment.classify? (String.ofList [c]) = none := by
  cases hclass : Fragment.classify? (String.ofList [c]) with
  | none => rfl
  | some kind =>
    exfalso
    have hform := hasForm_of_classify? hclass
    rw [String.toList_ofList] at hform
    generalize htext : [c] = text at hform
    cases hform with
    | word _ hname =>
      subst htext
      rw [isName, Bool.and_eq_true] at hname
      rw [isWordStart_of_isNameStart hname.1] at hword
      cases hword
    | symbol hkind =>
      rw [htext, String.ofList_toList] at hoperator
      exact ofText?_symbol _ hkind hoperator
    | integer hdigits =>
      subst htext
      rw [(isDigits_iff.1 hdigits).2 c (List.mem_singleton.2 rfl)] at hdigit
      cases hdigit
    | real hreal =>
      subst htext
      rcases next_cons_iff.1 (next_of_isReal hreal) with hc | ⟨hc, -⟩
      · rw [hc] at hdigit
        cases hdigit
      · exact hpoint hc
    | string hquoted =>
      obtain ⟨quote, inner, hchars, -, -⟩ := isQuoted_iff.1 hquoted
      rw [hchars] at htext
      have hlength := congrArg List.length htext
      simp at hlength

end Characters

/-! ## Faults -/

/-- Something is wrong with the fragment that the text begins with. -/
inductive Fragment.FaultAt : List Char → Fault → Prop where
  | unterminated {quote : Char} {cs : List Char} (hquote : quote = '"' ∨ quote = '\'')
      (hnone : quote ∉ cs) : FaultAt (quote :: cs) .unterminated
  | number {found word rest : List Char} (hfound : LongestNumber found (found ++ (word ++ rest)))
      (hsome : word ≠ []) (hword : ∀ c ∈ word, isWordChar c = true)
      (hrest : wordNext rest = false) :
      FaultAt (found ++ (word ++ rest)) (.badNumber (String.ofList (found ++ word)))
  | word {word rest : List Char} (hword : IsWord word) (hrest : wordNext rest = false)
      (hforeign : ∃ c ∈ word, 0x80 ≤ c.toNat) :
      FaultAt (word ++ rest) (.unknown (String.ofList word))
  | exclamation {rest : List Char} (hequal : rest.head? ≠ some '=') :
      FaultAt ('!' :: rest) (.unknown "!")
  | character {c : Char} {rest : List Char} (hblank : isBlank c = false)
      (hword : isWordStart c = false) (hdigit : isDigit c = false)
      (hquote : ¬(c = '"' ∨ c = '\'')) (hother : c ≠ '!')
      (hoperator : TokenKind.ofText? (String.ofList [c]) = none) :
      FaultAt (c :: rest) (.unknown (String.ofList [c]))

open Fragment (FaultAt)

section Reading

variable {c : Char} {cs fragment : List Char} {fault : Fault}

/-- A number is refused where a word comes right behind it. -/
theorem readNumber_eq_error_iff : readNumber cs = .error fault ↔
    ∃ word rest, cs = number cs ++ (word ++ rest) ∧ word ≠ [] ∧
      (∀ c ∈ word, isWordChar c = true) ∧ wordNext rest = false ∧
      fault = .badNumber (String.ofList (number cs ++ word)) := by
  obtain ⟨behind, hbehind⟩ := prefix_number cs
  have hdrop : cs.drop (number cs).length = behind := drop_length_of_append hbehind
  unfold readNumber
  dsimp only
  rw [hdrop]
  constructor
  · intro h
    split at h
    · cases h
    · rename_i hsome
      cases h
      refine ⟨behind.takeWhile isWordChar, behind.dropWhile isWordChar, ?_, ?_,
        fun c => List.mem_takeWhile_imp, wordNext_dropWhile behind, rfl⟩
      · rw [List.takeWhile_append_dropWhile, hbehind]
      · exact fun hnil => hsome (List.isEmpty_iff.2 hnil)
  · rintro ⟨word, rest, hcs, hsome, hword, hrest, rfl⟩
    have hsame : behind = word ++ rest := List.append_cancel_left (hbehind.trans hcs)
    have htake : behind.takeWhile isWordChar = word := by
      rw [hsame, List.takeWhile_append_of_pos hword, takeWhile_of_wordNext hrest, List.append_nil]
    rw [htake, if_neg (by simpa using hsome)]

/-- A string is refused where its quote does not come again. -/
theorem readString_eq_error_iff {quote : Char} : readString quote cs = .error fault ↔
    quote ∉ cs ∧ fault = .unterminated := by
  cases hread : readString quote cs with
  | ok fragment =>
    obtain ⟨inner, rest, rfl, -, -⟩ := readString_eq_ok_iff.1 hread
    simp
  | error found =>
    have hfound : found = .unterminated := by
      unfold readString at hread
      dsimp only at hread
      split at hread
      · cases hread
      · cases hread
        rfl
    have hnone : quote ∉ cs := by
      intro hmem
      obtain ⟨inner, rest, rfl, hfirst⟩ := List.eq_append_cons_of_mem hmem
      rw [readString_eq_ok_iff.2 ⟨inner, rest, rfl, hfirst, rfl⟩] at hread
      cases hread
    subst hfound
    simp [hnone, eq_comm]

/-- What is wrong with a fragment keeps it from being read, or from having a kind. -/
theorem read_of_faultAt (h : FaultAt (c :: cs) fault) : isBlank c = false ∧
    ¬(c = '/' ∧ cs.head? = some '/') ∧
      (Fragment.read c cs >>= Lexeme.ofFragment) = .error fault := by
  have hslash : ∀ {c : Char} {cs : List Char}, c ≠ '/' → ¬(c = '/' ∧ cs.head? = some '/') :=
    fun hne hboth => hne hboth.1
  generalize htext : c :: cs = text at h
  cases h with
  | @unterminated quote _ hquote hnone =>
    obtain ⟨rfl, rfl⟩ := List.cons.inj htext
    rw [read_quote hquote, readString_eq_error_iff.2 ⟨hnone, rfl⟩]
    rcases hquote with rfl | rfl
    · exact ⟨by decide, hslash (by decide), rfl⟩
    · exact ⟨by decide, hslash (by decide), rfl⟩
  | @number found word rest hfound hsome hword hrest =>
    rw [← htext] at hfound
    obtain ⟨hnumber, hnext⟩ := longestNumber_iff.1 hfound
    have hread : readNumber (c :: cs) = .error (.badNumber (String.ofList (found ++ word))) :=
      readNumber_eq_error_iff.2
        ⟨word, rest, by rw [hnumber, htext], hsome, hword, hrest, by rw [hnumber]⟩
    rw [read_number hnext, hread]
    rcases next_cons_iff.1 hnext with hdigit | ⟨rfl, -⟩
    · refine ⟨not_isBlank_of_isDigit hdigit, hslash ?_, rfl⟩
      rintro rfl
      exact absurd hdigit (by decide)
    · exact ⟨by decide, hslash (by decide), rfl⟩
  | @word word rest hword hrest hforeign =>
    cases word with
    | nil => exact hword.elim
    | cons d ds =>
      obtain ⟨rfl, hcs⟩ := List.cons.inj (htext.trans (List.cons_append ..))
      have htake : cs.takeWhile isWordChar = ds := by
        rw [hcs, List.takeWhile_append_of_pos hword.2, takeWhile_of_wordNext hrest,
          List.append_nil]
      have hclass := (classify?_word_eq_none_iff hword).2 hforeign
      refine ⟨not_isBlank_of_isWordStart hword.1, hslash ?_, ?_⟩
      · rintro rfl
        exact absurd hword.1 (by decide)
      · rw [read_word hword.1, htake]
        exact ofFragment_of_classify?_none hclass
  | @exclamation rest hequal =>
    obtain ⟨rfl, rfl⟩ := List.cons.inj htext
    refine ⟨by decide, hslash (by decide), ?_⟩
    rw [read_symbol (by decide) (by decide) (by decide) (by decide) (fun h => absurd h (by decide)),
      if_neg fun hboth => hequal hboth.2]
    have hnone : Fragment.classify? (String.ofList ['!']) = none := by decide +kernel
    exact ofFragment_of_classify?_none hnone
  | @character _ rest hblank hword hdigit hquote hother hoperator =>
    obtain ⟨rfl, rfl⟩ := List.cons.inj htext
    rw [not_or] at hquote
    have hne : ∀ {mark : Char}, TokenKind.ofText? (String.ofList [mark]) ≠ none → c ≠ mark := by
      rintro mark hsome rfl
      exact hsome hoperator
    have hpoint : c ≠ '.' := hne (by decide)
    have hequal : takesEqual c = false := by
      have h₁ : c ≠ '=' := hne (by decide)
      have h₂ : c ≠ '<' := hne (by decide)
      have h₃ : c ≠ '>' := hne (by decide)
      simp [takesEqual, h₁, h₂, h₃, hother]
    have hnone : ¬(takesEqual c = true ∧ cs.head? = some '=') := by simp [hequal]
    refine ⟨hblank, hslash (hne (by decide)), ?_⟩
    rw [read_symbol hword hdigit hquote.1 hquote.2 (fun hc => absurd hc hpoint), if_neg hnone]
    exact ofFragment_of_classify?_none (classify?_character hword hdigit hpoint hoperator)

/-- A number has a kind. -/
theorem classify?_number (hnext : digitNext cs = true ∨ pointNext cs = true) :
    Fragment.classify? (String.ofList (number cs)) ≠ none := by
  intro hnone
  obtain ⟨-, -, -, -, hdigits, hreal, -⟩ := classify?_eq_none_iff.1 hnone
  rw [String.toList_ofList] at hdigits hreal
  obtain ⟨whole, point, mark, rest, -, hnumber, his, -⟩ := isNumber_of_number hnext
  rw [hnumber] at hdigits hreal
  by_cases hsome : point ≠ [] ∨ mark ≠ []
  · rw [his.isReal hsome] at hreal
    cases hreal
  · rw [not_or, not_not, not_not] at hsome
    obtain ⟨rfl, rfl⟩ := hsome
    have hwhole : whole ≠ [] := by
      rintro rfl
      rcases his.next with h | h
      · cases h
      · cases h
    rw [List.append_nil, List.append_nil, isDigits_iff.2 ⟨hwhole, his.whole_digits⟩] at hdigits
    cases hdigits

/-- Where a fragment cannot be read or has no kind, something is wrong with it. -/
theorem faultAt_of_read (hblank : isBlank c = false)
    (h : (Fragment.read c cs >>= Lexeme.ofFragment) = .error fault) : FaultAt (c :: cs) fault := by
  have hnone : ∀ {fragment}, Fragment.read c cs = .ok fragment →
      Fragment.classify? (String.ofList fragment) = none ∧
        fault = .unknown (String.ofList fragment) := by
    intro fragment hread
    rw [hread] at h
    change Lexeme.ofFragment fragment = .error fault at h
    unfold Lexeme.ofFragment at h
    split at h
    · cases h
    · rename_i hclass
      cases h
      exact ⟨hclass, rfl⟩
  by_cases hword : isWordStart c = true
  · obtain ⟨hclass, rfl⟩ := hnone (read_word hword cs)
    have his : IsWord (c :: cs.takeWhile isWordChar) :=
      ⟨hword, fun d hd => List.mem_takeWhile_imp hd⟩
    have hfault := FaultAt.word his (wordNext_dropWhile cs)
      ((classify?_word_eq_none_iff his).1 hclass)
    rwa [List.cons_append, List.takeWhile_append_dropWhile] at hfault
  rw [Bool.not_eq_true] at hword
  by_cases hnext : digitNext (c :: cs) = true ∨ pointNext (c :: cs) = true
  · cases hread : readNumber (c :: cs) with
    | ok fragment =>
      obtain ⟨hclass, -⟩ := hnone ((read_number hnext).trans hread)
      obtain ⟨rest, -, hnumber, -⟩ := readNumber_eq_ok_iff.1 hread
      rw [← hnumber] at hclass
      exact absurd hclass (classify?_number hnext)
    | error found =>
      rw [read_number hnext, hread] at h
      cases h
      obtain ⟨word, rest, hcs, hsome, hall, hrest, rfl⟩ := readNumber_eq_error_iff.1 hread
      have hfound : LongestNumber (number (c :: cs)) (c :: cs) := longestNumber_iff.2 ⟨rfl, hnext⟩
      generalize number (c :: cs) = found at hcs hfound
      rw [hcs] at hfound ⊢
      exact .number hfound hsome hall hrest
  rw [not_or, Bool.not_eq_true, Bool.not_eq_true] at hnext
  by_cases hquote : c = '"' ∨ c = '\''
  · cases hread : readString c cs with
    | ok fragment =>
      obtain ⟨hclass, -⟩ := hnone ((read_quote hquote cs).trans hread)
      obtain ⟨inner, rest, -, hmem, rfl⟩ := readString_eq_ok_iff.1 hread
      obtain ⟨-, -, -, -, -, -, hquoted⟩ := classify?_eq_none_iff.1 hclass
      rw [String.toList_ofList, isQuoted_iff.2 ⟨c, inner, rfl, hquote, hmem⟩] at hquoted
      cases hquoted
    | error found =>
      rw [read_quote hquote, hread] at h
      cases h
      obtain ⟨hmem, rfl⟩ := readString_eq_error_iff.1 hread
      exact .unterminated hquote hmem
  have hquotes := not_or.1 hquote
  have hpoint : c = '.' → digitNext cs = false := by
    rintro rfl
    exact hnext.2
  have hread := read_symbol hword hnext.1 hquotes.1 hquotes.2 hpoint
  split at hread
  · -- every character that takes an equals sign is an operator with it
    rename_i hequal
    obtain ⟨hclass, -⟩ := hnone hread
    have htakes := hequal.1
    simp only [takesEqual, Bool.or_eq_true, decide_eq_true_eq] at htakes
    rcases htakes with ((rfl | rfl) | rfl) | rfl
    · exact absurd hclass (by decide +kernel)
    · exact absurd hclass (by decide +kernel)
    · exact absurd hclass (by decide +kernel)
    · exact absurd hclass (by decide +kernel)
  · rename_i hequal
    obtain ⟨hclass, rfl⟩ := hnone hread
    by_cases hother : c = '!'
    · subst hother
      exact .exclamation fun hhead => hequal ⟨rfl, hhead⟩
    · exact .character hblank hword hnext.1 hquote hother (classify?_eq_none_iff.1 hclass).1

end Reading

end Pseudocode
