-- Tokens are as long as they can be: a text is scanned as a token of its own
-- exactly where nothing comes behind it that could be joined to it.
import Pseudocode.Proofs.Scanned
import Pseudocode.Proofs.Token.Forms

namespace Pseudocode

open Text
open Fragment (digitNext wordNext pointNext hasBarePoint isName isNameStart isNameChar isDigits
  isReal isQuoted number readNumber readString takesEqual IsNumber)

/-! ## Spelling -/

/-- The text in front of the rest is scanned as the lexemes, and then the rest is. -/
def Spells (text : List Char) (lexemes : List Lexeme) (rest : List Char) : Prop :=
  Lexeme.scanFrom 0 (text ++ rest) = (lexemes ++ ·) <$> Lexeme.scanFrom 0 rest

section Spells

variable {text others rest cs : List Char} {lexemes more : List Lexeme} {lexeme : Lexeme} {c : Char}

theorem spells_nil (rest : List Char) : Spells [] [] rest := by
  unfold Spells
  rw [List.nil_append]
  cases Lexeme.scanFrom 0 rest <;> rfl

/-- Two spellings one after the other. -/
theorem Spells.append (h : Spells text lexemes (others ++ rest)) (h' : Spells others more rest) :
    Spells (text ++ others) (lexemes ++ more) rest := by
  unfold Spells at h h' ⊢
  rw [List.append_assoc, h, h']
  cases Lexeme.scanFrom 0 rest with
  | error fault => rfl
  | ok found => simp [Functor.map, Except.map]

/-- A blank spells nothing. -/
theorem spells_blank_char (hblank : isBlank c = true) (rest : List Char) : Spells [c] [] rest := by
  have hscan : Lexeme.scanFrom 0 ([c] ++ rest) = Lexeme.scanFrom 0 rest := by
    rw [List.singleton_append, Lexeme.scanFrom, if_pos hblank]
  unfold Spells
  rw [hscan]
  exact spells_nil rest

theorem spells_blank (rest : List Char) : Spells [' '] [] rest :=
  spells_blank_char (by decide) rest

theorem scanFrom_length (cs rest : List Char) :
    Lexeme.scanFrom cs.length (cs ++ rest) = Lexeme.scanFrom 0 rest := by
  induction cs with
  | nil => rfl
  | cons c cs ih => exact ih

/-- A fragment that is read spells one lexeme. -/
theorem spells_fragment (hblank : isBlank c = false)
    (hcomment : ¬(c = '/' ∧ (cs ++ rest).head? = some '/'))
    (hread : Fragment.read c (cs ++ rest) = .ok (c :: cs))
    (hlexeme : Lexeme.ofFragment (c :: cs) = .ok lexeme) : Spells (c :: cs) [lexeme] rest := by
  have hslash : (decide (c = '/') && decide ((cs ++ rest).head? = some '/')) = false := by
    simpa using hcomment
  unfold Spells
  rw [List.cons_append, Lexeme.scanFrom, hblank, hslash, hread]
  change (Lexeme.ofFragment (c :: cs) >>= _) = _
  rw [hlexeme]
  change (Lexeme.scanFrom cs.length (cs ++ rest) >>= _) = _
  rw [scanFrom_length]
  rfl

theorem ofFragment_of_classify? {text : String} {kind : TokenKind}
    (h : Fragment.classify? text = some kind) :
    Lexeme.ofFragment text.toList = .ok ⟨kind, text⟩ := by
  unfold Lexeme.ofFragment
  rw [String.ofList_toList, h]

end Spells

/-! ## The form of a token -/

/-- The kinds that are spelled as names, which come before the signs and marks. -/
def keywords : List TokenKind := TokenKind.spelled.takeWhile (· ≠ .assign)

/-- The kinds that are spelled with a sign or a mark. -/
def symbols : List TokenKind := TokenKind.spelled.dropWhile (· ≠ .assign)

theorem isName_of_keyword : ∀ kind ∈ keywords, isName kind.spelling.toList = true := by
  decide +kernel

namespace TokenKind

/-- The kinds of tokens that are words. -/
def isWord (kind : TokenKind) : Bool :=
  kind = .identifier || kind = .boolLiteral || keywords.contains kind

/-- The kinds of tokens that are numbers. -/
def isNumber (kind : TokenKind) : Bool := kind = .intLiteral || kind = .realLiteral

end TokenKind

theorem isWord_of_keyword {kind : TokenKind} (h : kind ∈ keywords) : kind.isWord = true := by
  unfold TokenKind.isWord
  rw [Bool.or_eq_true]
  exact .inr (List.contains_iff_mem.2 h)

theorem not_isWord : ∀ kind ∈ [.intLiteral, .realLiteral, .strLiteral] ++ symbols,
    kind.isWord = false := by
  decide +kernel

theorem not_symbol : ∀ kind ∈ symbols, kind ∉ [.intLiteral, .realLiteral, .strLiteral] := by
  decide +kernel

/-- A text has the form of the tokens of a kind. -/
inductive Fragment.HasForm : TokenKind → List Char → Prop where
  | word {kind : TokenKind} {text : List Char} (hkind : kind.isWord = true)
      (hname : isName text = true) : HasForm kind text
  | symbol {kind : TokenKind} (hkind : kind ∈ symbols) : HasForm kind kind.spelling.toList
  | integer {text : List Char} (hdigits : isDigits text = true) : HasForm .intLiteral text
  | real {text : List Char} (hreal : isReal text = true) : HasForm .realLiteral text
  | string {text : List Char} (hquoted : isQuoted text = true) : HasForm .strLiteral text

open Fragment (HasForm)

theorem hasForm_of_classify? {text : String} {kind : TokenKind}
    (h : Fragment.classify? text = some kind) : HasForm kind text.toList := by
  unfold Fragment.classify? at h
  dsimp only at h
  split at h
  · rename_i known hknown
    cases h
    have htext := TokenKind.ofText?_eq_some_iff.1 hknown
    have hspelling : kind.spelling = text := by
      rw [TokenKind.spelling, htext]
      rfl
    have hmem : kind ∈ keywords ++ symbols := by
      unfold keywords symbols
      rw [List.takeWhile_append_dropWhile]
      exact TokenKind.mem_spelled htext
    rw [← hspelling]
    rcases List.mem_append.1 hmem with hk | hs
    · exact .word (isWord_of_keyword hk) (isName_of_keyword kind hk)
    · exact .symbol hs
  · split at h
    · rename_i htruth
      cases h
      rw [Bool.or_eq_true, decide_eq_true_eq, decide_eq_true_eq] at htruth
      rcases htruth with rfl | rfl
      · exact .word (by decide) (by decide)
      · exact .word (by decide) (by decide)
    · split at h
      · rename_i hname
        cases h
        exact .word (by decide) hname
      · split at h
        · rename_i hdigits
          cases h
          exact .integer hdigits
        · split at h
          · rename_i hreal
            cases h
            exact .real hreal
          · split at h
            · rename_i hquoted
              cases h
              exact .string hquoted
            · cases h

/-- A sign or a mark is one character, or one that takes an equals sign and that
sign. The kinds about which more has to be known are told by the character. -/
theorem chars_of_symbol {kind : TokenKind} (h : kind ∈ symbols) :
    ∃ c cs, kind.spelling.toList = c :: cs ∧
      (cs = [] ∧ (takesEqual c = true ↔ kind = .assign ∨ kind = .less ∨ kind = .greater) ∨
        cs = ['='] ∧ takesEqual c = true ∧ ¬(kind = .assign ∨ kind = .less ∨ kind = .greater)) ∧
      (kind = .dot ↔ c = '.') ∧ (kind = .divide ↔ c = '/') ∧ isWordStart c = false ∧
      isDigit c = false ∧ isBlank c = false ∧ c ≠ '"' ∧ c ≠ '\'' := by
  have hcases : kind ∈ [TokenKind.assign, .equal, .notEqual, .less, .greater, .lessEqual,
      .greaterEqual, .plus, .minus, .times, .divide, .power, .openParen, .closeParen,
      .openBracket, .closeBracket, .comma, .dot, .colon] := h
  simp only [List.mem_cons, List.not_mem_nil, or_false] at hcases
  rcases hcases with rfl | rfl | rfl | rfl | rfl | rfl | rfl | rfl | rfl | rfl | rfl | rfl | rfl |
    rfl | rfl | rfl | rfl | rfl | rfl
  · exact ⟨'=', [], by decide +kernel⟩
  · exact ⟨'=', ['='], by decide +kernel⟩
  · exact ⟨'!', ['='], by decide +kernel⟩
  · exact ⟨'<', [], by decide +kernel⟩
  · exact ⟨'>', [], by decide +kernel⟩
  · exact ⟨'<', ['='], by decide +kernel⟩
  · exact ⟨'>', ['='], by decide +kernel⟩
  · exact ⟨'+', [], by decide +kernel⟩
  · exact ⟨'-', [], by decide +kernel⟩
  · exact ⟨'*', [], by decide +kernel⟩
  · exact ⟨'/', [], by decide +kernel⟩
  · exact ⟨'^', [], by decide +kernel⟩
  · exact ⟨'(', [], by decide +kernel⟩
  · exact ⟨')', [], by decide +kernel⟩
  · exact ⟨'[', [], by decide +kernel⟩
  · exact ⟨']', [], by decide +kernel⟩
  · exact ⟨',', [], by decide +kernel⟩
  · exact ⟨'.', [], by decide +kernel⟩
  · exact ⟨':', [], by decide +kernel⟩

/-! ## Fragments by their first character -/

section Reading

variable {c : Char} {cs others rest text fragment : List Char}

theorem read_word (h : isWordStart c = true) (cs : List Char) :
    Fragment.read c cs = .ok (c :: cs.takeWhile isWordChar) := by
  unfold Fragment.read
  rw [if_pos h]

theorem not_isWordStart_of_next (h : isDigit c = true ∨ c = '.' ∧ digitNext cs = true) :
    isWordStart c = false := by
  rcases h with hdigit | ⟨rfl, -⟩
  · exact not_isWordStart_of_isDigit hdigit
  · decide

theorem read_number (h : digitNext (c :: cs) = true ∨ pointNext (c :: cs) = true) :
    Fragment.read c cs = readNumber (c :: cs) := by
  have hstart := next_cons_iff.1 h
  unfold Fragment.read
  rw [not_isWordStart_of_next hstart, if_neg Bool.false_ne_true, if_pos (by simpa using hstart)]

theorem read_quote (h : c = '"' ∨ c = '\'') (cs : List Char) :
    Fragment.read c cs = readString c cs := by
  rcases h with rfl | rfl <;> rfl

/-- A number is read where no word comes behind it. -/
theorem readNumber_eq_ok_iff : readNumber cs = .ok fragment ↔
    ∃ rest, cs = fragment ++ rest ∧ number cs = fragment ∧ wordNext rest = false := by
  obtain ⟨rest, hrest⟩ := prefix_number cs
  have hdrop : cs.drop (number cs).length = rest := drop_length_of_append hrest
  unfold readNumber
  dsimp only
  rw [hdrop]
  constructor
  · intro h
    split at h
    · rename_i hword
      cases h
      exact ⟨rest, hrest.symm, rfl, wordNext_of_takeWhile (List.isEmpty_iff.1 hword)⟩
    · cases h
  · rintro ⟨others, hcs, rfl, hword⟩
    have hsame : others = rest := List.append_cancel_left (hcs.symm.trans hrest.symm)
    rw [← hsame, takeWhile_of_wordNext hword]
    rfl

/-- A string is read up to the next quote of its sort. -/
theorem readString_eq_ok_iff {quote : Char} : readString quote cs = .ok fragment ↔
    ∃ inner rest, cs = inner ++ quote :: rest ∧ quote ∉ inner ∧
      fragment = quote :: (inner ++ [quote]) := by
  unfold readString
  dsimp only
  constructor
  · intro h
    split at h
    · rename_i hshort
      cases h
      have hcs := List.takeWhile_append_dropWhile (p := fun c => decide (c ≠ quote)) (l := cs)
      have hstop := List.head?_dropWhile_not (fun c => decide (c ≠ quote)) cs
      cases hrest : cs.dropWhile (fun c => decide (c ≠ quote)) with
      | nil =>
        rw [hrest, List.append_nil] at hcs
        rw [hcs] at hshort
        exact absurd hshort (Nat.lt_irrefl _)
      | cons d rest =>
        rw [hrest] at hcs hstop
        have hd : d = quote := by simpa using hstop
        rw [hd] at hcs
        refine ⟨_, rest, hcs.symm, fun hmem => ?_, rfl⟩
        simpa using List.mem_takeWhile_imp hmem
    · cases h
  · rintro ⟨inner, rest, rfl, hmem, rfl⟩
    have hinner : (inner ++ quote :: rest).takeWhile (fun c => decide (c ≠ quote)) = inner := by
      rw [List.takeWhile_append_of_pos, List.takeWhile_cons_of_neg (by simp), List.append_nil]
      intro c hc
      simpa using fun he : c = quote => hmem (he ▸ hc)
    rw [hinner, if_pos (by simp)]
    rfl

/-- A sign or a mark is read with the equals sign behind it, if it takes one. -/
theorem read_symbol (hword : isWordStart c = false) (hdigit : isDigit c = false)
    (hdouble : c ≠ '"') (hsingle : c ≠ '\'') (hpoint : c = '.' → digitNext cs = false) :
    Fragment.read c cs =
      .ok (if takesEqual c = true ∧ cs.head? = some '=' then [c, '='] else [c]) := by
  have hnumber : (isDigit c || (decide (c = '.') && digitNext cs)) = false := by
    rw [hdigit, Bool.false_or, Bool.and_eq_false_imp, decide_eq_true_eq]
    exact hpoint
  have hquote : (decide (c = '"') || decide (c = '\'')) = false := by
    rw [Bool.or_eq_false_iff, decide_eq_false_iff_not, decide_eq_false_iff_not]
    exact ⟨hdouble, hsingle⟩
  unfold Fragment.read
  rw [hword, hnumber, hquote, if_neg Bool.false_ne_true, if_neg Bool.false_ne_true,
    if_neg Bool.false_ne_true]
  simp only [Bool.and_eq_true, decide_eq_true_eq]
  split <;> rfl

/-- A fragment begins at the place where it is read. -/
theorem read_eq_ok (h : Fragment.read c cs = .ok fragment) :
    ∃ others rest, fragment = c :: others ∧ cs = others ++ rest := by
  by_cases hword : isWordStart c = true
  · rw [read_word hword] at h
    cases h
    exact ⟨_, _, rfl, List.takeWhile_append_dropWhile.symm⟩
  rw [Bool.not_eq_true] at hword
  by_cases hnext : digitNext (c :: cs) = true ∨ pointNext (c :: cs) = true
  · rw [read_number hnext] at h
    obtain ⟨rest, hcs, hnumber, -⟩ := readNumber_eq_ok_iff.1 h
    obtain ⟨whole, point, mark, -, -, hparts, his, -⟩ := isNumber_of_number hnext
    rw [hnumber] at hparts
    cases fragment with
    | nil =>
      have hsome := his.next
      rw [← hparts] at hsome
      rcases hsome with hsome | hsome
      · cases hsome
      · cases hsome
    | cons d others =>
      obtain ⟨rfl, htail⟩ := List.cons.inj hcs
      exact ⟨others, rest, rfl, htail⟩
  rw [not_or, Bool.not_eq_true, Bool.not_eq_true] at hnext
  by_cases hquote : c = '"' ∨ c = '\''
  · rw [read_quote hquote] at h
    obtain ⟨inner, rest, rfl, -, rfl⟩ := readString_eq_ok_iff.1 h
    exact ⟨inner ++ [c], rest, rfl, by rw [List.append_assoc]; rfl⟩
  rw [not_or] at hquote
  have hpoint : c = '.' → digitNext cs = false := by
    rintro rfl
    exact hnext.2
  rw [read_symbol hword hnext.1 hquote.1 hquote.2 hpoint] at h
  cases h
  split
  · rename_i hequal
    obtain ⟨rest, rfl⟩ := List.head?_eq_some_iff.1 hequal.2
    exact ⟨['='], rest, rfl, rfl⟩
  · exact ⟨[], cs, rfl, rfl⟩

/-- What begins as a number and is read is a number, behind which none goes on. -/
theorem isNumber_of_read (hnext : digitNext (c :: others) = true ∨ pointNext (c :: others) = true)
    (hread : Fragment.read c (others ++ rest) = .ok (c :: others)) :
    ∃ whole point mark, c :: others = whole ++ (point ++ mark) ∧ IsNumber whole point mark ∧
      wordNext rest = false ∧ (point = [] → mark = [] → pointNext rest = false) := by
  have hall := next_append hnext rest
  rw [List.cons_append] at hall
  rw [read_number hall] at hread
  obtain ⟨behind, hcs, hnumber, hword⟩ := readNumber_eq_ok_iff.1 hread
  have hbehind : rest = behind := (List.append_right_inj (c :: others)).1 hcs
  obtain ⟨whole, point, mark, tail, hparts, hfound, his, hpoint⟩ := isNumber_of_number hall
  rw [← hfound, hnumber] at hparts
  have htail : rest = tail := (List.append_right_inj (c :: others)).1 hparts
  rw [hnumber] at hfound
  exact ⟨whole, point, mark, hfound, his, hbehind ▸ hword, htail ▸ hpoint⟩

/-- A sign or a mark that is read is not the beginning of a number. -/
theorem digitNext_of_read_point (hread : Fragment.read '.' rest = .ok ['.']) :
    digitNext rest = false := by
  cases hd : digitNext rest with
  | false => rfl
  | true =>
    have hnext : digitNext ('.' :: rest) = true ∨ pointNext ('.' :: rest) = true := .inr hd
    rw [read_number hnext] at hread
    obtain ⟨-, -, hnumber, -⟩ := readNumber_eq_ok_iff.1 hread
    obtain ⟨whole, point, mark, -, -, hparts, his, -⟩ := isNumber_of_number hnext
    have hpoint := his.next
    rw [← hparts, hnumber] at hpoint
    rcases hpoint with hpoint | hpoint
    · cases hpoint
    · cases hpoint

end Reading

/-! ## The longest token -/

/-- A token is as long as the rules allow in front of what comes next. -/
structure Lexeme.Longest (lexeme : Lexeme) (rest : List Char) : Prop where
  word : lexeme.kind.isWord = true ∨ lexeme.kind.isNumber = true → wordNext rest = false
  integer : lexeme.kind = .intLiteral → pointNext rest = false
  real : lexeme.kind = .realLiteral → hasBarePoint lexeme.text.toList = false
  string : lexeme.kind = .strLiteral → ∃ quote inner,
    lexeme.text.toList = quote :: (inner ++ [quote]) ∧ quote ∉ inner
  equal : lexeme.kind = .assign ∨ lexeme.kind = .less ∨ lexeme.kind = .greater →
    rest.head? ≠ some '='
  point : lexeme.kind = .dot → digitNext rest = false
  slash : lexeme.kind = .divide → rest.head? ≠ some '/'

section Longest

variable {kind : TokenKind} {text : String} {c : Char} {cs others rest : List Char}

theorem longest_of_isWord (hkind : kind.isWord = true) (hword : wordNext rest = false) :
    Lexeme.Longest ⟨kind, text⟩ rest := by
  have hne : ∀ other ∈ [.intLiteral, .realLiteral, .strLiteral] ++ symbols, kind ≠ other := by
    rintro other hmem rfl
    rw [not_isWord kind hmem] at hkind
    cases hkind
  constructor
  · exact fun _ => hword
  · exact fun h => absurd h (hne _ (by decide))
  · exact fun h => absurd h (hne _ (by decide))
  · exact fun h => absurd h (hne _ (by decide))
  · rintro (h | h | h)
    · exact absurd h (hne _ (by decide))
    · exact absurd h (hne _ (by decide))
    · exact absurd h (hne _ (by decide))
  · exact fun h => absurd h (hne _ (by decide))
  · exact fun h => absurd h (hne _ (by decide))

theorem longest_of_symbol (hkind : kind ∈ symbols)
    (hequal : kind = .assign ∨ kind = .less ∨ kind = .greater → rest.head? ≠ some '=')
    (hpoint : kind = .dot → digitNext rest = false)
    (hslash : kind = .divide → rest.head? ≠ some '/') : Lexeme.Longest ⟨kind, text⟩ rest := by
  have hword : kind.isWord = false := not_isWord kind (List.mem_append_right _ hkind)
  have hother := not_symbol kind hkind
  rw [List.mem_cons, List.mem_cons, List.mem_singleton, not_or, not_or] at hother
  obtain ⟨hinteger, hreal, hstring⟩ := hother
  constructor
  · rintro (h | h)
    · exact absurd h (by rw [hword]; exact Bool.false_ne_true)
    · unfold TokenKind.isNumber at h
      rw [Bool.or_eq_true, decide_eq_true_eq, decide_eq_true_eq] at h
      exact h.elim (absurd · hinteger) (absurd · hreal)
  · exact fun h => absurd h hinteger
  · exact fun h => absurd h hreal
  · exact fun h => absurd h hstring
  · exact hequal
  · exact hpoint
  · exact hslash

theorem longest_of_integer (hword : wordNext rest = false) (hpoint : pointNext rest = false) :
    Lexeme.Longest ⟨.intLiteral, text⟩ rest where
  word := fun _ => hword
  integer := fun _ => hpoint
  real := nofun
  string := nofun
  equal := by rintro (h | h | h) <;> cases h
  point := nofun
  slash := nofun

theorem longest_of_real (hword : wordNext rest = false)
    (hbare : hasBarePoint text.toList = false) : Lexeme.Longest ⟨.realLiteral, text⟩ rest where
  word := fun _ => hword
  integer := nofun
  real := fun _ => hbare
  string := nofun
  equal := by rintro (h | h | h) <;> cases h
  point := nofun
  slash := nofun

theorem longest_of_string (hquoted : isQuoted text.toList = true) :
    Lexeme.Longest ⟨.strLiteral, text⟩ rest where
  word := by rintro (h | h) <;> cases h
  integer := nofun
  real := nofun
  string := by
    intro _
    obtain ⟨quote, inner, htext, -, hmem⟩ := isQuoted_iff.1 hquoted
    exact ⟨quote, inner, htext, hmem⟩
  equal := by rintro (h | h | h) <;> cases h
  point := nofun
  slash := nofun

/-- What is read as a token is the longest token there. -/
theorem longest_of_read {fragment : List Char} (hread : Fragment.read c cs = .ok fragment)
    (hcomment : ¬(c = '/' ∧ cs.head? = some '/'))
    (hclass : Fragment.classify? (String.ofList fragment) = some kind) :
    ∃ others rest, fragment = c :: others ∧ cs = others ++ rest ∧
      Lexeme.Longest ⟨kind, String.ofList fragment⟩ rest := by
  obtain ⟨others, rest, rfl, rfl⟩ := read_eq_ok hread
  refine ⟨others, rest, rfl, rfl, ?_⟩
  have hform := hasForm_of_classify? hclass
  rw [String.toList_ofList] at hform
  generalize htext : c :: others = text at hform
  cases hform with
  | word hkind hname =>
    subst htext
    rw [isName, Bool.and_eq_true] at hname
    have hstart := isWordStart_of_isNameStart hname.1
    rw [read_word hstart] at hread
    have hall : (others ++ rest).takeWhile isWordChar = others :=
      (List.cons.inj (Except.ok.inj hread)).2
    exact longest_of_isWord hkind (wordNext_of_takeWhile_append hall)
  | symbol hkind =>
    obtain ⟨d, ds, hchars, hequal, hdot, hdivide, hword, hdigit, -, hdouble, hsingle⟩ :=
      chars_of_symbol hkind
    obtain ⟨rfl, rfl⟩ := List.cons.inj (htext.trans hchars)
    have hpoint : c = '.' → digitNext (others ++ rest) = false := by
      rintro rfl
      rcases hequal with ⟨rfl, -⟩ | ⟨-, hequal, -⟩
      · exact digitNext_of_read_point hread
      · exact absurd hequal (by decide)
    rw [read_symbol hword hdigit hdouble hsingle hpoint] at hread
    have hread := Except.ok.inj hread
    rcases hequal with ⟨rfl, hequal⟩ | ⟨rfl, hequal, hjoined⟩
    · rw [List.nil_append] at hread hpoint hcomment
      refine longest_of_symbol hkind (fun hk hnext => ?_) (fun hk => hpoint (hdot.1 hk))
        (fun hk hnext => hcomment ⟨hdivide.1 hk, hnext⟩)
      rw [if_pos ⟨hequal.2 hk, hnext⟩] at hread
      cases hread
    · refine longest_of_symbol hkind (fun hk => absurd hk hjoined) (fun hk => ?_) (fun hk => ?_)
      · rw [hdot.1 hk] at hequal
        exact absurd hequal (by decide)
      · rw [hdivide.1 hk] at hequal
        exact absurd hequal (by decide)
  | integer hdigits =>
    have hnext := (isNumber_of_isDigits hdigits).next
    rw [List.append_nil, List.append_nil, ← htext] at hnext
    obtain ⟨whole, point, mark, hparts, his, hword, hpoint⟩ := isNumber_of_read hnext hread
    rw [← htext, hparts] at hdigits
    obtain ⟨hp, hm⟩ := his.eq_nil_of_isDigits hdigits
    exact longest_of_integer hword (hpoint hp hm)
  | real hreal =>
    have hnext := next_of_isReal hreal
    rw [← htext] at hnext
    obtain ⟨whole, point, mark, hparts, his, hword, -⟩ := isNumber_of_read hnext hread
    have hbare := his.hasBarePoint_eq_false
    rw [← hparts] at hbare
    exact longest_of_real hword (by rwa [String.toList_ofList, ← htext])
  | string hquoted =>
    rw [← htext] at hquoted
    exact longest_of_string (by rwa [String.toList_ofList, ← htext])

/-- A number spells itself where nothing goes on with it. -/
theorem spells_number {whole point mark : List Char} (h : IsNumber whole point mark)
    (htext : text.toList = whole ++ (point ++ mark))
    (hclass : Fragment.classify? text = some kind) (hword : wordNext rest = false)
    (hpoint : point = [] → mark = [] → pointNext rest = false) :
    Spells text.toList [⟨kind, text⟩] rest := by
  have hlexeme := ofFragment_of_classify? hclass
  have hnumber := h.number_append hword hpoint
  have hnext := h.next
  rw [← htext] at hnumber hnext
  cases hcs : text.toList with
  | nil =>
    rw [hcs] at hnext
    rcases hnext with hnext | hnext
    · cases hnext
    · cases hnext
  | cons c cs =>
    rw [hcs] at hlexeme hnumber hnext
    have hall : digitNext (c :: (cs ++ rest)) = true ∨ pointNext (c :: (cs ++ rest)) = true :=
      next_append hnext rest
    have hread : Fragment.read c (cs ++ rest) = .ok (c :: cs) := by
      rw [read_number hall]
      exact readNumber_eq_ok_iff.2 ⟨rest, rfl, hnumber, hword⟩
    rcases next_cons_iff.1 hnext with hdigit | ⟨rfl, -⟩
    · refine spells_fragment (not_isBlank_of_isDigit hdigit) ?_ hread hlexeme
      rintro ⟨rfl, -⟩
      exact absurd hdigit (by decide)
    · exact spells_fragment (by decide) (fun h => absurd h.1 (by decide)) hread hlexeme

/-- What has a kind spells itself where it is the longest token. -/
theorem spells_of_longest (hclass : Fragment.classify? text = some kind)
    (h : Lexeme.Longest ⟨kind, text⟩ rest) : Spells text.toList [⟨kind, text⟩] rest := by
  have hlexeme := ofFragment_of_classify? hclass
  have hform := hasForm_of_classify? hclass
  generalize htext : text.toList = cs at hform
  cases hform with
  | word hkind hname =>
    have hword := h.word (.inl hkind)
    cases cs with
    | nil => cases hname
    | cons c cs =>
      rw [isName, Bool.and_eq_true, List.all_eq_true] at hname
      obtain ⟨hstart, hrest⟩ := hname
      have hslash : c ≠ '/' := by
        rintro rfl
        exact absurd hstart (by decide)
      rw [htext] at hlexeme
      refine spells_fragment (not_isBlank_of_isNameStart hstart) (fun hc => hslash hc.1) ?_ hlexeme
      rw [read_word (isWordStart_of_isNameStart hstart), List.takeWhile_append_of_pos
        (fun c hc => isWordChar_of_isNameChar (hrest c hc)), takeWhile_of_wordNext hword,
        List.append_nil]
  | symbol hkind =>
    obtain ⟨c, cs, hchars, hequal, hdot, hdivide, hword, hdigit, hblank, hdouble, hsingle⟩ :=
      chars_of_symbol hkind
    rw [htext, hchars] at hlexeme
    rw [hchars]
    rcases hequal with ⟨rfl, hequal⟩ | ⟨rfl, hequal, -⟩
    · refine spells_fragment hblank (fun hc => h.slash (hdivide.2 hc.1) hc.2) ?_ hlexeme
      rw [List.nil_append, read_symbol hword hdigit hdouble hsingle
        (fun hc => h.point (hdot.2 hc)), if_neg (fun hc => h.equal (hequal.1 hc.1) hc.2)]
    · refine spells_fragment hblank (fun hc => absurd hc.2 (by simp)) ?_ hlexeme
      rw [read_symbol hword hdigit hdouble hsingle (fun _ => rfl), if_pos ⟨hequal, rfl⟩]
  | integer hdigits =>
    rw [← htext] at hdigits ⊢
    exact spells_number (isNumber_of_isDigits hdigits) (by rw [List.append_nil, List.append_nil])
      hclass (h.word (.inr rfl)) (fun _ _ => h.integer rfl)
  | real hreal =>
    rw [← htext] at hreal ⊢
    obtain ⟨whole, point, mark, hparts, his, hmark⟩ := isNumber_of_isReal hreal (h.real rfl)
    exact spells_number his hparts hclass (h.word (.inr rfl)) (fun hp hm => absurd hm (hmark hp))
  | string hquoted =>
    obtain ⟨quote, inner, rfl, hquote, hmem⟩ := isQuoted_iff.1 hquoted
    have hread : Fragment.read quote (inner ++ [quote] ++ rest) =
        .ok (quote :: (inner ++ [quote])) := by
      rw [read_quote hquote, List.append_assoc]
      exact readString_eq_ok_iff.2 ⟨inner, rest, rfl, hmem, rfl⟩
    rw [htext] at hlexeme
    rcases hquote with rfl | rfl
    · exact spells_fragment (by decide) (fun h => absurd h.1 (by decide)) hread hlexeme
    · exact spells_fragment (by decide) (fun h => absurd h.1 (by decide)) hread hlexeme

end Longest

end Pseudocode
