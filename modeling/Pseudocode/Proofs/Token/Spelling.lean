-- Which text is scanned as which lexemes. What is spelled in front of a text is
-- scanned before it, so the spelling of a whole is put together from its parts.
import Pseudocode.Proofs.Number.Numeral
import Pseudocode.Proofs.Token.Longest
import Pseudocode.Proofs.Tree.WellFormed

namespace Pseudocode

open Text
open Fragment (digitNext wordNext pointNext isName isNameStart isNameChar)

/-! ## Words -/

theorem Breaks.wordNext {rest : List Char} (h : Breaks rest) : wordNext rest = false := by
  rcases h with rfl | ⟨c, cs, rfl, hc, -⟩
  · rfl
  · exact hc

theorem Breaks.pointNext {rest : List Char} (h : Breaks rest) : pointNext rest = false := by
  rcases h with rfl | ⟨c, cs, rfl, -, hpoint⟩
  · rfl
  · unfold Fragment.pointNext
    split
    · rename_i heq
      cases heq
      exact hpoint rfl
    · rfl

/-- A word spells itself. -/
theorem spells_word {text : String} {kind : TokenKind} {rest : List Char}
    (hkind : kind.isWord = true) (hk : Fragment.classify? text = some kind) (hr : Breaks rest) :
    Spells text.toList [⟨kind, text⟩] rest :=
  spells_of_longest hk (longest_of_isWord hkind hr.wordNext)

theorem classify?_spelling {kind : TokenKind} (h : kind ∈ TokenKind.spelled) :
    Fragment.classify? kind.spelling = some kind := by
  have hof := TokenKind.ofText?_text? kind h
  cases ht : kind.text? with
  | none => rw [ht] at hof; cases hof
  | some text =>
    rw [ht] at hof
    have hs : kind.spelling = text := by rw [TokenKind.spelling, ht]; rfl
    rw [hs]
    exact classify?_eq_of_ofText? hof

/-- The lexeme of a keyword, an operator or a mark. -/
def Lexeme.spelled (kind : TokenKind) : Lexeme := ⟨kind, kind.spelling⟩

theorem mem_spelled_of_keyword {kind : TokenKind} (h : kind ∈ keywords) :
    kind ∈ TokenKind.spelled :=
  (List.takeWhile_prefix _).subset h

theorem spells_keyword {kind : TokenKind} {rest : List Char} (h : kind ∈ keywords)
    (hr : Breaks rest) : Spells kind.spelling.toList [.spelled kind] rest :=
  spells_word (isWord_of_keyword h) (classify?_spelling (mem_spelled_of_keyword h)) hr

theorem spells_identifier {name : String} {rest : List Char} (h : IsIdentifier name)
    (hr : Breaks rest) : Spells name.toList [⟨.identifier, name⟩] rest :=
  spells_word rfl (classify?_eq_identifier_iff.2 h) hr

/-! ## Marks and operators -/

/-- The marks that stand for themselves whatever comes behind them. -/
def marks : List TokenKind :=
  [.openParen, .closeParen, .openBracket, .closeBracket, .comma, .colon, .minus]

theorem mem_spelled_of_symbol {kind : TokenKind} (h : kind ∈ symbols) :
    kind ∈ TokenKind.spelled :=
  (List.dropWhile_suffix _).subset h

theorem spells_mark {kind : TokenKind} (h : kind ∈ marks) (rest : List Char) :
    Spells kind.spelling.toList [.spelled kind] rest := by
  have hsymbols : ∀ kind ∈ marks, kind ∈ symbols := by decide
  have hothers : ∀ kind ∈ marks, ¬(kind = .assign ∨ kind = .less ∨ kind = .greater) ∧
      kind ≠ .dot ∧ kind ≠ .divide := by decide
  have hsymbol := hsymbols kind h
  obtain ⟨hequal, hdot, hdivide⟩ := hothers kind h
  exact spells_of_longest (classify?_spelling (mem_spelled_of_symbol hsymbol))
    (longest_of_symbol hsymbol (absurd · hequal) (absurd · hdot) (absurd · hdivide))

/-- A point stands for itself where no digit comes behind it. -/
theorem spells_dot {rest : List Char} (h : digitNext rest = false) :
    Spells ['.'] [.spelled .dot] rest := by
  have hsymbol : TokenKind.dot ∈ symbols := by decide
  exact spells_of_longest (classify?_spelling (mem_spelled_of_symbol hsymbol))
    (longest_of_symbol hsymbol (by rintro (h | h | h) <;> cases h) (fun _ => h) nofun)

/-- Operators of the language that are no words, and the mark of an assignment. -/
def signs : List TokenKind :=
  [.assign, .equal, .notEqual, .less, .greater, .lessEqual, .greaterEqual, .plus, .minus, .times,
    .divide, .power]

/-- A sign stands for itself where a blank comes behind it. -/
theorem spells_sign {kind : TokenKind} (h : kind ∈ signs) (rest : List Char) :
    Spells kind.spelling.toList [.spelled kind] (' ' :: rest) := by
  have hsymbols : ∀ kind ∈ signs, kind ∈ symbols := by decide
  have hsymbol := hsymbols kind h
  exact spells_of_longest (classify?_spelling (mem_spelled_of_symbol hsymbol))
    (longest_of_symbol hsymbol (fun _ => by simp) (fun _ => rfl) (fun _ => by simp))

theorem breaks_nil : Breaks [] := .inl rfl

theorem breaks_cons {c : Char} (h : isWordChar c = false ∧ c ≠ '.') (cs : List Char) :
    Breaks (c :: cs) :=
  .inr ⟨c, cs, rfl, h.1, fun he => absurd he h.2⟩

theorem breaks_mark {kind : TokenKind} (h : kind ∈ marks) (rest : List Char) :
    Breaks (kind.spelling.toList ++ rest) := by
  simp only [marks, List.mem_cons, List.not_mem_nil, or_false] at h
  rcases h with rfl | rfl | rfl | rfl | rfl | rfl | rfl <;> exact breaks_cons (by decide) rest

theorem breaks_dot {rest : List Char} (h : digitNext rest = false) : Breaks ('.' :: rest) :=
  .inr ⟨'.', rest, rfl, by decide, fun _ => h⟩

theorem breaks_blank (rest : List Char) : Breaks (' ' :: rest) := breaks_cons (by decide) rest

theorem sign_or_keyword {kind : TokenKind} {level : Nat} {label : Label}
    (h : Phrase.Operates kind level label) : kind ∈ signs ∨ kind ∈ keywords := by
  cases h <;> decide

theorem spells_operator {kind : TokenKind} {level : Nat} {label : Label}
    (h : Phrase.Operates kind level label) (rest : List Char) :
    Spells kind.spelling.toList [.spelled kind] (' ' :: rest) := by
  rcases sign_or_keyword h with hs | hk
  · exact spells_sign hs rest
  · exact spells_keyword hk (breaks_blank rest)

/-! ## Literals -/

section Literals

variable {text : String} {c : Char} {cs rest : List Char}

/-- Nothing with a fixed spelling begins with a digit or a quote. -/
theorem ofText?_eq_none (hcs : text.toList = c :: cs)
    (hc : isDigit c = true ∨ c = '"' ∨ c = '\'') : TokenKind.ofText? text = none := by
  cases hk : TokenKind.ofText? text with
  | none => rfl
  | some kind =>
    have main : ∀ kind ∈ TokenKind.spelled, (kind.spelling.toList.head?.any fun c =>
        isDigit c || c = '"' || c = '\'') = false := by decide +kernel
    have ht := TokenKind.ofText?_eq_some_iff.1 hk
    have hs : kind.spelling = text := by rw [TokenKind.spelling, ht]; rfl
    have hfirst := main kind (TokenKind.mem_spelled ht)
    rw [hs, hcs] at hfirst
    simp at hfirst
    simp [hfirst] at hc

/-- A text that begins with a digit or a quote is a literal or nothing. -/
theorem classify?_literal (hcs : text.toList = c :: cs)
    (hc : isDigit c = true ∨ c = '"' ∨ c = '\'') :
    Fragment.classify? text =
      if Fragment.isDigits (c :: cs) then some .intLiteral
      else if Fragment.isReal (c :: cs) then some .realLiteral
      else if Fragment.isQuoted (c :: cs) then some .strLiteral
      else none := by
  have hletter : isNameStart c = false := by
    rcases hc with hd | rfl | rfl
    · exact not_isNameStart_of_isDigit hd
    · decide
    · decide
  have hname : isName (c :: cs) = false := by
    change (isNameStart c && cs.all isNameChar) = false
    rw [hletter]
    rfl
  have htruth : ∀ word : String, word.toList.head?.any isNameStart = true → text ≠ word := by
    rintro word hw rfl
    rw [hcs] at hw
    simp [hletter] at hw
  have htrue := htruth "true" (by decide)
  have hfalse := htruth "false" (by decide)
  unfold Fragment.classify?
  simp [ofText?_eq_none hcs hc, htrue, hfalse, hcs, hname]

/-- A numeral spells itself. -/
theorem spells_numeral {n : Numeral} {kind : TokenKind} (ht : text.toList = n.text)
    (hk : Fragment.classify? text = some kind) (hr : Breaks rest) :
    Spells text.toList [⟨kind, text⟩] rest :=
  spells_number n.isNumber ht hk hr.wordNext fun _ _ => hr.pointNext

/-- A text in quotes of which it has none spells itself. -/
theorem spells_quoted {quote : Char} {value : List Char} (hq : quote = '"' ∨ quote = '\'')
    (hv : quote ∉ value) (ht : text.toList = quote :: (value ++ [quote])) (rest : List Char) :
    Spells text.toList [⟨.strLiteral, text⟩] rest := by
  have hquoted : Fragment.isQuoted (quote :: (value ++ [quote])) = true :=
    isQuoted_iff.2 ⟨quote, value, rfl, hq, hv⟩
  have hdigit : isDigit quote = false := by rcases hq with rfl | rfl <;> decide
  have hdigits : Fragment.isDigits (quote :: (value ++ [quote])) = false := by
    simp [Fragment.isDigits, hdigit]
  have hreal : Fragment.isReal (quote :: (value ++ [quote])) = false := by
    unfold Fragment.isReal
    rw [List.takeWhile_cons_of_neg (by simp [hdigit]),
      List.dropWhile_cons_of_neg (by simp [hdigit])]
    rcases hq with rfl | rfl <;> rfl
  have hk : Fragment.classify? text = some .strLiteral := by
    rw [classify?_literal ht (.inr hq), hdigits, hreal, hquoted]
    rfl
  exact spells_of_longest hk (longest_of_string (by rwa [ht]))

end Literals

end Pseudocode
