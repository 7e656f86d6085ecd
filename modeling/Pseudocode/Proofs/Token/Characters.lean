-- The characters of tokens. They stand in the line as they do in the token, none
-- but those of a string are blanks, and a string ends in its quote. So no token
-- ends in a carriage return, and only a string could have a line feed.
import Pseudocode.Proofs.Text.Lines
import Pseudocode.Proofs.Token.Rereading

namespace Pseudocode

open Text
open Fragment (HasForm isName isReal isExponent)

/-! ## Tokens in their lines -/

section InLine

variable {cs : List Char} {lexemes : List Lexeme} {lines : List String} {tokens : List Token}

theorem infix_of_segmented (h : Segmented cs lexemes) :
    ∀ lexeme ∈ lexemes, lexeme.text.toList <:+: cs := by
  induction h with
  | tail => simp
  | @token gap rest lexeme lexemes _ _ _ _ _ ih =>
    refine List.forall_mem_cons.2 ⟨⟨gap, rest, List.append_assoc _ _ _⟩, fun found hfound => ?_⟩
    have hrest : rest <:+ gap ++ (lexeme.text.toList ++ rest) := by
      rw [← List.append_assoc]
      exact List.suffix_append _ rest
    exact (ih found hfound).trans hrest.isInfix

/-- A token of a program stands in one of its lines, character by character. -/
theorem infix_of_scan {token : Token} (h : Token.scan lines = .ok tokens) (ht : token ∈ tokens) :
    ∃ text ∈ lines, token.text.toList <:+: text.toList := by
  obtain ⟨text, htext, number, row, hrow, ht⟩ := exists_line_of_scan h ht
  obtain ⟨lexemes, hline, rfl⟩ := scanLine_eq_ok_iff.1 hrow
  obtain ⟨lexeme, hlexeme, rfl⟩ := List.mem_map.1 ht
  exact ⟨text, htext, infix_of_segmented hline lexeme hlexeme⟩

theorem infix_unquoted (token : Token) : token.unquoted.toList <:+: token.text.toList := by
  unfold Token.unquoted
  dsimp only
  split
  · rw [String.toList_ofList]
    exact (List.dropLast_prefix _).isInfix.trans (List.drop_suffix 1 _).isInfix
  · exact List.infix_rfl

end InLine

/-! ## Blanks in tokens -/

section Blanks

variable {c : Char} {cs : List Char} {kind : TokenKind} {text : String}

theorem not_isBlank_of_isName (h : isName cs = true) : ∀ c ∈ cs, isBlank c = false := by
  cases cs with
  | nil => cases h
  | cons first cs =>
    rw [isName, Bool.and_eq_true, List.all_eq_true] at h
    refine List.forall_mem_cons.2 ⟨not_isBlank_of_isNameStart h.1, fun c hc => ?_⟩
    have hchar := h.2 c hc
    rw [Fragment.isNameChar, Bool.or_eq_true] at hchar
    rcases hchar with hletter | hdigit
    · exact not_isBlank_of_isNameStart hletter
    · exact not_isBlank_of_isDigit hdigit

theorem not_isBlank_of_isExponent (h : isExponent cs = true) : ∀ c ∈ cs, isBlank c = false := by
  obtain ⟨e, sign, digits, rfl, he, hsign, -, hdigits⟩ := isExponent_iff.1 h
  intro c hc
  rw [List.mem_cons, List.mem_append] at hc
  rcases hc with rfl | hc | hc
  · rcases he with rfl | rfl <;> decide
  · rcases hsign with rfl | rfl | rfl
    · cases hc
    · rw [List.mem_singleton.1 hc]
      decide
    · rw [List.mem_singleton.1 hc]
      decide
  · exact not_isBlank_of_isDigit (hdigits c hc)

theorem not_isBlank_of_isReal (h : isReal cs = true) : ∀ c ∈ cs, isBlank c = false := by
  have hdigits : ∀ ds : List Char, ∀ c ∈ ds.takeWhile isDigit, isBlank c = false :=
    fun ds c hc => not_isBlank_of_isDigit (List.mem_takeWhile_imp hc)
  have hcs := List.takeWhile_append_dropWhile (p := isDigit) (l := cs)
  intro c hc
  rw [← hcs, List.mem_append] at hc
  rcases hc with hc | hc
  · exact hdigits cs c hc
  · unfold isReal at h
    dsimp only at h
    split at h
    · rename_i rest hrest
      rw [hrest, List.mem_cons, ← List.takeWhile_append_dropWhile (p := isDigit) (l := rest),
        List.mem_append] at hc
      rcases hc with rfl | hc | hc
      · decide
      · exact hdigits rest c hc
      · obtain ⟨-, hmark⟩ := Bool.and_eq_true_iff.1 h
        rcases Bool.or_eq_true_iff.1 hmark with hnone | hexponent
        · rw [List.isEmpty_iff.1 hnone] at hc
          cases hc
        · exact not_isBlank_of_isExponent hexponent c hc
    · rw [Bool.and_eq_true] at h
      exact not_isBlank_of_isExponent h.2 c hc

theorem not_isBlank_of_symbol (h : kind ∈ symbols) :
    ∀ c ∈ kind.spelling.toList, isBlank c = false := by
  obtain ⟨first, others, hchars, hequal, -, -, -, -, hblank, -⟩ := chars_of_symbol h
  rw [hchars]
  refine List.forall_mem_cons.2 ⟨hblank, fun c hc => ?_⟩
  rcases hequal with ⟨rfl, -⟩ | ⟨rfl, -⟩
  · cases hc
  · rw [List.mem_singleton.1 hc]
    decide

/-- No token but a string has a blank in it. -/
theorem not_isBlank_of_hasForm (h : HasForm kind cs) (hk : kind ≠ .strLiteral) :
    ∀ c ∈ cs, isBlank c = false := by
  cases h with
  | word _ hname => exact not_isBlank_of_isName hname
  | symbol hkind => exact not_isBlank_of_symbol hkind
  | integer hdigits => exact fun c hc => not_isBlank_of_isDigit ((isDigits_iff.1 hdigits).2 c hc)
  | real hreal => exact not_isBlank_of_isReal hreal
  | string => exact absurd rfl hk

/-- Every token can stand at the end of a line, if there is no line feed in the
string that it may be. -/
theorem isLine_of_classify? (h : Fragment.classify? text = some kind)
    (hfeed : kind = .strLiteral → NoFeed text) : IsLine text := by
  by_cases hk : kind = .strLiteral
  · subst hk
    obtain ⟨quote, inner, htext, hquote, -⟩ :=
      isQuoted_iff.1 (isQuoted_of_hasForm (hasForm_of_classify? h))
    refine ⟨hfeed rfl, quote, ?_, ?_⟩
    · rw [htext, ← List.cons_append, List.getLast?_concat]
    · rcases hquote with rfl | rfl <;> decide
  · have hblank := not_isBlank_of_hasForm (hasForm_of_classify? h) hk
    have hsome : text.toList ≠ [] := fun hnil =>
      ne_empty_of_classify? h (String.toList_eq_nil_iff.1 hnil)
    refine ⟨fun hmem => ?_, text.toList.getLast hsome, List.getLast?_eq_some_getLast hsome, ?_⟩
    · exact absurd (hblank _ hmem) (by decide)
    · intro hreturn
      have hlast := hblank _ (List.getLast_mem hsome)
      rw [hreturn] at hlast
      exact absurd hlast (by decide)

end Blanks

end Pseudocode
