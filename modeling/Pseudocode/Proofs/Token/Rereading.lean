-- The scanner and the forms of tokens agree: texts that have a kind are scanned
-- as themselves whatever blanks are put between them, and what is scanned has
-- such texts. Only a real number with no digit behind its point is never found.
import Pseudocode.Proofs.Token.Segmentation

namespace Pseudocode

open Text
open Fragment (wordNext pointNext hasBarePoint isQuoted HasForm)

/-! ## Texts with gaps -/

/-- A text with its kind, unless the text is a real number whose point has no
digit behind it. -/
def Lexeme.Rereadable (lexeme : Lexeme) : Prop :=
  Fragment.classify? lexeme.text = some lexeme.kind ∧
    ¬(lexeme.kind = .realLiteral ∧ hasBarePoint lexeme.text.toList = true)

/-- Texts with a gap in front of each of them and one behind the last. -/
def spaced : List (List Char × Lexeme) → List Char → List Char
  | [], last => last
  | (gap, lexeme) :: pieces, last => gap ++ (lexeme.text.toList ++ spaced pieces last)

section Spaced

variable {lexeme : Lexeme} {pieces : List (List Char × Lexeme)} {last rest : List Char}

theorem ne_empty_of_classify? {text : String} {kind : TokenKind}
    (h : Fragment.classify? text = some kind) : text ≠ "" := by
  rintro rfl
  have hnone : Fragment.classify? "" = none := by decide +kernel
  rw [hnone] at h
  cases h

theorem isQuoted_of_hasForm {cs : List Char} (h : HasForm .strLiteral cs) :
    isQuoted cs = true := by
  cases h with
  | word hkind => cases hkind
  | symbol hkind => exact absurd hkind (by decide)
  | string hquoted => exact hquoted

theorem wordNext_of_blank (h : ∀ c ∈ rest.head?, isBlank c = true) : wordNext rest = false := by
  cases rest with
  | nil => rfl
  | cons c cs => exact not_isWordChar_of_isBlank (h c rfl)

theorem head_ne_of_blank {mark : Char} (h : ∀ c ∈ rest.head?, isBlank c = true)
    (hmark : isBlank mark = false) : rest.head? ≠ some mark := by
  intro hhead
  rw [h mark hhead] at hmark
  cases hmark

theorem pointNext_of_head (h : rest.head? ≠ some '.') : pointNext rest = false := by
  unfold pointNext
  split
  · exact absurd rfl h
  · rfl

/-- Where a blank comes next, every text is as long as it can be. -/
theorem longest_of_blank (h : lexeme.Rereadable) (hrest : ∀ c ∈ rest.head?, isBlank c = true) :
    lexeme.Longest rest := by
  obtain ⟨hclass, hbare⟩ := h
  have hword := wordNext_of_blank hrest
  constructor
  · exact fun _ => hword
  · exact fun _ => pointNext_of_head (head_ne_of_blank hrest (by decide))
  · intro hkind
    rw [not_and, Bool.not_eq_true] at hbare
    exact hbare hkind
  · intro hkind
    have hform := hasForm_of_classify? hclass
    rw [hkind] at hform
    obtain ⟨quote, inner, htext, -, hmem⟩ := isQuoted_iff.1 (isQuoted_of_hasForm hform)
    exact ⟨quote, inner, htext, hmem⟩
  · exact fun _ => head_ne_of_blank hrest (by decide)
  · exact fun _ => digitNext_of_wordNext hword
  · exact fun _ => head_ne_of_blank hrest (by decide)

/-- What comes behind a text is a gap, or the end of the line. -/
theorem head_spaced (hgaps : ∀ piece ∈ pieces, IsGap piece.1) (hsome : ∀ piece ∈ pieces, piece.1 ≠ [])
    (hlast : IsGap last) : ∀ c ∈ (spaced pieces last).head?, isBlank c = true := by
  cases pieces with
  | nil => exact head_of_gap hlast
  | cons piece pieces =>
    obtain ⟨gap, lexeme⟩ := piece
    have hgap : IsGap gap := hgaps (gap, lexeme) (by simp)
    have hne : gap ≠ [] := hsome (gap, lexeme) (by simp)
    rw [spaced, List.head?_append_of_ne_nil _ hne]
    exact head_of_gap hgap

/-- Texts with gaps between them are cut at the gaps. -/
theorem segmented_spaced (hpieces : ∀ piece ∈ pieces, IsGap piece.1 ∧ piece.2.Rereadable)
    (hsome : ∀ piece ∈ pieces.tail, piece.1 ≠ []) (hlast : IsGap last) :
    Segmented (spaced pieces last) (pieces.map (·.2)) := by
  induction pieces with
  | nil => exact .tail (isTail_gap hlast)
  | cons piece pieces ih =>
    obtain ⟨gap, lexeme⟩ := piece
    obtain ⟨⟨hgap, hlexeme⟩, hothers⟩ := List.forall_mem_cons.1 hpieces
    have hnext := head_spaced (fun piece hp => (hothers piece hp).1) hsome hlast
    have hrest := ih hothers (fun piece hp => hsome piece (List.mem_of_mem_tail hp))
    exact .token hgap (ne_empty_of_classify? hlexeme.1) hlexeme.1 (longest_of_blank hlexeme hnext)
      hrest

end Spaced

/-! ## What is scanned -/

theorem rereadable_of_segmented {cs : List Char} {lexemes : List Lexeme}
    (h : Segmented cs lexemes) : ∀ lexeme ∈ lexemes, lexeme.Rereadable := by
  induction h with
  | tail => simp
  | token _ _ hclass hlongest _ ih =>
    refine List.forall_mem_cons.2 ⟨⟨hclass, ?_⟩, ih⟩
    rintro ⟨hkind, hbare⟩
    rw [hlongest.real hkind] at hbare
    cases hbare

theorem rereadable_of_scanLine {line : Nat} {text : String} {tokens : List Token}
    (h : Token.scanLine line text = .ok tokens) : ∀ token ∈ tokens, token.lexeme.Rereadable := by
  obtain ⟨lexemes, hline, rfl⟩ := scanLine_eq_ok_iff.1 h
  intro token ht
  obtain ⟨lexeme, hl, rfl⟩ := List.mem_map.1 ht
  exact rereadable_of_segmented hline lexeme hl

theorem rereadable_of_scan {lines : List String} {tokens : List Token}
    (h : Token.scan lines = .ok tokens) : ∀ token ∈ tokens, token.lexeme.Rereadable := by
  intro token ht
  obtain ⟨text, -, number, row, hrow, hmem⟩ := exists_line_of_scan h ht
  exact rereadable_of_scanLine hrow token hmem

/-- The texts of lexemes with one blank between them. -/
theorem toList_intercalate (lexeme : Lexeme) (lexemes : List Lexeme) :
    (String.intercalate " " ((lexeme :: lexemes).map (·.text))).toList =
      spaced (([], lexeme) :: lexemes.map ([' '], ·)) [] := by
  induction lexemes generalizing lexeme with
  | nil =>
    rw [List.map_singleton, String.intercalate_singleton]
    exact (List.append_nil _).symm
  | cons next lexemes ih =>
    rw [List.map_cons, List.map_cons, String.intercalate_cons_cons, String.toList_append,
      String.toList_append, ← List.map_cons, ih next, List.append_assoc]
    rfl

theorem scanLine_intercalate {lexemes : List Lexeme} (h : ∀ lexeme ∈ lexemes, lexeme.Rereadable)
    (line : Nat) : Token.scanLine line (String.intercalate " " (lexemes.map (·.text))) =
      .ok (lexemes.map (·.onLine line)) := by
  refine scanLine_eq_ok_iff.2 ⟨lexemes, ?_, rfl⟩
  cases lexemes with
  | nil => exact .tail (isTail_gap isGap_nil)
  | cons lexeme lexemes =>
    obtain ⟨hlexeme, hothers⟩ := List.forall_mem_cons.1 h
    have hblank : IsGap [' '] := isGap_cons (by decide) isGap_nil
    have hpieces : ∀ piece ∈ ([], lexeme) :: lexemes.map (([' '], ·)),
        IsGap piece.1 ∧ piece.2.Rereadable := by
      refine List.forall_mem_cons.2 ⟨⟨isGap_nil, hlexeme⟩, ?_⟩
      rw [List.forall_mem_map]
      exact fun other ho => ⟨hblank, hothers other ho⟩
    have hsome : ∀ piece ∈ lexemes.map (([' '], ·)), piece.1 ≠ [] := by
      rw [List.forall_mem_map]
      exact fun _ _ => List.cons_ne_nil _ _
    have hcut := segmented_spaced hpieces hsome isGap_nil
    rw [List.map_cons, List.map_map] at hcut
    have hlexemes : lexemes.map ((·.2) ∘ (([' '], ·) : Lexeme → List Char × Lexeme)) = lexemes :=
      List.map_id lexemes
    rwa [hlexemes, ← toList_intercalate] at hcut

/-! ## The law -/

/-- Texts with a kind are scanned as themselves with any blanks between them and
at the ends of the line. All that is scanned are such texts, so the tokens of a
line are found again where one blank is put between them. -/
theorem tokens_are_scanned_again_with_any_blanks_between :
    (∀ pieces last, (∀ piece ∈ pieces, IsGap piece.1 ∧ piece.2.Rereadable) →
      (∀ piece ∈ pieces.tail, piece.1 ≠ []) → IsGap last → ∀ line,
        Token.scanLine line (String.ofList (spaced pieces last)) =
          .ok (pieces.map fun piece => piece.2.onLine line)) ∧
    (∀ lines tokens, Token.scan lines = .ok tokens →
      ∀ token ∈ tokens, token.lexeme.Rereadable) ∧
    (∀ line text tokens, Token.scanLine line text = .ok tokens → ∀ other,
      Token.scanLine other (String.intercalate " " (tokens.map (·.text))) =
        .ok (tokens.map fun token => token.lexeme.onLine other)) := by
  refine ⟨fun pieces last hpieces hsome hlast line => ?_, fun _ _ => rereadable_of_scan,
    fun line text tokens hscan other => ?_⟩
  · refine scanLine_eq_ok_iff.2 ⟨pieces.map (·.2), ?_, by rw [List.map_map]; rfl⟩
    rw [String.toList_ofList]
    exact segmented_spaced hpieces hsome hlast
  · obtain ⟨lexemes, hline, rfl⟩ := scanLine_eq_ok_iff.1 hscan
    have hagain := scanLine_intercalate (rereadable_of_segmented hline) other
    rw [List.map_map, List.map_map]
    exact hagain

theorem an_assignment_is_scanned_again :
    Token.scanLine 4 "x =\t.5e+3  'a // \"b' " = .ok [⟨.identifier, "x", 4⟩, ⟨.assign, "=", 4⟩,
      ⟨.realLiteral, ".5e+3", 4⟩, ⟨.strLiteral, "'a // \"b'", 4⟩] ∧
    (∀ token ∈ [(⟨.identifier, "x", 1⟩ : Token), ⟨.assign, "=", 1⟩], token.lexeme.Rereadable) ∧
    Token.scanLine 7 "x =" = .ok [⟨.identifier, "x", 7⟩, ⟨.assign, "=", 7⟩] := by
  have hlaw := tokens_are_scanned_again_with_any_blanks_between
  refine ⟨?_, ?_, ?_⟩
  · exact hlaw.1 [([], ⟨.identifier, "x"⟩), ([' '], ⟨.assign, "="⟩),
      (['\t'], ⟨.realLiteral, ".5e+3"⟩), ([' ', ' '], ⟨.strLiteral, "'a // \"b'"⟩)] [' ']
      (by unfold Lexeme.Rereadable; decide +kernel) (by decide) (by decide) 4
  · exact hlaw.2.1 ["x=// =1.", "  "] _ (by decide +kernel)
  · exact hlaw.2.2 1 "x=// =1." [⟨.identifier, "x", 1⟩, ⟨.assign, "=", 1⟩] (by decide +kernel) 7

end Pseudocode
