-- Blanks in front of a line, and a comment behind it, do not change its tokens.
-- A blank has to come before the comment, since a `/` at the end of the line
-- would begin one with the first `/` of the mark.
import Pseudocode.Proofs.Token.Rereading

namespace Pseudocode

open Text
open Fragment (wordNext pointNext digitNext)

section Longest

variable {lexeme : Lexeme} {rest more : List Char}

theorem pointNext_append (h : pointNext rest = false) (hne : rest ≠ [])
    (hmore : ∀ c ∈ more.head?, isBlank c = true) : pointNext (rest ++ more) = false := by
  cases rest with
  | nil => exact absurd rfl hne
  | cons c rest =>
    by_cases hc : c = '.'
    · subst hc
      cases rest with
      | nil => exact digitNext_of_wordNext (wordNext_of_blank hmore)
      | cons d rest => exact h
    · exact pointNext_of_head fun hhead => hc (Option.some.inj hhead)

/-- Where a token is the longest one, it stays so when a blank is put behind what comes next. -/
theorem Lexeme.Longest.append (hclass : Fragment.classify? lexeme.text = some lexeme.kind)
    (h : lexeme.Longest rest) (hmore : ∀ c ∈ more.head?, isBlank c = true) :
    lexeme.Longest (rest ++ more) := by
  cases rest with
  | nil =>
    refine longest_of_blank ⟨hclass, ?_⟩ hmore
    rintro ⟨hkind, hbare⟩
    rw [h.real hkind] at hbare
    cases hbare
  | cons c rest =>
    -- all but the number behind a point depends on the next character alone
    exact ⟨h.word, fun hk => pointNext_append (h.integer hk) (List.cons_ne_nil _ _) hmore, h.real,
      h.string, h.equal, h.point, h.slash⟩

end Longest

section Lines

variable {cs gap front tail more words : List Char} {lexemes : List Lexeme}

theorem isGap_append (h : IsGap front) (h' : IsGap gap) : IsGap (front ++ gap) :=
  List.forall_mem_append.2 ⟨h, h'⟩

theorem Segmented.behind_gap (hgap : IsGap gap) (h : Segmented cs lexemes) :
    Segmented (gap ++ cs) lexemes := by
  induction gap with
  | nil => exact h
  | cons c gap ih =>
    obtain ⟨hc, hgap⟩ := List.forall_mem_cons.1 hgap
    exact (ih hgap).blank hc

theorem isTail_append (h : IsTail tail) (hmore : IsTail more) : IsTail (tail ++ more) := by
  obtain ⟨first, comment, rfl, hfirst, rfl | ⟨others, rfl⟩⟩ := h
  · obtain ⟨gap, comment, rfl, hgap, hcomment⟩ := hmore
    refine ⟨first ++ gap, comment, ?_, isGap_append hfirst hgap, hcomment⟩
    rw [List.append_nil, List.append_assoc]
  · refine ⟨first, '/' :: '/' :: (others ++ more), ?_, hfirst, .inr ⟨_, rfl⟩⟩
    rw [List.append_assoc, List.cons_append, List.cons_append]

/-- What may stand behind the last token can be put behind a line, if a blank comes first. -/
theorem Segmented.append (h : Segmented cs lexemes) (hmore : IsTail more)
    (hblank : ∀ c ∈ more.head?, isBlank c = true) : Segmented (cs ++ more) lexemes := by
  induction h with
  | tail htail => exact .tail (isTail_append htail hmore)
  | token hfirst hsome hclass hlongest _ ih =>
    rw [List.append_assoc, List.append_assoc]
    exact .token hfirst hsome hclass (hlongest.append hclass hblank) ih

theorem Segmented.comment (h : Segmented cs lexemes) (hgap : IsGap gap) (hne : gap ≠ []) :
    Segmented (cs ++ (gap ++ '/' :: '/' :: words)) lexemes := by
  refine h.append ⟨gap, _, rfl, hgap, .inr ⟨words, rfl⟩⟩ ?_
  rw [List.head?_append_of_ne_nil _ hne]
  exact head_of_gap hgap

end Lines

/-- Blanks in front of a line, and blanks and a comment behind it, leave its tokens
as they are. -/
theorem scanLine_of_comment {number : Nat} {line front gap words : String} {tokens : List Token}
    (h : Token.scanLine number line = .ok tokens) (hfront : IsGap front.toList)
    (hgap : IsGap gap.toList) (hne : gap ≠ "") :
    Token.scanLine number (front ++ line) = .ok tokens ∧
      Token.scanLine number (line ++ gap ++ "//" ++ words) = .ok tokens := by
  obtain ⟨lexemes, hline, rfl⟩ := scanLine_eq_ok_iff.1 h
  constructor
  · refine scanLine_eq_ok_iff.2 ⟨lexemes, ?_, rfl⟩
    rw [String.toList_append]
    exact hline.behind_gap hfront
  · refine scanLine_eq_ok_iff.2 ⟨lexemes, ?_, rfl⟩
    rw [String.toList_append, String.toList_append, String.toList_append, List.append_assoc,
      List.append_assoc]
    exact hline.comment hgap fun hnil => hne (String.toList_eq_nil_iff.1 hnil)

end Pseudocode
