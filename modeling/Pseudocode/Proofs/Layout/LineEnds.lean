-- It does not matter how the lines of a text end. A carriage return that is left
-- at the end of a line is a blank, and blanks behind a line change neither its
-- tokens nor what is wrong with it.
import Pseudocode.Program.Reading
import Pseudocode.Proofs.Layout.Comments
import Pseudocode.Proofs.Token.Characters
import Pseudocode.Proofs.Token.FirstFault

namespace Pseudocode

open Text
open Fragment (Fault FaultAt IsNumeral LongestNumber wordNext)

/-! ## Blanks behind a line -/

section Gaps

variable {found line front rest gap : List Char} {lexemes : List Lexeme} {fault : Fault}

theorem not_isBlank_of_isNumeral (h : IsNumeral found) : ∀ c ∈ found, isBlank c = false := by
  obtain ⟨whole, point, mark, rfl, hnumber⟩ := h
  refine List.forall_mem_append.2 ⟨?_, List.forall_mem_append.2 ⟨?_, ?_⟩⟩
  · exact fun c hc => not_isBlank_of_isDigit (hnumber.whole_digits c hc)
  · rcases hnumber.point_form with rfl | ⟨ds, rfl, -, hdigits⟩
    · simp
    · exact List.forall_mem_cons.2
        ⟨by decide, fun c hc => not_isBlank_of_isDigit (hdigits c hc)⟩
  · rcases hnumber.mark_form with rfl | hmark
    · simp
    · exact not_isBlank_of_isExponent hmark

/-- What has no blank and stands in front of a line with blanks behind it stands in
front of the line. -/
theorem prefix_of_prefix_gap (hgap : IsGap gap) (hnone : ∀ c ∈ found, isBlank c = false)
    (h : found <+: line ++ gap) : found <+: line := by
  rcases List.prefix_or_prefix_of_prefix h (List.prefix_append line gap) with hfront | ⟨more, rfl⟩
  · exact hfront
  · have hmore : more <+: gap := (List.prefix_append_right_inj line).1 h
    cases more with
    | nil => simp
    | cons c more =>
      have hblank := hgap c (hmore.subset List.mem_cons_self)
      rw [hnone c (by simp)] at hblank
      cases hblank

theorem Fragment.LongestNumber.append (h : LongestNumber found line) (hgap : IsGap gap) :
    LongestNumber found (line ++ gap) where
  numeral := h.numeral
  front := h.front.trans (List.prefix_append line gap)
  longest := fun other hother hfront =>
    h.longest other hother (prefix_of_prefix_gap hgap (not_isBlank_of_isNumeral hother) hfront)

theorem wordNext_append (h : wordNext rest = false) (hgap : IsGap gap) :
    wordNext (rest ++ gap) = false := by
  cases rest with
  | nil => exact wordNext_of_blank (head_of_gap hgap)
  | cons c rest => exact h

/-- A fault stays the same with blanks behind the line. -/
theorem Fragment.FaultAt.append (h : FaultAt rest fault) (hgap : IsGap gap) :
    FaultAt (rest ++ gap) fault := by
  cases h with
  | unterminated hquote hnone =>
    refine .unterminated hquote fun hmem => ?_
    rcases List.mem_append.1 hmem with hmem | hmem
    · exact hnone hmem
    · have hblank := hgap _ hmem
      rcases hquote with rfl | rfl
      · exact absurd hblank (by decide)
      · exact absurd hblank (by decide)
  | number hfound hsome hword hrest =>
    have hlonger := hfound.append hgap
    rw [List.append_assoc, List.append_assoc] at hlonger ⊢
    exact .number hlonger hsome hword (wordNext_append hrest hgap)
  | word hword hrest hforeign =>
    rw [List.append_assoc]
    exact .word hword (wordNext_append hrest hgap) hforeign
  | @exclamation rest hequal =>
    refine .exclamation ?_
    cases rest with
    | nil => exact head_ne_of_blank (head_of_gap hgap) (by decide)
    | cons c rest => exact hequal
  | character hblank hword hdigit hquote hother hoperator =>
    exact .character hblank hword hdigit hquote hother hoperator

theorem CutBefore.append (h : CutBefore rest front lexemes) (hgap : IsGap gap) :
    CutBefore (rest ++ gap) front lexemes := by
  induction h with
  | gap hfirst => exact .gap hfirst
  | token hfirst hsome hclass hlongest _ ih =>
    have hlonger := hlongest.append hclass (head_of_gap hgap)
    rw [List.append_assoc] at hlonger
    exact .token hfirst hsome hclass hlonger ih

theorem FaultBehind.append (h : FaultBehind line front rest fault) (hgap : IsGap gap) :
    FaultBehind (line ++ gap) front (rest ++ gap) fault := by
  obtain ⟨lexemes, hfront, hcut⟩ := h.scanned
  exact ⟨by rw [h.line, List.append_assoc], ⟨lexemes, hfront, hcut.append hgap⟩,
    h.fault.append hgap⟩

/-- Blanks behind a line change neither its tokens nor its fault. -/
theorem scanFrom_append_gap (line : List Char) (hgap : IsGap gap) :
    Lexeme.scanFrom 0 (line ++ gap) = Lexeme.scanFrom 0 line := by
  cases h : Lexeme.scanFrom 0 line with
  | ok lexemes =>
    have hline : Segmented line lexemes := segmented_of_scanFrom h
    exact scanFrom_of_segmented (hline.append (isTail_gap hgap) (head_of_gap hgap))
  | error fault =>
    obtain ⟨front, rest, hfault⟩ := scanFrom_eq_error_iff.1 h
    exact scanFrom_of_faultBehind (hfault.append hgap)

end Gaps

/-! ## Lines with a carriage return -/

/-- The line, or the line with a carriage return behind it. -/
def MayReturn (line longer : List Char) : Prop := longer = line ∨ longer = line ++ ['\r']

namespace Text

/-- The characters with a carriage return in front of every line feed. -/
def putReturns (cs : List Char) : List Char :=
  cs.flatMap fun c => if c = '\n' then ['\r', '\n'] else [c]

/-- The text with a carriage return in front of every line feed. -/
def withReturns (text : String) : String := String.ofList (putReturns text.toList)

end Text

section Returns

variable {line longer : List Char} {texts others : List (List Char)}

theorem scanLine_of_mayReturn (h : MayReturn line longer) (number : Nat) :
    Token.scanLine number (String.ofList longer) = Token.scanLine number (String.ofList line) := by
  rcases h with rfl | rfl
  · rfl
  · unfold Token.scanLine Lexeme.scan
    rw [String.toList_ofList, String.toList_ofList, scanFrom_append_gap line (by decide)]

/-- A line that loses its carriage return is the line with or without it. -/
theorem mayReturn_dropReturn (line : List Char) : MayReturn (dropReturn line) line := by
  unfold dropReturn
  split
  · rename_i hlast
    exact .inr (List.dropLast_append_getLast? '\r' hlast).symm
  · exact .inl rfl

/-- A line feed takes along the carriage return that is put in front of it, and leaves
one that stood there before. -/
theorem linesFrom_withReturns (cs line : List Char) :
    List.Forall₂ MayReturn (linesFrom line cs) (linesFrom line (putReturns cs)) := by
  induction cs generalizing line with
  | nil => exact List.forall₂_same.2 fun _ _ => .inl rfl
  | cons c cs ih =>
    rw [putReturns, List.flatMap_cons]
    by_cases hc : c = '\n'
    · have hdrop : dropReturn ('\r' :: line).reverse = line.reverse := by
        rw [List.reverse_cons, dropReturn, List.getLast?_concat, if_pos rfl, List.dropLast_concat]
      rw [if_pos hc, List.cons_append, List.cons_append, List.nil_append, linesFrom, if_pos hc,
        linesFrom, if_neg (by decide), linesFrom, if_pos rfl, hdrop]
      exact .cons (mayReturn_dropReturn line.reverse) (ih [])
    · rw [if_neg hc, List.singleton_append, linesFrom, if_neg hc, linesFrom, if_neg hc]
      exact ih (c :: line)

theorem after_of_mayReturn (h : List.Forall₂ MayReturn texts others) (number : Nat) :
    TokenStream.after number (others.map String.ofList) =
      TokenStream.after number (texts.map String.ofList) := by
  induction h generalizing number with
  | nil => rfl
  | cons hline _ ih =>
    rw [List.map_cons, List.map_cons, TokenStream.after, TokenStream.after,
      scanLine_of_mayReturn hline, ih (number + 1)]

/-- A text has the same tokens on the same lines, and the same fault, whether its line
feeds have a carriage return in front of them or not. -/
theorem ofLines_withReturns (text : String) :
    TokenStream.ofLines (lines (withReturns text)) = TokenStream.ofLines (lines text) := by
  unfold lines withReturns
  rw [String.toList_ofList]
  exact after_of_mayReturn (linesFrom_withReturns text.toList []) 0

end Returns

/-! ## The law -/

/-- Every text is read alike with line feeds and with carriage returns in front of all
of them: it gives the same tree, or none, or the same diagnostic on the same line. -/
theorem a_text_is_read_alike_with_carriage_returns (text : String) :
    Program.parseText (withReturns text) = Program.parseText text := by
  unfold Program.parseText Program.parse
  rw [ofLines_withReturns]

-- The first line keeps a carriage return in its comment, and so does the second, behind a
-- string that does not end.
example : Program.parseText (withReturns "x = 1 // one\r\ny = 'open\r\n") =
    .error (.unterminatedString 2) := rfl

end Pseudocode
