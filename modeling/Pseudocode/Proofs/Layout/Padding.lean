-- Comments and blank space are invisible. A comment behind a line and blanks in
-- front of it leave the tokens of the line as they are, and lines that hold no
-- tokens only give other numbers to the lines that come behind them.
import Mathlib.Order.Monotone.Basic
import Pseudocode.Proofs.Layout.Comments
import Pseudocode.Proofs.Layout.Renumbered
import Pseudocode.Proofs.Token.FirstFault

namespace Pseudocode

open Text
open Fragment (Fault FaultAt IsWord digitNext pointNext)

/-! ## Lines without tokens -/

/-- The lines of a program with more lines among them: those of `pads place` stand
in front of the line that had `place` lines before it, or behind the last one. -/
def padded (pads : Nat → List String) (place : Nat) : List String → List String
  | [] => pads place
  | text :: texts => pads place ++ text :: padded pads (place + 1) texts

/-- The new number of a line: the lines that are put in front of it come before it too. -/
def newLine (pads : Nat → List String) (line : Nat) : Nat :=
  line + ((List.range line).flatMap pads).length

/-- Blanks, or blanks and a comment. -/
def IsVoid (text : String) : Prop := IsTail text.toList

theorem newLine_succ (pads : Nat → List String) (line : Nat) :
    newLine pads (line + 1) = newLine pads line + (pads line).length + 1 := by
  unfold newLine
  rw [List.range_succ, List.flatMap_append, List.length_append, List.flatMap_singleton]
  omega

theorem newLine_injective (pads : Nat → List String) : Function.Injective (newLine pads) := by
  refine StrictMono.injective (strictMono_nat_of_lt_succ fun line => ?_)
  rw [newLine_succ]
  omega

/-! ## The faults of a line -/

section Faults

variable {rest : List Char} {fault : Fault} {line : Nat} {text : String} {d : Diagnostic}

/-- What is reported of a fragment is never that the input ends. -/
theorem not_atEndOfInput_of_faultAt (h : FaultAt rest fault) :
    ¬(fault.onLine line).AtEndOfInput := by
  have hblank : ' ' ∈ TokenKind.endOfInput.display.toList := by decide
  intro hend
  cases h with
  | unterminated _ _ => cases hend
  | @number found word rest hfound _ _ _ =>
    -- a number does not begin with a letter
    have htext : String.ofList (found ++ word) = TokenKind.endOfInput.display :=
      Option.some.inj hend
    have hnext := next_of_isNumeral hfound.numeral (List.prefix_append found word)
    rw [← String.toList_ofList (l := found ++ word), htext] at hnext
    exact absurd hnext (by decide)
  | @word word rest hword _ _ =>
    have htext : String.ofList word = TokenKind.endOfInput.display := Option.some.inj hend
    rw [← htext, String.toList_ofList] at hblank
    cases word with
    | nil => cases hblank
    | cons c cs =>
      rcases List.mem_cons.1 hblank with rfl | hmem
      · exact absurd hword.1 (by decide)
      · exact absurd (hword.2 _ hmem) (by decide)
  | exclamation _ => exact absurd (Option.some.inj hend) (by decide)
  | @character c rest _ _ _ _ _ _ =>
    have htext : String.ofList [c] = TokenKind.endOfInput.display := Option.some.inj hend
    rw [← htext, String.toList_ofList] at hblank
    have hlength := congrArg (fun text => text.toList.length) htext
    rw [String.toList_ofList] at hlength
    cases hlength

theorem not_atEndOfInput_of_scanLine (h : Token.scanLine line text = .error d) :
    ¬d.AtEndOfInput := by
  obtain ⟨fault, hscan, rfl⟩ := scanLine_eq_error_iff.1 h
  obtain ⟨-, rest, -, -, -, hfault⟩ := cutBefore_of_scanFrom hscan
  exact not_atEndOfInput_of_faultAt hfault

theorem renumbered_onLine (place : Nat → Nat) (fault : Fault) :
    (fault.onLine line).renumbered place = fault.onLine (place line) := by
  cases fault <;> rfl

/-- The scan of a line with another number. -/
theorem scanLine_placed (place : Nat → Nat) (total line : Nat) (text : String) :
    Token.scanLine (place line) text =
      ((Token.scanLine line text).map (List.map (Token.renumbered place))).mapError
        (Diagnostic.placed place total) := by
  cases h : Token.scanLine line text with
  | ok tokens =>
    obtain ⟨lexemes, hline, rfl⟩ := scanLine_eq_ok_iff.1 h
    rw [scanLine_eq_ok_iff.2 ⟨lexemes, hline, rfl⟩]
    simp only [Except.map, Except.mapError, List.map_map]
    rfl
  | error d =>
    have hend := not_atEndOfInput_of_scanLine h
    obtain ⟨fault, hscan, rfl⟩ := scanLine_eq_error_iff.1 h
    rw [scanLine_eq_error_iff.2 ⟨fault, hscan, rfl⟩, ← renumbered_onLine]
    exact congrArg Except.error (if_neg hend).symm

end Faults

/-! ## The stream of a padded program -/

section Streams

variable {pads : Nat → List String} {void texts lines : List String}

theorem after_void (h : ∀ text ∈ void, IsVoid text) (line : Nat) :
    TokenStream.after line (void ++ texts) = TokenStream.after (line + void.length) texts := by
  induction void generalizing line with
  | nil => rfl
  | cons text void ih =>
    obtain ⟨htext, hvoid⟩ := List.forall_mem_cons.1 h
    have hscan : Token.scanLine (line + 1) text = .ok [] :=
      scanLine_eq_ok_iff.2 ⟨[], .tail htext, rfl⟩
    rw [List.cons_append, TokenStream.after, hscan]
    change TokenStream.after (line + 1) (void ++ texts) = _
    rw [ih hvoid, List.length_cons, Nat.add_assoc, Nat.add_comm 1]

theorem after_padded (h : ∀ place, ∀ text ∈ pads place, IsVoid text) (line : Nat) :
    TokenStream.after (newLine pads line) (padded pads line texts) =
      (TokenStream.after line texts).placed (newLine pads)
        (newLine pads line + (padded pads line texts).length) := by
  induction texts generalizing line with
  | nil =>
    have hvoid : TokenStream.after (newLine pads line) (pads line ++ []) = _ :=
      after_void (h line) _
    rw [List.append_nil] at hvoid
    exact hvoid
  | cons text texts ih =>
    have htotal : newLine pads line + (padded pads line (text :: texts)).length =
        newLine pads (line + 1) + (padded pads (line + 1) texts).length := by
      rw [padded, List.length_append, List.length_cons, newLine_succ]
      omega
    rw [htotal, padded, after_void (h line)]
    have hothers := ih (line + 1)
    generalize newLine pads (line + 1) + (padded pads (line + 1) texts).length = total at hothers ⊢
    have hscan := scanLine_placed (newLine pads) total (line + 1) text
    rw [newLine_succ] at hothers hscan
    cases hs : Token.scanLine (line + 1) text with
    | error d =>
      rw [hs] at hscan
      simp only [TokenStream.after, hscan, hs]
      rfl
    | ok tokens =>
      rw [hs] at hscan
      simp only [TokenStream.after, hscan, hs, hothers, TokenStream.placed, List.map_append,
        Except.map, Except.mapError]

theorem ofLines_padded (h : ∀ place, ∀ text ∈ pads place, IsVoid text) (lines : List String) :
    TokenStream.ofLines (padded pads 0 lines) =
      (TokenStream.ofLines lines).placed (newLine pads) (padded pads 0 lines).length := by
  have hafter : TokenStream.after 0 (padded pads 0 lines) = _ := after_padded h 0
  rwa [show newLine pads 0 = 0 from rfl, Nat.zero_add] at hafter

theorem toExcept_placed (place : Nat → Nat) (total : Nat) (stream : TokenStream) :
    (stream.placed place total).toExcept =
      (stream.toExcept.map (List.map (Token.renumbered place))).mapError
        (Diagnostic.placed place total) := by
  obtain ⟨tokens, ending⟩ := stream
  cases ending <;> rfl

theorem scan_padded (h : ∀ place, ∀ text ∈ pads place, IsVoid text) (lines : List String) :
    Token.scan (padded pads 0 lines) =
      ((Token.scan lines).map (List.map (Token.renumbered (newLine pads)))).mapError
        (Diagnostic.placed (newLine pads) (padded pads 0 lines).length) := by
  rw [← TokenStream.toExcept_ofLines, ofLines_padded h, toExcept_placed,
    TokenStream.toExcept_ofLines]

theorem parse_padded (h : ∀ place, ∀ text ∈ pads place, IsVoid text) (lines : List String) :
    Program.parse (padded pads 0 lines) =
      (Program.parse lines).mapError
        (Diagnostic.placed (newLine pads) (padded pads 0 lines).length) := by
  unfold Program.parse
  rw [ofLines_padded h]
  exact ofStream_placed (newLine_injective pads) _ (TokenStream.classified_after 0 lines) true

end Streams

/-! ## The law -/

/-- Blanks in front of a line, and blanks and a comment behind it, leave its tokens as
they are. Lines of blanks and comments among the lines of a program leave its tokens
and its tree, or what is wrong with it, and move each line by as many as are put in
front of it; what is wrong with the end of the input is wrong on the new last line. -/
theorem comments_and_blanks_only_move_lines :
    (∀ (number : Nat) (line front gap words : String) (tokens : List Token),
      Token.scanLine number line = .ok tokens → IsGap front.toList → IsGap gap.toList →
        gap ≠ "" → Token.scanLine number (front ++ line) = .ok tokens ∧
          Token.scanLine number (line ++ gap ++ "//" ++ words) = .ok tokens) ∧
    (∀ (pads : Nat → List String) (lines : List String),
      (∀ place, ∀ text ∈ pads place, IsVoid text) →
        Token.scan (padded pads 0 lines) =
          ((Token.scan lines).map (List.map (Token.renumbered (newLine pads)))).mapError
            (Diagnostic.placed (newLine pads) (padded pads 0 lines).length) ∧
        Program.parse (padded pads 0 lines) =
          (Program.parse lines).mapError
            (Diagnostic.placed (newLine pads) (padded pads 0 lines).length)) :=
  ⟨fun _ _ _ _ _ _ h hfront hgap hne => scanLine_of_comment h hfront hgap hne,
    fun _ lines h => ⟨scan_padded h lines, parse_padded h lines⟩⟩

/-- A line may end in a `/` or in a string with the mark of a comment in it, and three
lines more move the end of a program that lacks a value from line 2 to line 5. -/
theorem three_lines_move_the_end_of_the_input :
    let line := "x = '//' /"
    let tokens : List Token := [⟨.identifier, "x", 3⟩, ⟨.assign, "=", 3⟩,
      ⟨.strLiteral, "'//'", 3⟩, ⟨.divide, "/", 3⟩]
    let pads : Nat → List String := fun place =>
      if place = 1 then ["", "\t// it's"] else if place = 2 then ["  "] else []
    let lines := ["x = 1", "y = x +"]
    Token.scanLine 3 line = .ok tokens ∧ IsGap "\t ".toList ∧ IsGap " ".toList ∧
      " " ≠ "" ∧ (∀ place, ∀ text ∈ pads place, IsVoid text) ∧
      Token.scanLine 3 ("\t " ++ line) = .ok tokens ∧
      Token.scanLine 3 (line ++ " " ++ "//" ++ "/ it's") = .ok tokens ∧
      Program.parse lines = .error (.expected .expression "end of input" 2) ∧
      Program.parse (padded pads 0 lines) = .error (.expected .expression "end of input" 5) := by
  intro line tokens pads lines
  have hscan : Token.scanLine 3 line = .ok tokens := by decide +kernel
  have hfront : IsGap "\t ".toList := by decide
  have hgap : IsGap " ".toList := by decide
  have hne : " " ≠ "" := by decide
  have hpads : ∀ place, ∀ text ∈ pads place, IsVoid text := by
    intro place text htext
    dsimp only [pads] at htext
    split at htext
    · rcases List.mem_pair.1 htext with rfl | rfl
      · exact ⟨[], [], rfl, isGap_nil, .inl rfl⟩
      · exact ⟨['\t'], _, rfl, by decide, .inr ⟨_, rfl⟩⟩
    · split at htext
      · rw [List.mem_singleton.1 htext]
        exact ⟨[' ', ' '], [], rfl, by decide, .inl rfl⟩
      · cases htext
  have hparse : Program.parse lines = .error (.expected .expression "end of input" 2) := rfl
  obtain ⟨hcomment, hpadded⟩ := comments_and_blanks_only_move_lines
  obtain ⟨hbefore, hbehind⟩ := hcomment 3 line "\t " " " "/ it's" tokens hscan hfront hgap hne
  have hresult := (hpadded pads lines hpads).2
  rw [hparse] at hresult
  exact ⟨hscan, hfront, hgap, hne, hpads, hbefore, hbehind, hparse, hresult⟩

end Pseudocode
