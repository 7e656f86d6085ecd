-- Lexical faults and the reading of a program. Lines are scanned only as tokens
-- are needed, so the first fault is met unless something before it is wrong,
-- and no later fault is ever met.
import Pseudocode.Proofs.Cursor.Reading
import Pseudocode.Proofs.Diagnosis.Located
import Pseudocode.Proofs.Statement.Acceptance

namespace Pseudocode

open Reading

/-! ## The lines before a fault -/

/-- The line of the first fault cuts the stream, and the lines before it have none. -/
theorem stream_of_scanAfter_error {line : Nat} {texts : List String} {fault : Diagnostic}
    (h : Token.scanAfter line texts = .error fault) :
    ∃ before tokens, before < texts.length ∧ fault.line? = some (line + before + 1) ∧
      TokenStream.after line texts = ⟨tokens, .fault fault⟩ ∧
      Token.scanAfter line (texts.take before) = .ok tokens := by
  induction texts generalizing line with
  | nil => cases h
  | cons text texts ih =>
    unfold TokenStream.after
    rcases Token.scanAfter_cons_eq_error.1 h with hfirst | ⟨first, hfirst, hothers⟩
    · rw [hfirst]
      exact ⟨0, [], Nat.succ_pos _, Cursor.line?_of_scanLine hfirst, rfl, rfl⟩
    · obtain ⟨before, tokens, hlt, hline, hstream, hscan⟩ := ih hothers
      refine ⟨before + 1, first ++ tokens, Nat.succ_lt_succ hlt, ?_, ?_, ?_⟩
      · rw [hline]
        congr 1
        omega
      · rw [hfirst, hstream]
      · rw [List.take_succ_cons]
        exact Token.scanAfter_cons_eq_ok.2 ⟨first, tokens, hfirst, hscan, rfl⟩

/-! ## What the fault does to the program -/

namespace Diagnostic

/-- What was found is the end of the input. -/
def AtEndOfInput (d : Diagnostic) : Prop := d.subject? = some TokenKind.endOfInput.display

/-- A token of a program is never called what the end of the input is called. -/
theorem not_atEndOfInput {d : Diagnostic} {token : Token} (hc : token.Classified)
    (h : d.Describes token) : ¬ d.AtEndOfInput := by
  intro hend
  have ht := h.2 _ hend
  rw [Token.display, if_neg hc.ne_endOfInput] at ht
  have hnone : Fragment.classify? TokenKind.endOfInput.display = none := by decide
  rw [Token.Classified, ← ht, hnone] at hc
  cases hc

end Diagnostic

namespace Program

/-- A program is never read to its end before a fault. -/
theorem ofStream_fault_ne_ok {tokens : List Token} {fault : Diagnostic} {tree : Option Node}
    (hc : ∀ token ∈ tokens, token.kind ≠ .endOfInput) :
    ofStream true ⟨tokens, .fault fault⟩ ≠ .ok tree := by
  intro h
  unfold ofStream at h
  split at h
  · rename_i spine rest hrun
    obtain ⟨hinput, hrest⟩ := run_input_of_fault 0 hrun
    exact hrest (derives_of_program hc hinput).1
  · cases h

theorem ofStream_eq_error {enforced : Bool} {stream : TokenStream} {d : Diagnostic} :
    ofStream enforced stream = .error d ↔
      (ofProgram enforced).run stream.tokens stream.ending = .error d := by
  unfold ofStream
  split
  · rename_i hrun
    simp [hrun]
  · rename_i hrun
    simp [hrun]

variable {lines : List String} {fault : Diagnostic}

/-- Where the lines have a fault, either the fault is reported, or what is
reported of the lines before it, which is about one of their tokens. -/
theorem parse_of_scan_error (h : Token.scan lines = .error fault) :
    ∃ before, before < lines.length ∧ fault.line? = some (before + 1) ∧
      (parse lines = .error fault ∨
        ∃ d line, parse lines = .error d ∧ parse (lines.take before) = .error d ∧
          ¬ d.AtEndOfInput ∧ d.line? = some line ∧ line ≤ before) := by
  obtain ⟨before, tokens, hlt, hline, hstream, hscan⟩ := stream_of_scanAfter_error h
  rw [Nat.zero_add] at hline
  refine ⟨before, hlt, hline, ?_⟩
  have hfront := TokenStream.ofLines_of_scan hscan
  have hc : ∀ token ∈ tokens, token.Classified := TokenStream.classified_of_scan hscan
  have hparse : parse lines = ofStream true ⟨tokens, .fault fault⟩ := congrArg _ hstream
  cases hp : parse lines with
  | ok tree =>
    rw [hparse] at hp
    exact absurd hp (ofStream_fault_ne_ok fun token ht => (hc token ht).ne_endOfInput)
  | error d =>
    rw [hparse, ofStream_eq_error] at hp
    have hw : Item.Willing (ofProgram true).agenda := rfl
    rcases describes_of_run_fault hw hp with rfl | ⟨⟨token, hmem, hdescribes⟩, hrun⟩
    · exact .inl rfl
    · refine .inr ⟨d, token.line, rfl, ?_, Diagnostic.not_atEndOfInput (hc token hmem) hdescribes,
        hdescribes.1, ?_⟩
      · unfold parse
        rw [hfront]
        exact ofStream_eq_error.2 (hrun _)
      · have hle := Token.line_le_of_scan hscan token hmem
        rwa [List.length_take, Nat.min_eq_left (Nat.le_of_lt hlt)] at hle

theorem scan_of_parse {tree : Option Node} (h : parse lines = .ok tree) :
    ∃ tokens, Token.scan lines = .ok tokens := by
  cases hs : Token.scan lines with
  | ok tokens => exact ⟨tokens, rfl⟩
  | error fault =>
    obtain ⟨before, -, -, hp | ⟨d, line, hp, -⟩⟩ := parse_of_scan_error hs
    · rw [h] at hp
      cases hp
    · rw [h] at hp
      cases hp

end Program

/-- A program is read from the cursor over its lines as from all its tokens, and
can be read only if all its lines can be scanned, so taking all tokens first
takes no program away. The first lexical fault is reported, unless the lines
before it already have something wrong in them; if those are a program, or if
only their end is wrong, the fault is what is reported. -/
theorem the_first_lexical_fault_is_reported_unless_the_lines_before_it_are_wrong
    (lines : List String) :
    ((Cursor.ofLines lines).parse).1 = Program.parse lines ∧
    (∀ tree, Program.parse lines = .ok tree → ∃ tokens, Token.scan lines = .ok tokens) ∧
    (∀ tree, (do let _ ← Token.scan lines; Program.parse lines) = .ok tree ↔
      Program.parse lines = .ok tree) ∧
    ∀ fault, Token.scan lines = .error fault →
      ∃ before, before < lines.length ∧ fault.line? = some (before + 1) ∧
        (Program.parse lines = .error fault ∨
          ∃ d line, Program.parse lines = .error d ∧
            Program.parse (lines.take before) = .error d ∧
            ¬ d.AtEndOfInput ∧ d.line? = some line ∧ line < before + 1) ∧
        ((∃ tree, Program.parse (lines.take before) = .ok tree) ∨
            (∃ d, Program.parse (lines.take before) = .error d ∧ d.AtEndOfInput) →
          Program.parse lines = .error fault) := by
  refine ⟨Cursor.parse_eq _, fun tree h => Program.scan_of_parse h, fun tree => ?_, ?_⟩
  · constructor
    · intro h
      exact (bind_eq_ok.1 h).elim fun _ h => h.2
    · intro h
      obtain ⟨tokens, hs⟩ := Program.scan_of_parse h
      exact bind_eq_ok.2 ⟨tokens, hs, h⟩
  · intro fault hs
    obtain ⟨before, hlt, hline, hp⟩ := Program.parse_of_scan_error hs
    refine ⟨before, hlt, hline, ?_, ?_⟩
    · rcases hp with hp | ⟨d, line, hp, hfront, hend, hd, hle⟩
      · exact .inl hp
      · exact .inr ⟨d, line, hp, hfront, hend, hd, Nat.lt_succ_of_le hle⟩
    · intro hfine
      rcases hp with hp | ⟨d, line, hp, hfront, hend, -⟩
      · exact hp
      · exfalso
        rw [hfront] at hfine
        rcases hfine with ⟨tree, htree⟩ | ⟨found, hfound, hatEnd⟩
        · cases htree
        · cases hfound
          exact hend hatEnd

end Pseudocode
