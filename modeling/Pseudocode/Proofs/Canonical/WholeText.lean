-- The law of whole texts: a program that is read from a text is read again from
-- its canonical lines joined with line feeds. Every string of its tree stands in
-- one line of the text, so none has a line feed, and taking the joined lines
-- apart gives the canonical lines.
import Pseudocode.Proofs.Canonical.Lines

namespace Pseudocode

open Text

section Strings

variable {token : Token} {tokens : List Token} {lines : List String} {program : Node}

/-! ## Strings of a program -/

theorem withoutByVal_subset (tokens : List Token) : Token.withoutByVal tokens ⊆ tokens := by
  fun_induction Token.withoutByVal tokens with
  | case1 first second others _ ih =>
    exact List.Subset.trans ih
      (List.subset_cons_of_subset first (List.subset_cons_self second others))
  | case2 first second others _ ih => exact List.cons_subset_cons first ih
  | case3 tokens => exact List.Subset.refl tokens

/-- Every atom is what some token says. -/
theorem exists_token_of_essence {atom : Atom} (h : atom ∈ Token.essence tokens) :
    ∃ token ∈ tokens, token.atom = atom := by
  obtain ⟨token, htoken, hatom⟩ := List.mem_map.1 h
  exact ⟨token, withoutByVal_subset tokens (List.mem_filter.1 htoken).1, hatom⟩

theorem eq_unquoted_of_atom {value : String} (h : token.atom = .value (.str value)) :
    value = token.unquoted := by
  unfold Token.atom at h
  split at h
  · rename_i label hlabel
    cases h
    cases literalLabel_eq_ok_iff.1 hlabel
    rfl
  · cases h

/-- Every string of a program stands in one of its lines, character by character. -/
theorem infix_of_string {value : String} (h : Program.parse lines = .ok (some program))
    (hvalue : .value (.str value) ∈ program.yield) :
    ∃ line ∈ lines, value.toList <:+: line.toList := by
  obtain ⟨tokens, hscan, hessence⟩ := essence_of_parse h
  rw [← hessence] at hvalue
  obtain ⟨token, htoken, hatom⟩ := exists_token_of_essence hvalue
  obtain ⟨line, hline, hpart⟩ := infix_of_scan hscan htoken
  rw [eq_unquoted_of_atom hatom]
  exact ⟨line, hline, (infix_unquoted token).trans hpart⟩

end Strings

/-! ## The law -/

section Texts

variable {text : String} {program : Node}

/-- No string of a tree that is read from a text has a line feed. -/
theorem feedFree_of_parseText (h : Program.parseText text = .ok (some program)) :
    program.FeedFree := by
  intro atom hatom
  unfold Atom.FeedFree
  split
  · obtain ⟨line, hline, hpart⟩ := infix_of_string h hatom
    exact fun hmem => not_mem_lines text line hline (hpart.subset hmem)
  · trivial

/-- The canonical lines of a tree that is read from a text are lines of a text. -/
theorem areLines_render (h : Program.parseText text = .ok (some program)) :
    AreLines program.render := by
  have hfeed := feedFree_of_parseText h
  obtain ⟨⟨ns, rfl, -, hformed⟩, -⟩ := wellFormed_of_parse h
  rw [Node.render_program]
  exact areLines_statements (fun n hn => inLines_of_role (hformed n hn) (hfeed.child rfl hn)) 0

theorem render_ne_nil (h : Program.parseText text = .ok (some program)) : program.render ≠ [] := by
  intro hnil
  have hread := parse_render (wellFormed_of_parse h)
  rw [hnil] at hread
  cases hread

end Texts

/-- No canonical line of a program that is read from a text has a line feed or ends
in a carriage return. Joined with line feeds, the canonical lines are taken apart
again, and the program is read from them, whether a line feed ends the last one
or not. -/
theorem a_text_is_read_again_from_its_canonical_text {text : String} {program : Node}
    (h : Program.parseText text = .ok (some program)) :
    (∀ line ∈ program.render, '\n' ∉ line.toList ∧ line.toList.getLast? ≠ some '\r') ∧
    ∀ final, final = "" ∨ final = "\n" →
      Text.lines (String.intercalate "\n" program.render ++ final) = program.render ∧
      Program.parseText (String.intercalate "\n" program.render ++ final) = .ok (some program) := by
  have hlines := areLines_render h
  refine ⟨fun line hline => ⟨(hlines line hline).noFeed, (hlines line hline).not_return⟩, ?_⟩
  intro final hfinal
  have hsplit := lines_intercalate hlines (render_ne_nil h) hfinal
  refine ⟨hsplit, ?_⟩
  unfold Program.parseText
  rw [hsplit]
  exact parse_render (wellFormed_of_parse h)

/-- Strings with a carriage return at their end, a tab, a line separator, slashes
and the other quote, in lines that end in a carriage return themselves. -/
theorem strings_of_all_sorts_are_read_again :
    let program : Node := .tree .program [
      .tree (.assign false) [.tree (.identifier "x") [], .tree (.str "a // \"b\"\t\u2028\r") []],
      .tree .print [.tree (.identifier "x") [], .tree (.str "it's\r") []]]
    Program.parseText
        "x = 'a // \"b\"\t\u2028\r' // first\r\nprint(x,\r\n\"it's\r\")\r\n" =
      .ok (some program) ∧
    (∀ line ∈ program.render, '\n' ∉ line.toList ∧ line.toList.getLast? ≠ some '\r') ∧
    ∀ final, final = "" ∨ final = "\n" →
      Text.lines (String.intercalate "\n" program.render ++ final) = program.render ∧
      Program.parseText (String.intercalate "\n" program.render ++ final) =
        .ok (some program) := by
  intro program
  have hlines : Text.lines
      "x = 'a // \"b\"\t\u2028\r' // first\r\nprint(x,\r\n\"it's\r\")\r\n" =
      ["x = 'a // \"b\"\t\u2028\r' // first", "print(x,", "\"it's\r\")"] := rfl
  have hread : Program.parseText
      "x = 'a // \"b\"\t\u2028\r' // first\r\nprint(x,\r\n\"it's\r\")\r\n" =
      .ok (some program) := by
    unfold Program.parseText
    rw [hlines]
    rfl
  exact ⟨hread, a_text_is_read_again_from_its_canonical_text hread⟩

end Pseudocode
