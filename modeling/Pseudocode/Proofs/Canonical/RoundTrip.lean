-- The canonical lines of a program are read as the program. So the programs
-- that can be read at all are exactly the well-formed trees.
import Pseudocode.Proofs.Canonical.Declaration
import Pseudocode.Proofs.Placement.Placed
import Pseudocode.Proofs.Statement.Acceptance

namespace Pseudocode

open Node (statements)

/-! ## Every part is read from its lines -/

/-- How what plays a part in a program is read from its canonical lines. -/
def Role.Legible : Role → Node → Prop
  | statement, n => ∀ depth, Covers (MakesPart .statement [n]) (n.statement depth "")
  | branch, n => LegibleBranch n
  | elseBranch, n => LegibleElse .elseBranch n
  | caseClause, n => LegibleCase n
  | defaultClause, n => LegibleElse .defaultClause n
  | subroutine, n => LegibleSubroutine n
  | member, n => LegibleMember n
  | _, _ => True

theorem not_isIdentifier_of_subroutine {n : Node} (h : n.Formed .subroutine) :
    n.isIdentifier = false := by
  cases h with
  | @sort sort => cases sort <;> rfl

/-- What is formed as a part is read as the part. -/
theorem legible_of_role {role : Role} {n : Node} (h : n.Formed role) : role.Legible n := by
  induction h with
  | int | real | str | bool | ofLiteral | identifier | superObject | newObject | field | index | call
  | binary | negate | logicalNot | literalLabel | negatedLabel | param => trivial
  | array hn hne hes =>
    intro depth
    exact covers_array hn hne fun e he => open_whole (hes e he)
  | assign ht he =>
    intro depth
    exact covers_assign (open_chain ht) (open_whole he)
  | callStatement h he =>
    intro depth
    exact covers_call (open_chain h) he
  | ifStatement _ _ _ ihf iho ihl => exact covers_if ihf iho ihl
  | branch hc _ _ ih => exact ⟨_, _, rfl, open_whole hc, legibleBlock ih⟩
  | elseBranch _ ih => exact ⟨_, rfl, legibleBlock ih⟩
  | forLoop hn hf hl _ _ _ ih =>
    exact covers_for hn (open_whole hf) (open_whole hl) (legibleBlock ih)
  | whileLoop hc _ _ ih => exact covers_while (open_whole hc) (legibleBlock ih)
  | doLoop _ hc ih _ => exact covers_do (open_whole hc) (legibleBlock ih)
  | switch he _ _ _ ihc ihl => exact covers_switch (open_whole he) ihc ihl
  | caseClause hl _ _ ih => exact ⟨_, _, rfl, open_caseLabel hl, legibleBlock ih⟩
  | defaultClause _ ih => exact ⟨_, rfl, legibleBlock ih⟩
  | print hes =>
    intro depth
    exact covers_print fun e he => open_whole (hes e he)
  | jump hk =>
    intro depth
    exact covers_jump hk
  | returnNothing =>
    intro depth
    exact covers_returnNothing
  | returnValue he =>
    intro depth
    exact covers_returnValue (open_whole he)
  | ofSubroutine _ ih => exact ih.covers
  | sort hn hp _ _ ih => exact legible_subroutine hn hp (legibleBlock ih)
  | classDecl hn hp _ ih => exact covers_class hn hp ih
  | fieldMember hn => exact legible_fieldMember hn
  | method hs ih => exact legible_method (not_isIdentifier_of_subroutine hs) ih

/-! ## Programs -/

section Programs

variable {lines : List String} {program : Node}

theorem Phrase.ne_nil_of_chain {isFree : Bool} {ts us : List Token} {ns : List Node}
    (h : Phrase.Derives (.chain isFree) ts ns us) : ts ≠ [] := by
  obtain ⟨token, rest, rfl, -⟩ := h.opens rfl
  simp

/-- A statement has a token. -/
theorem Construct.ne_nil_of_statement {ordered : Bool} {ts us : List Token} {ns : List Node}
    (h : Construct.Derives ordered .statement ts ns us) : ts ≠ [] := by
  rintro rfl
  cases h with
  | array hg => cases hg
  | assign hg ht =>
    cases hg
    exact Phrase.ne_nil_of_chain ht rfl
  | call hd => exact Phrase.ne_nil_of_chain hd rfl
  | ofSubroutine hd => cases hd

/-- Only a well-formed tree is read from lines. -/
theorem wellFormed_of_parse (h : Program.parse lines = .ok (some program)) : program.WellFormed := by
  obtain ⟨tokens, hscan, hne, hderives, hp⟩ := derives_of_parse h
  have hplace : program.InPlace := (placed_iff_inPlace hderives).1 hp
  obtain ⟨ns, rfl, hd⟩ := hderives
  have hc : AllClassified tokens := TokenStream.classified_of_scan hscan
  refine ⟨⟨ns, rfl, ?_, ?_⟩, hplace⟩
  · rintro rfl
    exact hne (nil_of_statements hd)
  · exact Construct.shows_of_derives hd hc

/-- A well-formed tree is read from its canonical lines. -/
theorem parse_render (h : program.WellFormed) : Program.parse program.render = .ok (some program) := by
  obtain ⟨⟨ns, rfl, hns, hformed⟩, hplace⟩ := h
  have hblock : LegibleBlock ns := legibleBlock fun n hn => legible_of_role (hformed n hn)
  obtain ⟨ts, hscan, hd⟩ := hblock 0 0
  have hderives := hd [] fun next hnext => by cases hnext
  rw [List.append_nil] at hderives
  have hne : ts ≠ [] := by
    cases hderives with
    | noStatement => exact absurd rfl hns
    | oneMore hs _ => exact Construct.ne_nil_of_statement hs
  have hprogram : DerivesProgram true ts (.tree .program ns) := ⟨ns, rfl, hderives⟩
  refine parse_of_derives ?_ hne hprogram ((placed_iff_inPlace hprogram).2 hplace)
  rw [Node.render_program]
  exact hscan

end Programs

/-- A program that is read from lines is read again from its canonical lines. -/
theorem what_is_read_is_read_again_from_its_canonical_text {lines : List String} {program : Node}
    (h : Program.parse lines = .ok (some program)) :
    Program.parse program.render = .ok (some program) :=
  parse_render (wellFormed_of_parse h)

/-- A loop of another layout, with a comment and with parentheses to spare. -/
theorem a_loop_is_read_again_from_its_canonical_text :
    let loop : Node := .tree .whileLoop [
      .tree .logicalNot [
        .tree (.cmpOp .equal) [.tree (.identifier "a") [], .tree (.identifier "b") []]],
      .tree .block [
        .tree (.assign false) [
          .tree .index [.tree (.identifier "a") [], .tree .args [.tree (.int 1) []]],
          .tree (.mulOp .times) [
            .tree (.addOp .plus) [
              .tree (.field "x") [.tree (.identifier "a") []],
              .tree .negate [.tree (.int 2) []]],
            .tree (.int 3) []]],
        .tree .print [.tree (.str "it") [], .tree (.identifier "a") []]]]
    Program.parse ["while NOT a == (b)", "a[1] = (a.x + -2) * 3 // slow",
        "print('it', a) endwhile"] = .ok (some (.tree .program [loop])) ∧
      Program.parse (Node.tree .program [loop]).render = .ok (some (.tree .program [loop])) := by
  intro loop
  have hread : Program.parse ["while NOT a == (b)", "a[1] = (a.x + -2) * 3 // slow",
      "print('it', a) endwhile"] = .ok (some (.tree .program [loop])) := rfl
  exact ⟨hread, what_is_read_is_read_again_from_its_canonical_text hread⟩

/-- The trees that can be read as programs are the well-formed ones. -/
theorem a_tree_is_read_from_some_text_exactly_when_it_is_well_formed (program : Node) :
    (∃ lines, Program.parse lines = .ok (some program)) ↔ program.WellFormed := by
  constructor
  · rintro ⟨lines, h⟩
    exact wellFormed_of_parse h
  · intro h
    exact ⟨program.render, parse_render h⟩

end Pseudocode
