-- The canonical lines of a statement are read as the statement, whatever comes
-- below them. What comes below has to be on a line of its own only for a
-- `return` without a value.
import Pseudocode.Proofs.Canonical.Expression

namespace Pseudocode

open Construct (Marked Visibility Parent CaseLabel Passing SomeParameters Parameters blockOf)
open Node (listed parameter statements sourceLine)
open Relation (Comp)

/-- A part of a program is in front. -/
abbrev MakesPart (part : Construct) (ns : List Node) : TokenRel :=
  fun ts us => part.Derives true ts ns us

/-- The lines of the statements are read as the statements. -/
def LegibleBlock (ns : List Node) : Prop :=
  ∀ depth, Covers (MakesPart .statements ns) (statements depth ns)

/-! ## Lines with one statement -/

section Lines

variable {isGlobal : Bool} {e target : Node} {es : List Node} {name : String} {depth : Nat}

theorem closed_globalMark (isGlobal : Bool) :
    Closed (Marked .kwGlobal isGlobal) (Node.globalMark isGlobal) := by
  cases isGlobal with
  | false =>
    refine ReadsAs.mono closed_empty ?_
    rintro ts us rfl
    exact .absent
  | true =>
    have hword : TokenKind.kwGlobal ∈ keywords := by decide
    refine ReadsAs.mono (open_keyword hword).blank ?_
    rintro ts us ⟨token, rfl, hk⟩
    exact .present hk

theorem covers_array (hn : IsIdentifier name) (hne : es ≠ [])
    (h : ∀ n ∈ es, Open (MakesWhole n) n.expression) :
    Covers (MakesPart .statement [.array isGlobal name es []])
      ((Node.array isGlobal name es []).statement depth "") := by
  have hword : TokenKind.kwArray ∈ keywords := by decide
  have hopen : TokenKind.openBracket ∈ marks := by decide
  have hclose : TokenKind.closeBracket ∈ marks := by decide
  obtain ⟨first, others, rfl⟩ := List.exists_cons_of_ne_nil hne
  have hname := ((closed_globalMark isGlobal).append (open_keyword hword)).blank.append (open_name hn)
  have hall := ((hname.mark hopen).append (open_expressions h)).mark hclose
  apply (hall.toOpen.covers depth).mono
  rintro ts us ⟨_, ⟨_, ⟨_, ⟨_, ⟨_, hg, keyword, rfl, hk⟩, token, rfl, hi, rfl⟩, opening, rfl, ho⟩, hes⟩,
    closing, rfl, hc⟩
  exact .array hg hk hi ho hes hc

theorem covers_assign (ht : Open (Makes (.chain false) [target]) target.expression)
    (he : Open (MakesWhole e) e.expression) :
    Covers (MakesPart .statement [.tree (.assign isGlobal) [target, e]])
      ((Node.tree (.assign isGlobal) [target, e]).statement depth "") := by
  have hsign : TokenKind.assign ∈ signs := by decide
  have htarget := ((closed_globalMark isGlobal).append ht).blank
  have hall := (htarget.sign (spells_sign hsign)).append he
  apply (hall.covers depth).mono
  rintro ts us ⟨_, ⟨_, ⟨_, hg, ht⟩, equals, rfl, hk⟩, he⟩
  exact .assign hg ht hk he

theorem statement_of_isCall (h : e.isCall = true) (depth : Nat) (mark : String) :
    e.statement depth mark = [sourceLine depth e.expression] := by
  unfold Node.isCall at h
  split at h
  · rfl
  · rfl
  · cases h

theorem covers_call (h : Open (Makes (.chain false) [e]) e.expression) (he : e.isCall = true) :
    Covers (MakesPart .statement [e]) (e.statement depth "") := by
  rw [statement_of_isCall he]
  exact (h.covers depth).mono fun ts us hd => .call hd he

theorem covers_print (h : ∀ n ∈ es, Open (MakesWhole n) n.expression) :
    Covers (MakesPart .statement [.tree .print es]) ((Node.tree .print es).statement depth "") := by
  have hword : TokenKind.kwPrint ∈ keywords := by decide
  have hopen : TokenKind.openParen ∈ marks := by decide
  have hclose : TokenKind.closeParen ∈ marks := by decide
  have hall := (((open_keyword hword).mark hopen).append (open_arguments h)).mark hclose
  apply (hall.toOpen.covers depth).mono
  rintro ts us ⟨_, ⟨_, ⟨_, ⟨keyword, rfl, hk⟩, opening, rfl, ho⟩, hes⟩, closing, rfl, hc⟩
  exact .print hk ho hes hc

theorem covers_jump {kind : TokenKind} (h : kind = .kwBreak ∨ kind = .kwContinue) :
    Covers (MakesPart .statement [.tree (.jump kind) []])
      ((Node.tree (.jump kind) []).statement depth "") := by
  have hword : kind ∈ keywords := by rcases h with rfl | rfl <;> decide
  apply ((open_keyword hword).covers depth).mono
  rintro ts us ⟨token, rfl, rfl⟩
  exact .jump h

/-- A `return` has no value when what comes below it is on other lines. -/
theorem covers_returnNothing :
    Covers (MakesPart .statement [.tree .returnStatement []])
      ((Node.tree .returnStatement []).statement depth "") := by
  have hword : TokenKind.kwReturn ∈ keywords := by decide
  intro line
  refine ⟨_, scanAfter_sourceLine (spells_keyword hword breaks_nil), ?_⟩
  intro us hus
  refine .returnNothing rfl ?_
  intro next hnext _ hline
  have hbelow : line + 1 < next.line := hus next hnext
  have hreturn : next.line = line + 1 := hline
  omega

/-- The tokens of a piece stand on one line. -/
theorem Open.onOneLine {r : TokenRel} {text : String} (h : Open r text) :
    Open (fun ts us => r ts us ∧ ∃ front line, ts = front ++ us ∧
      ∀ token ∈ front, token.line = line) text := by
  obtain ⟨lexemes, hspells, hr⟩ := h
  refine ⟨lexemes, hspells, fun line us => ⟨hr line us, _, line, rfl, ?_⟩⟩
  intro token ht
  obtain ⟨lexeme, -, rfl⟩ := List.mem_map.1 ht
  rfl

theorem covers_returnValue (h : Open (MakesWhole e) e.expression) :
    Covers (MakesPart .statement [.tree .returnStatement [e]])
      ((Node.tree .returnStatement [e]).statement depth "") := by
  have hword : TokenKind.kwReturn ∈ keywords := by decide
  have hall := (open_keyword hword).blank.append h
  apply (hall.onOneLine.covers depth).mono
  rintro ts us ⟨⟨_, ⟨keyword, rfl, hk⟩, he⟩, front, line, hfront, hline⟩
  obtain ⟨value, rfl, hvalue⟩ := he.front
  obtain ⟨next, rest, hnext, -⟩ := Phrase.Derives.opens (hvalue []) rfl
  rw [List.append_nil] at hnext
  subst hnext
  have hsame : keyword :: next :: rest = front := List.append_cancel_right (by simpa using hfront)
  subst hsame
  have hkeyword := hline keyword (by simp)
  have hvalueLine := hline next (by simp)
  exact .returnValue hk (hvalueLine.trans hkeyword.symm) he

end Lines

/-! ## Blocks and loops -/

section Loops

variable {e first last : Node} {ns : List Node} {name : String}

theorem legibleBlock (h : ∀ n ∈ ns, ∀ depth, Covers (MakesPart .statement [n]) (n.statement depth "")) :
    LegibleBlock ns := by
  intro depth
  induction ns with
  | nil =>
    rw [Node.statements_nil]
    apply covers_nil.mono
    rintro ts us rfl
    exact .noStatement
  | cons n ns ih =>
    have hothers := ih fun m hm => h m (List.mem_cons_of_mem n hm)
    rw [Node.statements_cons]
    apply ((h n (by simp) depth).append hothers).mono
    rintro ts us ⟨_, hn, hns⟩
    exact .oneMore hn hns

/-- A block between its first and its last line. -/
theorem LegibleBlock.between {r s : TokenRel} {opening closing : String} (h : LegibleBlock ns)
    (ho : Open r opening) (hc : Open s closing) (depth : Nat) :
    Covers (Comp (Comp r (MakesPart .statements ns)) s)
      ([sourceLine depth opening] ++ statements (depth + 1) ns ++ [sourceLine depth closing]) :=
  ((ho.covers depth).append (h (depth + 1))).append (hc.covers depth)

theorem covers_while (he : Open (MakesWhole e) e.expression) (h : LegibleBlock ns) (depth : Nat) :
    Covers (MakesPart .statement [.tree .whileLoop [e, blockOf ns]])
      ((Node.tree .whileLoop [e, blockOf ns]).statement depth "") := by
  have hword : TokenKind.kwWhile ∈ keywords := by decide
  have hend : TokenKind.kwEndWhile ∈ keywords := by decide
  have hhead := (open_keyword hword).blank.append he
  simp only [Node.statement, Node.bodyAt]
  apply (h.between hhead (open_keyword hend) depth).mono
  rintro ts us ⟨_, ⟨_, ⟨_, ⟨opening, rfl, ho⟩, he⟩, hns⟩, closing, rfl, hc⟩
  exact .whileLoop ho he hns hc

theorem covers_do (he : Open (MakesWhole e) e.expression) (h : LegibleBlock ns) (depth : Nat) :
    Covers (MakesPart .statement [.tree .doLoop [blockOf ns, e]])
      ((Node.tree .doLoop [blockOf ns, e]).statement depth "") := by
  have hword : TokenKind.kwDo ∈ keywords := by decide
  have hend : TokenKind.kwUntil ∈ keywords := by decide
  have hfoot := (open_keyword hend).blank.append he
  simp only [Node.statement, Node.bodyAt]
  apply (h.between (open_keyword hword) hfoot depth).mono
  rintro ts us ⟨_, ⟨_, ⟨opening, rfl, ho⟩, hns⟩, _, ⟨untilWord, rfl, hc⟩, he⟩
  exact .doLoop ho hns hc he

theorem covers_for (hn : IsIdentifier name) (hfirst : Open (MakesWhole first) first.expression)
    (hlast : Open (MakesWhole last) last.expression) (h : LegibleBlock ns) (depth : Nat) :
    Covers (MakesPart .statement
        [.tree .forLoop [.tree (.identifier name) [], first, last, blockOf ns]])
      ((Node.tree .forLoop [.tree (.identifier name) [], first, last, blockOf ns]).statement
        depth "") := by
  have hword : TokenKind.kwFor ∈ keywords := by decide
  have hto : TokenKind.kwTo ∈ keywords := by decide
  have hnext : TokenKind.kwNext ∈ keywords := by decide
  have hsign : TokenKind.assign ∈ signs := by decide
  have hcounter := ((open_keyword hword).blank.append (open_name hn)).blank.sign (spells_sign hsign)
  have hhead := ((hcounter.append hfirst).blank.append (open_keyword hto)).blank.append hlast
  have hfoot := (open_keyword hnext).blank.append (open_name hn)
  simp only [Node.statement, Node.bodyAt]
  apply (h.between hhead hfoot depth).mono
  rintro ts us ⟨_, ⟨_, ⟨_, ⟨_, ⟨_, ⟨_, ⟨_, ⟨opening, rfl, ho⟩, counter, rfl, hi, rfl⟩, equals, rfl, heq⟩,
    hfirst⟩, toWord, rfl, ht⟩, hlast⟩, hns⟩, _, ⟨nextWord, rfl, hk⟩, again, rfl, ha, htext⟩
  exact .forLoop ho hi heq hfirst ht hlast hns hk ha htext

end Loops

/-! ## Branches -/

/-- A condition and its block, each of which is read as itself. -/
def LegibleBranch (n : Node) : Prop :=
  ∃ c ns, n = .tree .branch [c, blockOf ns] ∧ Open (MakesWhole c) c.expression ∧ LegibleBlock ns

/-- A block on its own below a keyword. -/
def LegibleElse (label : Label) (n : Node) : Prop :=
  ∃ ns, n = .tree label [blockOf ns] ∧ LegibleBlock ns

section Branches

variable {c first : Node} {ns bs others : List Node} {last : Option Node} {depth : Nat}

/-- A branch with its keyword in front. -/
theorem covers_branch {opener : TokenKind} (hword : opener ∈ keywords)
    (hc : Open (MakesWhole c) c.expression) (h : LegibleBlock ns) (depth : Nat) :
    Covers (Comp (Comp (Comp (Word opener) (MakesWhole c)) (Word .kwThen)) (MakesPart .statements ns))
      ([sourceLine depth (opener.spelling ++ " " ++ c.expression ++ " " ++
        TokenKind.kwThen.spelling)] ++ statements (depth + 1) ns) := by
  have hthen : TokenKind.kwThen ∈ keywords := by decide
  have hhead := ((open_keyword hword).blank.append hc).blank.append (open_keyword hthen)
  exact (hhead.covers depth).append (h (depth + 1))

/-- The branches after the first one, up to the end of the `if`. -/
theorem covers_otherBranches (hothers : ∀ b ∈ others, LegibleBranch b)
    (hlast : ∀ b ∈ last, LegibleElse .elseBranch b) (depth : Nat) :
    Covers (MakesPart .otherBranches (others ++ last.toList))
      (Node.branches depth .kwElseIf (others ++ last.toList) ++
        [sourceLine depth TokenKind.kwEndIf.spelling]) := by
  have hend : TokenKind.kwEndIf ∈ keywords := by decide
  induction others with
  | nil =>
    cases last with
    | none =>
      apply ((open_keyword hend).covers depth).mono
      rintro ts us ⟨closing, rfl, hk⟩
      exact .endIf hk
    | some b =>
      obtain ⟨ns, rfl, h⟩ := hlast b rfl
      have hword : TokenKind.kwElse ∈ keywords := by decide
      rw [Option.toList_some, List.nil_append, Node.branches_else]
      apply (h.between (open_keyword hword) (open_keyword hend) depth).mono
      rintro ts us ⟨_, ⟨_, ⟨keyword, rfl, hk⟩, hns⟩, closing, rfl, hc⟩
      exact .elseBranch hk hns hc
  | cons b others ih =>
    obtain ⟨c, ns, rfl, hc, h⟩ := hothers b (by simp)
    have hword : TokenKind.kwElseIf ∈ keywords := by decide
    have hrest := ih fun b hb => hothers b (List.mem_cons_of_mem _ hb)
    rw [List.cons_append, Node.branches_branch, List.append_assoc]
    apply ((covers_branch hword hc h depth).append hrest).mono
    rintro ts us ⟨_, ⟨_, ⟨_, ⟨_, ⟨keyword, rfl, hk⟩, hc⟩, thenWord, rfl, ht⟩, hns⟩, hbs⟩
    exact .elseIf hk hc ht hns hbs

theorem covers_if (hfirst : LegibleBranch first) (hothers : ∀ b ∈ others, LegibleBranch b)
    (hlast : ∀ b ∈ last, LegibleElse .elseBranch b) (depth : Nat) :
    Covers (MakesPart .statement [.tree .ifStatement (first :: others ++ last.toList)])
      ((Node.tree .ifStatement (first :: others ++ last.toList)).statement depth "") := by
  obtain ⟨c, ns, rfl, hc, h⟩ := hfirst
  have hword : TokenKind.kwIf ∈ keywords := by decide
  have hrest := covers_otherBranches hothers hlast depth
  simp only [List.cons_append, Node.statement]
  rw [Node.branches_branch, List.append_assoc]
  apply ((covers_branch hword hc h depth).append hrest).mono
  rintro ts us ⟨_, ⟨_, ⟨_, ⟨_, ⟨opening, rfl, hk⟩, hc⟩, thenWord, rfl, ht⟩, hns⟩, hbs⟩
  exact .ifStatement hk hc ht hns hbs

end Branches

/-! ## Clauses -/

/-- A case label and its block, each of which is read as itself. -/
def LegibleCase (n : Node) : Prop :=
  ∃ label ns, n = .tree .caseClause [label, blockOf ns] ∧
    Open (fun ts us => CaseLabel ts label us) label.expression ∧ LegibleBlock ns

section Clauses

variable {e label : Node} {cs : List Node} {last : Option Node}

/-- A literal, or a minus right before the literal of a number. -/
theorem open_caseLabel (h : label.Formed .caseLabel) :
    Open (fun ts us => CaseLabel ts label us) label.expression := by
  cases h with
  | literalLabel hl =>
    obtain ⟨value, rfl, -, hv⟩ := open_literal hl
    apply hv.mono
    rintro ts us ⟨token, rfl, hk⟩
    exact .literal hk
  | negatedLabel hl hn =>
    obtain ⟨value, rfl, he, hv⟩ := open_literal hl
    have hminus : Closed (Word .minus) TokenKind.minus.spelling := closed_mark (by decide)
    have htext : (Node.tree .negate [.tree value []]).expression =
        TokenKind.minus.spelling ++ (Node.tree value []).expression := by
      simp only [Node.expression, Node.operandAt, Node.isCompound, he, Node.parenthesized]
      rfl
    rw [htext]
    apply (hminus.append hv).mono
    rintro ts us ⟨_, ⟨minus, rfl, hm⟩, token, rfl, hk⟩
    exact .negated hm (kind_of_isNumber hk hn) hk

/-- The clauses of a `switch`, up to its end. -/
theorem covers_clauses (hcases : ∀ c ∈ cs, LegibleCase c)
    (hlast : ∀ c ∈ last, LegibleElse .defaultClause c) (depth : Nat) :
    Covers (MakesPart (.clauses false) (cs ++ last.toList))
      (Node.clauses (depth + 1) (cs ++ last.toList) ++
        [sourceLine depth TokenKind.kwEndSwitch.spelling]) := by
  have hend : TokenKind.kwEndSwitch ∈ keywords := by decide
  have hcolon : TokenKind.colon ∈ marks := by decide
  induction cs with
  | nil =>
    cases last with
    | none =>
      apply ((open_keyword hend).covers depth).mono
      rintro ts us ⟨closing, rfl, hk⟩
      exact .endSwitch hk
    | some c =>
      obtain ⟨ns, rfl, h⟩ := hlast c rfl
      have hword : TokenKind.kwDefault ∈ keywords := by decide
      have hhead := ((open_keyword hword).mark hcolon).toOpen
      rw [Option.toList_some, List.nil_append, Node.clauses_default]
      apply (((hhead.covers _).append (h _)).append ((open_keyword hend).covers depth)).mono
      rintro ts us ⟨_, ⟨_, ⟨_, ⟨keyword, rfl, hk⟩, colon, rfl, hc⟩, hns⟩, closing, rfl, he⟩
      exact .defaultClause hk (fun hd => by cases hd) hc hns (.endSwitch he)
  | cons c cs ih =>
    obtain ⟨label, ns, rfl, hl, h⟩ := hcases c (by simp)
    have hword : TokenKind.kwCase ∈ keywords := by decide
    have hrest := ih fun c hc => hcases c (List.mem_cons_of_mem _ hc)
    have hhead := ((open_keyword hword).blank.append hl).mark hcolon
    rw [List.cons_append, Node.clauses_case, List.append_assoc]
    apply (((hhead.toOpen.covers _).append (h _)).append hrest).mono
    rintro ts us ⟨_, ⟨_, ⟨_, ⟨_, ⟨keyword, rfl, hk⟩, hl⟩, colon, rfl, hc⟩, hns⟩, hcs⟩
    exact .caseClause hk (fun hd => by cases hd) hl hc hns hcs

theorem covers_switch (he : Open (MakesWhole e) e.expression) (hcases : ∀ c ∈ cs, LegibleCase c)
    (hlast : ∀ c ∈ last, LegibleElse .defaultClause c) (depth : Nat) :
    Covers (MakesPart .statement [.tree .switch (e :: cs ++ last.toList)])
      ((Node.tree .switch (e :: cs ++ last.toList)).statement depth "") := by
  have hword : TokenKind.kwSwitch ∈ keywords := by decide
  have hcolon : TokenKind.colon ∈ marks := by decide
  have hhead := ((open_keyword hword).blank.append he).mark hcolon
  simp only [List.cons_append, Node.statement, Node.clausesAfter, Node.expressionAt,
    List.getElem?_cons_zero]
  rw [List.append_assoc]
  apply ((hhead.toOpen.covers depth).append (covers_clauses hcases hlast depth)).mono
  rintro ts us ⟨_, ⟨_, ⟨_, ⟨opening, rfl, ho⟩, he⟩, colon, rfl, hc⟩, hcs⟩
  exact .switch ho he hc hcs

end Clauses

end Pseudocode
