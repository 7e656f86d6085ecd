-- What the goals of a program mean: whatever they read off the front of some
-- tokens is a construct of the grammar, placed where it may stand.
import Pseudocode.Proofs.Expression.Meaning
import Pseudocode.Proofs.Statement.Grammar

namespace Pseudocode

open Construct (Derives Marked Visibility Parent CaseLabel Passing SomeParameters Parameters Whole
  blockOf)
open Node (placedAll)
open Reading

/-! ## Subroutines of the program are those of the grammar -/

theorem subroutineLabel_eq (sort : Subroutine) (name : String) :
    Goal.subroutineLabel sort name = sort.label name := by
  cases sort <;> rfl

theorem closing_eq (sort : Subroutine) : sort.closing = sort.ending := by
  cases sort <;> rfl

/-! ## Expressions may stand everywhere -/

section Placed

variable {ctx : Context}

@[simp] theorem inLoopBody_inBlock : ctx.inLoopBody.inBlock = ctx.inLoopBody := rfl

@[simp] theorem inClause_inBlock : ctx.inClause.inBlock = ctx.inClause := rfl

@[simp] theorem inBody_inBlock (sort : Subroutine) :
    (ctx.inBody sort).inBlock = ctx.inBody sort := rfl

@[simp] theorem placed_tree (label : Label) (children : List Node) :
    (Node.tree label children).placed ctx =
      ((label.misplacement ctx children).isNone && placedAll (label.inside ctx) children) := rfl

attribute [simp] Label.misplacement Label.inside

@[simp] theorem placedAll_cons (node : Node) (nodes : List Node) :
    placedAll ctx (node :: nodes) = (node.placed ctx && placedAll ctx nodes) := rfl

@[simp] theorem placedAll_nil : placedAll ctx [] = true := rfl

theorem misplacement_literal {token : Token} {label : Label} (h : Phrase.Literal token label)
    (children : List Node) : label.misplacement ctx children = none := by
  cases h <;> rfl

theorem placed_literal {token : Token} {label : Label} (h : Phrase.Literal token label) :
    (Node.tree label []).placed ctx = true := by
  rw [placed_tree, misplacement_literal h]
  rfl

theorem inside_operator (ctx : Context) {kind : TokenKind} {level : Nat} {label : Label}
    (h : Phrase.Operates kind level label) :
    label.inside ctx = ctx ∧ ∀ children, label.misplacement ctx children = none := by
  cases h <;> exact ⟨rfl, fun _ => rfl⟩

theorem placedAll_phrase {phrase : Phrase} {ts us : List Token} {ns : List Node}
    (h : phrase.Derives ts ns us) : placedAll ctx ns = true := by
  induction h with
  | ofOperation _ ih => exact ih
  | logicalNot _ _ ih => simpa using ih
  | ofUnary _ ih => exact ih
  | binary ho _ _ _ ihl ihr =>
    obtain ⟨hi, hm⟩ := inside_operator ctx ho
    rw [placedAll_cons, placed_tree, hm, hi]
    simp_all
  | negate _ _ ih => simpa using ih
  | ofChain _ ih => exact ih
  | parenthesized _ _ _ ih => exact ih
  | literal hl => simpa using placed_literal hl
  | identifier => rfl
  | superObject => rfl
  | newObject _ _ _ _ _ ih => simpa using ih
  | field _ _ _ ih => simpa using ih
  | index _ _ _ _ ihl ihe => simp_all
  | call _ _ _ _ ihl ihe => simp_all
  | noArguments => rfl
  | ofExpressions _ ih => exact ih
  | first _ _ ihe ih => simp_all
  | noMore => rfl
  | more _ _ _ ihe ih => simp_all

theorem placed_phrase {phrase : Phrase} {ts us : List Token} {e : Node}
    (h : phrase.Derives ts [e] us) : e.placed ctx = true := by
  have h' : placedAll ctx [e] = true := placedAll_phrase h
  simpa using h'

theorem placed_caseLabel {ts us : List Token} {e : Node} (h : CaseLabel ts e us) :
    e.placed ctx = true := by
  cases h with
  | literal hl => exact placed_literal hl
  | negated _ _ hl =>
    rw [placed_tree, placedAll_cons, placed_literal hl]
    rfl

theorem placedAll_someParameters {ts us : List Token} {ns : List Node}
    (h : SomeParameters ts ns us) : placedAll ctx ns = true := by
  induction h with
  | last => rfl
  | more _ _ _ _ ih => exact ih

theorem placedAll_parameters {ts us : List Token} {ns : List Node} (h : Parameters ts ns us) :
    placedAll ctx ns = true := by
  cases h with
  | none => rfl
  | some h => exact placedAll_someParameters h

theorem clauseFault_eq_none {afterDefault : Bool} :
    ctx.clauseFault afterDefault = none ↔ (afterDefault = true → ctx.enforced = false) := by
  unfold Context.clauseFault
  cases afterDefault <;> cases ctx.enforced <;> simp

end Placed

/-! ## What the goals of a program mean -/

/-- What each goal of a program adds to the spine, by the grammar and the rules
of placement. A goal that goes on with something says so for whatever it began
with. -/
def statementMeaning : Meaning
  | .program ctx, spine, ts, spine', us =>
    ∃ ns, Derives ctx.enforced .statements ts ns us ∧ placedAll ctx ns = true ∧
      (∀ token ∈ us.head?, token.kind = .endOfInput) ∧ spine' = spine.addAll ns
  | .block ctx stops, spine, ts, spine', us =>
    ∃ ns, Derives ctx.enforced .statements ts ns us ∧ placedAll ctx ns = true ∧
      (∀ token ∈ us.head?, token.kind ∈ stops) ∧ spine' = spine.addAll ns
  | .chain isCall isGlobal, spine, ts, spine', us =>
    ∀ outer ts₀ ts₁ l, spine = Spine.addAll outer [l] → Marked .kwGlobal isGlobal ts₀ ts₁ →
      Phrase.Derives (.chain false) ts₁ [l] ts → l.isCall = isCall →
      ∃ n, (∀ ordered, Derives ordered .statement ts₀ [n] us) ∧
        (∀ ctx, n.placed ctx = true) ∧ spine' = outer.addAll [n]
  | .afterGlobal, spine, ts, spine', us =>
    ∀ keyword, keyword.kind = .kwGlobal →
      ∃ n, (∀ ordered, Derives ordered .statement (keyword :: ts) [n] us) ∧
        (∀ ctx, n.placed ctx = true) ∧ spine' = spine.addAll [n]
  | .arrayName isGlobal, spine, ts, spine', us =>
    ∃ name opening closing left es, ts = name :: opening :: left ∧ name.kind = .identifier ∧
      opening.kind = .openBracket ∧ Phrase.Derives .expressions left es (closing :: us) ∧
      closing.kind = .closeBracket ∧ spine' = spine.addAll [.array isGlobal name.text es []]
  | .otherBranches ctx, spine, ts, spine', us =>
    ∃ bs, Derives ctx.enforced .otherBranches ts bs us ∧ placedAll ctx bs = true ∧
      spine' = spine.addAll bs
  | .counter ctx, spine, ts, spine', us =>
    ∀ keyword, keyword.kind = .kwFor →
      ∃ parts, Derives ctx.enforced .statement (keyword :: ts) [.tree .forLoop parts] us ∧
        (Node.tree .forLoop parts).placed ctx = true ∧ spine' = spine.addAll parts
  | .counterAgain name, spine, ts, spine', us =>
    ∃ again, ts = again :: us ∧ again.kind = .identifier ∧ again.text = name ∧ spine' = spine
  | .clauses ctx afterDefault, spine, ts, spine', us =>
    ∃ cs, Derives ctx.enforced (.clauses afterDefault) ts cs us ∧ placedAll ctx cs = true ∧
      spine' = spine.addAll cs
  | .caseLabel, spine, ts, spine', us =>
    ∃ label, CaseLabel ts label us ∧ spine' = spine.addAll [label]
  | .negatedLabel, spine, ts, spine', us =>
    ∃ token label, ts = token :: us ∧ (token.kind = .intLiteral ∨ token.kind = .realLiteral) ∧
      Phrase.Literal token label ∧ spine' = spine.addAll [.tree label []]
  | .returnValue ctx line, spine, ts, spine', us =>
    ∀ keyword, keyword.kind = .kwReturn → keyword.line = line → ctx.returnFault = none →
      ∃ n, (∀ ordered, Derives ordered .statement (keyword :: ts) [n] us) ∧ n.placed ctx = true ∧
        spine' = spine.addAll [n]
  | .subroutineName ctx sort, spine, ts, spine', us =>
    ∀ keyword, keyword.kind = sort.opening → ctx.subroutineFault = none →
      ∃ n, Derives ctx.enforced .subroutine (keyword :: ts) [n] us ∧ n.placed ctx = true ∧
        spine' = spine.addAll [n]
  | .parameters, spine, ts, spine', us =>
    ∃ ns, Parameters ts ns us ∧ spine' = spine.addAll ns
  | .parameter, spine, ts, spine', us =>
    ∃ ns, SomeParameters ts ns us ∧ spine' = spine.addAll ns
  | .moreParameters, spine, ts, spine', us =>
    (us = ts ∧ spine' = spine) ∨ ∃ comma left ns, ts = comma :: left ∧ comma.kind = .comma ∧
      SomeParameters left ns us ∧ spine' = spine.addAll ns
  | .passing name, spine, ts, spine', us =>
    ∃ byRef, Passing byRef ts us ∧ spine' = spine.addAll [.tree (.param byRef name) []]
  | .passingMode name, spine, ts, spine', us =>
    ∀ colon, colon.kind = .colon →
      ∃ byRef, Passing byRef (colon :: ts) us ∧ spine' = spine.addAll [.tree (.param byRef name) []]
  | .classDeclName ctx, spine, ts, spine', us =>
    ∀ keyword, keyword.kind = .kwClass → ctx.classFault = none →
      ∃ n, Derives ctx.enforced .statement (keyword :: ts) [n] us ∧ n.placed ctx = true ∧
        spine' = spine.addAll [n]
  | .inheritance name, spine, ts, spine', us =>
    ∃ parent, Parent parent ts us ∧ spine' = spine.start (.tree (.classDecl name parent))
  | .parentName name, spine, ts, spine', us =>
    ∃ parent, ts = parent :: us ∧ parent.kind = .identifier ∧
      spine' = spine.start (.tree (.classDecl name (some parent.text)))
  | .members ctx, spine, ts, spine', us =>
    ∃ ms, Derives ctx.enforced .members ts ms us ∧ placedAll ctx ms = true ∧
      spine' = spine.addAll ms
  | .member ctx isPublic, spine, ts, spine', us =>
    ∃ n, (∀ ts₀ vs ms, Visibility isPublic ts₀ ts → Derives ctx.enforced .members us ms vs →
        Derives ctx.enforced .members ts₀ (.tree (.classMember isPublic) [n] :: ms) vs) ∧
      n.placed ctx = true ∧ spine' = spine.addAll [.tree (.classMember isPublic) [n]]
  | goal, spine, ts, spine', us => expressionMeaning goal spine ts spine' us

theorem expressionMeaning_of_statementMeaning (goal : Goal) (spine : Spine) (ts : List Token)
    (spine' : Spine) (us : List Token) (h : statementMeaning goal spine ts spine' us) :
    expressionMeaning goal spine ts spine' us := by
  cases goal <;> first | exact h | trivial

end Pseudocode
