-- What a reading awaits can always be brought to an end. For every goal there
-- are a few lexemes that meet it; an agenda is live where each of its goals is
-- met by its lexemes in front of those of the goals behind it.
import Pseudocode.Proofs.Diagnosis.Located
import Pseudocode.Proofs.Token.Spelling

namespace Pseudocode

open Goal Reaction Reading
open Item (Willing refusal?)

/-! ## The lexemes of a goal -/

namespace Lexeme

/-- The lexeme is all that its text holds. -/
def Plain (lexeme : Lexeme) : Prop := (scan lexeme.text).toOption = some [lexeme]

@[simp] theorem kind_spelled (kind : TokenKind) : (spelled kind).kind = kind := rfl

/-- A name that stands for any name. -/
def name : Lexeme := ⟨.identifier, "x"⟩

/-- A literal that stands for any literal. -/
def zero : Lexeme := ⟨.intLiteral, "0"⟩

theorem plain_iff {lexeme : Lexeme} : Plain lexeme ↔ scan lexeme.text = .ok [lexeme] := by
  unfold Plain
  cases scan lexeme.text <;> simp [Except.toOption]

theorem plain_name : Plain name := by
  unfold Plain
  decide +kernel

theorem plain_zero : Plain zero := by
  unfold Plain
  decide +kernel

theorem plain_spelled : ∀ kind ∈ TokenKind.spelled, Plain (spelled kind) := by
  unfold Plain
  decide +kernel

end Lexeme

open Lexeme (Plain spelled name zero)

/-- Whether a kind of token is neither an operator nor a suffix. -/
def TokenKind.endsExpression (kind : TokenKind) : Bool :=
  (suffix? kind).isNone && (BinaryOperator.of? kind).isNone

namespace Goal

/-- Lexemes that meet a goal. A goal that can be left has none. -/
@[simp] def closing : Goal → List Lexeme
  | token kind => [spelled kind]
  | expression _ | unary | indices | memberName | parentName _ | parameter | member _ _ => [name]
  | newClass => [name, spelled .openParen, spelled .closeParen]
  | chain _ _ => [spelled .assign, name]
  | afterGlobal => [name, spelled .assign, name]
  | arrayName _ => [name, spelled .openBracket, name, spelled .closeBracket]
  | otherBranches _ => [spelled .kwEndIf]
  | counter _ =>
    [name, spelled .assign, name, spelled .kwTo, name, spelled .kwNext, name]
  | counterAgain again => [⟨.identifier, again⟩]
  | clauses _ _ => [spelled .kwEndSwitch]
  | caseLabel | negatedLabel => [zero]
  | subroutineName _ sort =>
    [name, spelled .openParen, spelled .closeParen, spelled sort.closing]
  | passingMode _ => [spelled .kwByRef]
  | classDeclName _ => [name, spelled .kwEndClass]
  | members _ => [spelled .kwEndClass]
  | _ => []

/-- Whether a goal is met by its lexemes where a token of the kind `next` is
behind them, on a line after the line `bound`. -/
@[simp] def Admits (bound : Nat) (next : TokenKind) : Goal → Prop
  | program _ => next = .endOfInput
  | block _ stops => next ∈ stops ∧ next.endsExpression
  | token kind => kind ∈ TokenKind.spelled
  | expression _ | operators _ | unary | suffixes | chain _ _ | afterGlobal => next.endsExpression
  | arguments | parameters | parameter | moreParameters | passing _ => next = .closeParen
  | moreArguments => next = .closeParen ∨ next = .closeBracket
  | indices => next = .closeBracket
  | counterAgain again => Plain ⟨.identifier, again⟩
  | returnValue _ line => line ≤ bound ∧ next.endsExpression
  | inheritance _ => next = .kwEndClass
  | refusal _ => False
  | _ => True

end Goal

/-! ## Live agendas -/

namespace Item

/-- The lexemes that meet the goals of an agenda, one after the other. -/
@[simp] def closing : List Item → List Lexeme
  | [] => []
  | build _ :: items => closing items
  | await goal :: items => goal.closing ++ closing items

/-- The kind of the first of the lexemes, or of the end of the input. -/
@[simp] def follow : List Item → TokenKind
  | [] => .endOfInput
  | build _ :: items => follow items
  | await goal :: items =>
    match goal.closing with
    | [] => follow items
    | lexeme :: _ => lexeme.kind

/-- Every goal is met in front of the goals behind it. -/
@[simp] def Live (bound : Nat) : List Item → Prop
  | [] => True
  | build _ :: items => Live bound items
  | await goal :: items => goal.Admits bound (follow items) ∧ Live bound items

variable {bound : Nat} {step : Step} {goal : Goal} {items others : List Item} {label : Label}
  {kind : TokenKind}

theorem closing_append : closing (items ++ others) = closing items ++ closing others := by
  induction items with
  | nil => rfl
  | cons item items ih =>
    cases item with
    | build step => exact ih
    | await goal => rw [List.cons_append, closing, closing, ih, List.append_assoc]

theorem Live.of_suffix (hs : items <:+ others) (h : Live bound others) : Live bound items := by
  obtain ⟨front, rfl⟩ := hs
  induction front with
  | nil => exact h
  | cons item front ih =>
    cases item with
    | build step => exact ih h
    | await goal => exact ih h.2

theorem Live.willing (h : Live bound items) : Willing items := by
  induction items with
  | nil => rfl
  | cons item items ih =>
    cases item with
    | build step => exact ih h
    | await goal =>
      cases goal <;> first
        | exact ih h.2
        | exact h.1.elim

theorem live_builds {steps : List Step} :
    Live bound (steps.map build ++ items) ↔ Live bound items := by
  induction steps with
  | nil => exact Iff.rfl
  | cons step steps ih => exact ih

/-- What may follow on later lines than one may follow on later lines than another. -/
theorem Live.mono {later : Nat} (hb : bound ≤ later) (h : Live bound items) : Live later items := by
  induction items with
  | nil => trivial
  | cons item items ih =>
    cases item with
    | build step => exact ih h
    | await goal =>
      refine ⟨?_, ih h.2⟩
      have ha := h.1
      cases goal
      case returnValue ctx line => exact ⟨Nat.le_trans ha.1 hb, ha.2⟩
      all_goals exact ha

attribute [simp] start wrap leaf close token expression block arguments

end Item

open Item (Live follow)

/-! ## A token keeps an agenda live -/

namespace Reaction

/-- What is taken up, if no refusal is in it, is live in front of the rest. -/
def Keeps (bound : Nat) (rest : List Item) : Reaction → Prop
  | take items => Willing items → Live bound (items ++ rest)
  | _ => True

variable {bound : Nat} {reaction : Reaction} {rest after : List Item}

theorem keeps_take {items : List Item} (h : Live bound (items ++ rest)) :
    (take items).Keeps bound rest :=
  fun _ => h

theorem keeps_wrapped (before : List Step) (h : reaction.Keeps bound (after ++ rest)) :
    (reaction.wrapped (before.map .build) after).Keeps bound rest := by
  cases reaction with
  | leave steps => trivial
  | fail d => trivial
  | take items =>
    intro hw
    rw [Item.willing_append, Item.willing_append] at hw
    rw [List.append_assoc, List.append_assoc, Item.live_builds]
    exact h hw.1.2

theorem keeps_followed (h : reaction.Keeps bound (after ++ rest)) :
    (reaction.followed after).Keeps bound rest :=
  keeps_wrapped [] h

theorem keeps_guarded {fault : Option Misplacement} {line : Nat} (h : reaction.Keeps bound rest) :
    (guarded fault line reaction).Keeps bound rest := by
  cases fault with
  | none => exact h
  | some what => trivial

/-- Where the token is refused, what is taken up instead is a refusal. -/
theorem keeps_takeUnless {fault : Option Diagnostic} {items : List Item}
    (h : Live bound (items ++ rest)) : (takeUnless fault items).Keeps bound rest := by
  cases fault with
  | none => exact keeps_take h
  | some diagnostic =>
    intro hw
    cases hw

end Reaction

/-- What can begin, and what may come behind it, go together: a chain and a
statement end like an expression. -/
def Opening.Admits (bound : Nat) (next : TokenKind) : Opening → Prop
  | goal asked => asked.Admits bound next
  | chain _ | statement _ => next.endsExpression
  | _ => True

section Keeping

variable {bound : Nat} {rest : List Item} {token : Token} {opening : Opening} {items : List Item}
  {reaction : Reaction}

theorem live_suffix {kind : TokenKind} (hs : suffix? kind = some items) (h : Live bound rest) :
    Live bound (items ++ rest) := by
  cases kind <;> cases hs <;> simp [h] <;> decide

theorem live_branchItems {ctx : Context} (hn : follow rest = .kwEndIf) (h : Live bound rest) :
    Live bound (branchItems ctx ++ rest) := by
  simp [branchItems, hn, h]
  decide

theorem live_clauseItems {ctx : Context} {afterDefault : Bool} (h : Live bound rest) :
    Live bound (clauseItems ctx afterDefault ++ rest) := by
  simp [clauseItems, h]
  decide

/-- Behind arguments and indices there is a closing mark, which ends an expression. -/
theorem endsExpression_of_closing {next : TokenKind}
    (h : next = .closeParen ∨ next = .closeBracket) : next.endsExpression := by
  rcases h with rfl | rfl <;> rfl

theorem plain_of_identifier (hc : token.Classified) (hk : token.kind = .identifier) :
    Plain ⟨.identifier, token.text⟩ := by
  have hs := spells_identifier (isIdentifier_of_token hc hk) breaks_nil
  rw [Spells, List.append_nil] at hs
  rw [Lexeme.plain_iff, Lexeme.scan, hs]
  rfl

theorem live_counter {ctx : Context} (hc : token.Classified) (hk : token.kind = .identifier)
    (h : Live bound rest) :
    Live bound ([Item.leaf (.identifier token.text), Item.token .assign, Item.expression,
      Item.token .kwTo, Item.expression] ++ Item.block ctx.inLoopBody [.kwNext] ++
      [Item.token .kwNext, .await (.counterAgain token.text)] ++ rest) := by
  simp [h, plain_of_identifier hc hk]
  decide

theorem live_subroutineName {ctx : Context} {sort : Subroutine} {name : String}
    (h : Live bound rest) :
    Live bound ([Item.start (subroutineLabel sort name), Item.token .openParen,
      Item.start .params, .await .parameters, Item.close, Item.token .closeParen] ++
      Item.block (ctx.inBody sort) [sort.closing] ++
      [Item.token sort.closing, Item.close] ++ rest) := by
  cases sort <;> simp [h] <;> decide

/-- What is taken up is live where the opening was. -/
theorem Opening.Takes.live (h : opening.Takes token items)
    (ha : opening.Admits bound (follow rest)) (hl : Live bound rest) (hc : token.Classified) :
    Live bound (items ++ rest) := by
  cases h with
  | suffix hs | chainSuffix hs =>
    rw [List.append_assoc]
    exact live_suffix hs ⟨ha, hl⟩
  | elseIf =>
    rw [List.append_assoc]
    exact live_branchItems rfl ⟨trivial, hl⟩
  | ifStatement =>
    rw [List.append_assoc, List.append_assoc]
    exact live_branchItems rfl ⟨trivial, hl⟩
  | counter hk => exact live_counter hc hk hl
  | subroutineName => exact live_subroutineName hl
  | nextArgument => exact ⟨endsExpression_of_closing ha, ha, hl⟩
  | logicalNot | operator => exact ⟨ha, ha, hl⟩
  | minus | assign | globalStatement | nextParameter => exact ⟨ha, hl⟩
  | parameter => exact ⟨ha, ha, hl⟩
  | newObject | globalArray | array | forLoop | negatedLabel | passing | inheritance =>
    exact ⟨trivial, hl⟩
  | publicMember | privateMember => exact ⟨trivial, trivial, hl⟩
  | classDeclName => exact ⟨rfl, trivial, hl⟩
  | parenthesis | newClass | arrayName | elseBranch | whileLoop | doLoop | switch | print =>
    simp_all [Opening.Admits]
    decide
  | _ => exact hl

theorem keeps_of_reacts (h : opening.Reacts token reaction)
    (ha : opening.Admits bound (follow rest)) (hl : Live bound rest) (hc : token.Classified)
    (hline : token.line ≤ bound) : reaction.Keeps bound rest := by
  -- What follows a piece is live in front of the rest, and the piece admits it.
  induction h generalizing rest with
  | taken h => exact keeps_take (h.live ha hl hc)
  | left | lacking | unexpected | refusal => trivial
  | literal => exact keeps_take hl
  | outOfRange =>
    intro hw
    cases hw
  | caseClause | defaultClause =>
    refine keeps_guarded (keeps_take ?_)
    rw [List.append_assoc]
    first
      | exact ⟨trivial, live_clauseItems hl⟩
      | exact live_clauseItems hl
  | function | procedure | classDecl => exact keeps_guarded (keeps_take ⟨trivial, hl⟩)
  | returnStatement => exact keeps_takeUnless ⟨⟨hline, ha⟩, hl⟩
  | breakStatement | continueStatement => exact keeps_takeUnless hl
  | base _ _ ih | subroutineStatement _ ih => exact ih trivial hl
  | globalChain _ _ ih | chainStatement _ _ ih | parameters _ _ ih => exact ih ha hl
  | chain _ ih | primary _ _ ih => exact keeps_followed (ih trivial ⟨ha, hl⟩)
  | unary _ _ ih => exact keeps_followed (ih ha ⟨ha, hl⟩)
  | arguments _ _ ih =>
    exact keeps_followed (ih (endsExpression_of_closing (.inl ha)) ⟨.inl ha, hl⟩)
  | indices _ _ ih =>
    exact keeps_followed (ih (endsExpression_of_closing (.inr ha)) ⟨.inr ha, hl⟩)
  | subroutineMember _ ih => exact keeps_wrapped [_] (ih trivial hl)
  | unmarkedMember _ _ ih => exact keeps_followed (ih trivial ⟨trivial, hl⟩)
  | returnValue _ _ _ ih => exact keeps_guarded (keeps_wrapped [_] (ih ha.2 hl))
  | block _ _ _ ih => exact keeps_followed (ih ha.2 ⟨ha, hl⟩)
  | program _ _ ih =>
    refine keeps_followed (ih ?_ ⟨ha, hl⟩)
    change (follow rest).endsExpression = true
    rw [show follow rest = .endOfInput from ha]
    rfl

/-- What a goal takes up is live where the goal was. -/
theorem react_keeps {goal : Goal} (ha : goal.Admits bound (follow rest)) (h : Live bound rest)
    (hc : token.Classified) (hline : token.line ≤ bound) :
    (goal.react token).Keeps bound rest :=
  keeps_of_reacts (Opening.reacts_goal_iff.2 rfl) ha h hc hline

end Keeping

end Pseudocode
