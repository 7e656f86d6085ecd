-- The grammar of expressions in levels. An operator takes operands of its own
-- level on the left and of the next one on the right; only `^` groups to the
-- right. The grammar knows nothing of how a program is read: the operators with
-- their levels and the values of literals are its own.
import Mathlib.Data.Nat.Digits.Defs
import Pseudocode.Token.Basic
import Pseudocode.Tree.Node

namespace Pseudocode

/-- Whether a node is a call or a new object, which both end in arguments. -/
def Node.isCall : Node → Bool
  | tree .call _ => true
  | tree (.newObject _) _ => true
  | _ => false

/-- The number that digits stand for, the last of which are the ones. -/
def decimalValue (text : String) : Nat :=
  Nat.ofDigits 10 (text.toList.reverse.map fun c => c.toNat - '0'.toNat)

/-! ## Phrases -/

/-- What an expression is made of.

* `expression level`: what may stand as an operand of that level.
* `operation level`: the same, but not a `NOT` without parentheses.
* `unary`: any number of minus signs before a chain.
* `chain isFree`: a name, `super` or a new object with its suffixes; where the
  chain is free it may also start with a literal or with parentheses.
* `arguments`: expressions with commas between them, or nothing.
* `expressions`: the same, but at least one.
* `moreExpressions`: what may follow the first one. -/
inductive Phrase where
  | expression (level : Nat)
  | operation (level : Nat)
  | unary
  | chain (isFree : Bool)
  | arguments
  | expressions
  | moreExpressions

namespace Phrase

/-! ### Operators -/

/-- The binary operators: the kind of token, how tightly it binds, and the label
of the node it makes. -/
inductive Operates : TokenKind → Nat → Label → Prop
  | or : Operates .opOr 1 (.addOp .opOr)
  | and : Operates .opAnd 2 (.mulOp .opAnd)
  | equal : Operates .equal 4 (.cmpOp .equal)
  | notEqual : Operates .notEqual 4 (.cmpOp .notEqual)
  | less : Operates .less 4 (.cmpOp .less)
  | greater : Operates .greater 4 (.cmpOp .greater)
  | lessEqual : Operates .lessEqual 4 (.cmpOp .lessEqual)
  | greaterEqual : Operates .greaterEqual 4 (.cmpOp .greaterEqual)
  | plus : Operates .plus 5 (.addOp .plus)
  | minus : Operates .minus 5 (.addOp .minus)
  | times : Operates .times 6 (.mulOp .times)
  | divide : Operates .divide 6 (.mulOp .divide)
  | div : Operates .opDiv 6 (.mulOp .opDiv)
  | mod : Operates .opMod 6 (.mulOp .opMod)
  | power : Operates .power 7 (.powOp .power)

theorem Operates.level_eq {kind : TokenKind} {level level' : Nat} {label label' : Label}
    (h : Operates kind level label) (h' : Operates kind level' label') : level = level' := by
  cases h <;> cases h' <;> rfl

/-- The level of a whole expression. -/
def lowestLevel : Nat := 1

/-- The level of the comparisons, the loosest operators in reach of a `NOT`. -/
def comparisonLevel : Nat := 4

/-- The level of `^`, the only operator that groups to the right. -/
def powerLevel : Nat := 7

/-- What stands to the left of an operator of a level. A `^` takes only a unary
expression there. From the comparisons on, an operator in reach of a `NOT`
belongs to the operand of the `NOT`. -/
def leftOperand (level : Nat) : Phrase :=
  if level = powerLevel then unary
  else if level < comparisonLevel then expression level
  else operation level

/-- What stands to the right of an operator of a level. -/
def rightOperand (level : Nat) : Phrase :=
  if level = powerLevel then expression powerLevel else expression (level + 1)

/-! ### Literals -/

/-- A literal with the label of its node: a whole number of at most 63 bits, a
real number that is not read as infinite, a text, or a truth value. -/
inductive Literal : Token → Label → Prop
  | int {token} : token.kind = .intLiteral → decimalValue token.text < 2 ^ 63 →
      Literal token (.int (decimalValue token.text))
  | real {token negative rank} : token.kind = .realLiteral →
      Binary64.ofNumeral token.text.toList = .finite negative rank →
      Literal token (.real (.finite negative rank))
  | str {token} : token.kind = .strLiteral → Literal token (.str token.unquoted)
  | bool {token} : token.kind = .boolLiteral → Literal token (.bool (token.text = "true"))

/-! ### Derivations -/

/-- The tokens begin with the phrase, which stands for the nodes, and the last
tokens are what follows it. -/
inductive Derives : Phrase → List Token → List Node → List Token → Prop
  | ofOperation {level ts us e} :
      Derives (operation level) ts [e] us → Derives (expression level) ts [e] us
  | logicalNot {level not ts us e} : not.kind = .opNot →
      Derives (expression (max level comparisonLevel)) ts [e] us →
      Derives (expression level) (not :: ts) [.tree .logicalNot [e]] us
  | ofUnary {level ts us e} : Derives unary ts [e] us → Derives (operation level) ts [e] us
  | binary {level level' label sign ts us vs l r} : Operates sign.kind level' label →
      level ≤ level' → Derives (leftOperand level') ts [l] (sign :: us) →
      Derives (rightOperand level') us [r] vs →
      Derives (operation level) ts [.tree label [l, r]] vs
  | negate {minus ts us e} : minus.kind = .minus → Derives unary ts [e] us →
      Derives unary (minus :: ts) [.tree .negate [e]] us
  | ofChain {ts us e} : Derives (chain true) ts [e] us → Derives unary ts [e] us
  | parenthesized {opening closing ts us e} :
      opening.kind = .openParen → closing.kind = .closeParen →
      Derives (expression lowestLevel) ts [e] (closing :: us) →
      Derives (chain true) (opening :: ts) [e] us
  | literal {token ts label} : Literal token label →
      Derives (chain true) (token :: ts) [.tree label []] ts
  | identifier {isFree token ts} : token.kind = .identifier →
      Derives (chain isFree) (token :: ts) [.tree (.identifier token.text) []] ts
  | superObject {isFree token ts} : token.kind = .kwSuper →
      Derives (chain isFree) (token :: ts) [.tree .superObject []] ts
  | newObject {isFree new name opening closing ts us es} : new.kind = .kwNew →
      name.kind = .identifier → opening.kind = .openParen → closing.kind = .closeParen →
      Derives arguments ts es (closing :: us) →
      Derives (chain isFree) (new :: name :: opening :: ts)
        [.tree (.newObject name.text) [.tree .args es]] us
  | field {isFree dot name ts us l} : dot.kind = .dot →
      name.kind = .identifier ∨ name.kind = .kwNew →
      Derives (chain isFree) ts [l] (dot :: name :: us) →
      Derives (chain isFree) ts [.tree (.field name.text) [l]] us
  | index {isFree opening closing ts us vs l es} :
      opening.kind = .openBracket → closing.kind = .closeBracket →
      Derives (chain isFree) ts [l] (opening :: us) →
      Derives expressions us es (closing :: vs) →
      Derives (chain isFree) ts [.tree .index [l, .tree .args es]] vs
  | call {isFree opening closing ts us vs l es} :
      opening.kind = .openParen → closing.kind = .closeParen →
      Derives (chain isFree) ts [l] (opening :: us) →
      Derives arguments us es (closing :: vs) →
      Derives (chain isFree) ts [.tree .call [l, .tree .args es]] vs
  | noArguments {ts} : Derives arguments ts [] ts
  | ofExpressions {ts us es} : Derives expressions ts es us → Derives arguments ts es us
  | first {ts us vs e es} : Derives (expression lowestLevel) ts [e] us →
      Derives moreExpressions us es vs → Derives expressions ts (e :: es) vs
  | noMore {ts} : Derives moreExpressions ts [] ts
  | more {comma ts us vs e es} : comma.kind = .comma →
      Derives (expression lowestLevel) ts [e] us →
      Derives moreExpressions us es vs → Derives moreExpressions (comma :: ts) (e :: es) vs

/-- The tokens and nothing but them make the phrase. -/
def DerivesAll (phrase : Phrase) (tokens : List Token) (nodes : List Node) : Prop :=
  phrase.Derives tokens nodes []

/-! ## What a phrase begins with -/

/-- The kinds of token that any chain may begin with. -/
def baseOpeners : List TokenKind := [.identifier, .kwSuper, .kwNew]

/-- The kinds of token that a free chain may begin with. -/
def chainOpeners : List TokenKind :=
  baseOpeners ++ [.openParen, .intLiteral, .realLiteral, .strLiteral, .boolLiteral]

/-- The kinds of token that a phrase begins with, where it has to have a token. -/
def openers : Phrase → List TokenKind
  | chain false => baseOpeners
  | chain true => chainOpeners
  | unary => .minus :: chainOpeners
  | expression _ | operation _ | expressions => .opNot :: .minus :: chainOpeners
  | arguments | moreExpressions => []

/-- The phrases that may have no tokens. -/
def mayBeEmpty : Phrase → Bool
  | arguments | moreExpressions => true
  | _ => false

theorem Literal.isLiteral {token : Token} {label : Label} (h : Literal token label) :
    token.kind.isLiteral = true := by
  cases h with
  | int hk | real hk | str hk | bool hk =>
    rw [hk]
    rfl

theorem mem_openers_leftOperand {level level' : Nat} {kind : TokenKind}
    (h : kind ∈ (leftOperand level).openers) : kind ∈ (operation level').openers := by
  unfold leftOperand at h
  split at h
  · exact List.mem_cons_of_mem _ h
  · split at h <;> exact h

theorem not_mayBeEmpty_leftOperand (level : Nat) : (leftOperand level).mayBeEmpty = false := by
  unfold leftOperand
  split
  · rfl
  · split <;> rfl

theorem Derives.opens {phrase : Phrase} {ts us : List Token} {nodes : List Node}
    (h : phrase.Derives ts nodes us) (hp : phrase.mayBeEmpty = false) :
    ∃ token rest, ts = token :: rest ∧ token.kind ∈ phrase.openers := by
  induction h with
  | ofOperation _ ih => exact ih rfl
  | @logicalNot _ not ts _ _ hn => exact ⟨not, ts, rfl, by simp [hn, openers]⟩
  | ofUnary _ ih =>
    obtain ⟨token, rest, hts, hk⟩ := ih rfl
    exact ⟨token, rest, hts, List.mem_cons_of_mem _ hk⟩
  | binary _ _ _ _ ih =>
    obtain ⟨token, rest, hts, hk⟩ := ih (not_mayBeEmpty_leftOperand _)
    exact ⟨token, rest, hts, mem_openers_leftOperand hk⟩
  | @negate minus ts _ _ hm => exact ⟨minus, ts, rfl, by simp [hm, openers]⟩
  | ofChain _ ih =>
    obtain ⟨token, rest, hts, hk⟩ := ih rfl
    exact ⟨token, rest, hts, List.mem_cons_of_mem _ hk⟩
  | @parenthesized opening _ ts _ _ ho => exact ⟨opening, ts, rfl, by simp [ho, openers, chainOpeners]⟩
  | @literal token ts _ hl =>
    have hk := hl.isLiteral
    refine ⟨token, ts, rfl, ?_⟩
    cases hkind : token.kind <;> simp_all [TokenKind.isLiteral, openers, chainOpeners]
  | @identifier isFree token ts hk =>
    exact ⟨token, ts, rfl, by cases isFree <;> simp [hk, openers, chainOpeners, baseOpeners]⟩
  | @superObject isFree token ts hk =>
    exact ⟨token, ts, rfl, by cases isFree <;> simp [hk, openers, chainOpeners, baseOpeners]⟩
  | @newObject isFree new name opening closing ts _ _ hn =>
    refine ⟨new, name :: opening :: ts, rfl, ?_⟩
    cases isFree <;> simp [hn, openers, chainOpeners, baseOpeners]
  | field _ _ _ ih => exact ih rfl
  | index _ _ _ _ ih => exact ih rfl
  | call _ _ _ _ ih => exact ih rfl
  | noArguments => cases hp
  | ofExpressions _ ih => cases hp
  | first _ _ ih => exact ih rfl
  | noMore => cases hp
  | more => cases hp

/-! ## What follows a phrase does not matter -/

/-- A phrase takes tokens from the front, and takes them whatever comes behind. -/
theorem Derives.front {phrase : Phrase} {ts us : List Token} {nodes : List Node}
    (h : phrase.Derives ts nodes us) :
    ∃ front, ts = front ++ us ∧ ∀ vs, phrase.Derives (front ++ vs) nodes vs := by
  induction h with
  | ofOperation _ ih =>
    obtain ⟨front, rfl, h⟩ := ih
    exact ⟨front, rfl, fun vs => .ofOperation (h vs)⟩
  | @logicalNot _ not _ _ _ hn _ ih =>
    obtain ⟨front, rfl, h⟩ := ih
    exact ⟨not :: front, rfl, fun vs => .logicalNot hn (h vs)⟩
  | ofUnary _ ih =>
    obtain ⟨front, rfl, h⟩ := ih
    exact ⟨front, rfl, fun vs => .ofUnary (h vs)⟩
  | @binary _ _ _ sign _ _ _ _ _ hop hle _ _ ihl ihr =>
    obtain ⟨left, rfl, hl⟩ := ihl
    obtain ⟨right, rfl, hr⟩ := ihr
    refine ⟨left ++ sign :: right, by simp, fun vs => ?_⟩
    rw [List.append_assoc]
    exact .binary hop hle (hl _) (hr vs)
  | @negate minus _ _ _ hm _ ih =>
    obtain ⟨front, rfl, h⟩ := ih
    exact ⟨minus :: front, rfl, fun vs => .negate hm (h vs)⟩
  | ofChain _ ih =>
    obtain ⟨front, rfl, h⟩ := ih
    exact ⟨front, rfl, fun vs => .ofChain (h vs)⟩
  | @parenthesized opening closing _ _ _ ho hc _ ih =>
    obtain ⟨front, rfl, h⟩ := ih
    refine ⟨opening :: (front ++ [closing]), by simp, fun vs => ?_⟩
    exact .parenthesized ho hc (by simpa using h (closing :: vs))
  | @literal token _ _ hl => exact ⟨[token], rfl, fun vs => .literal hl⟩
  | @identifier _ token _ hk => exact ⟨[token], rfl, fun vs => .identifier hk⟩
  | @superObject _ token _ hk => exact ⟨[token], rfl, fun vs => .superObject hk⟩
  | @newObject _ new name opening closing _ _ _ hn hi ho hc _ ih =>
    obtain ⟨front, rfl, h⟩ := ih
    refine ⟨new :: name :: opening :: (front ++ [closing]), by simp, fun vs => ?_⟩
    exact .newObject hn hi ho hc (by simpa using h (closing :: vs))
  | @field _ dot name _ _ _ hd hn _ ih =>
    obtain ⟨front, rfl, h⟩ := ih
    refine ⟨front ++ [dot, name], by simp, fun vs => ?_⟩
    exact .field hd hn (by simpa using h (dot :: name :: vs))
  | @index _ opening closing _ _ _ _ _ ho hc _ _ ihl ihe =>
    obtain ⟨left, rfl, hl⟩ := ihl
    obtain ⟨inner, rfl, he⟩ := ihe
    refine ⟨left ++ opening :: (inner ++ [closing]), by simp, fun vs => ?_⟩
    rw [List.append_assoc]
    exact .index ho hc (hl _) (by simpa using he (closing :: vs))
  | @call _ opening closing _ _ _ _ _ ho hc _ _ ihl ihe =>
    obtain ⟨left, rfl, hl⟩ := ihl
    obtain ⟨inner, rfl, he⟩ := ihe
    refine ⟨left ++ opening :: (inner ++ [closing]), by simp, fun vs => ?_⟩
    rw [List.append_assoc]
    exact .call ho hc (hl _) (by simpa using he (closing :: vs))
  | noArguments => exact ⟨[], rfl, fun vs => .noArguments⟩
  | ofExpressions _ ih =>
    obtain ⟨front, rfl, h⟩ := ih
    exact ⟨front, rfl, fun vs => .ofExpressions (h vs)⟩
  | first _ _ ihe ihm =>
    obtain ⟨front, rfl, he⟩ := ihe
    obtain ⟨others, rfl, hm⟩ := ihm
    refine ⟨front ++ others, by simp, fun vs => ?_⟩
    rw [List.append_assoc]
    exact .first (he _) (hm vs)
  | noMore => exact ⟨[], rfl, fun vs => .noMore⟩
  | @more comma _ _ _ _ _ hc _ _ ihe ihm =>
    obtain ⟨front, rfl, he⟩ := ihe
    obtain ⟨others, rfl, hm⟩ := ihm
    refine ⟨comma :: (front ++ others), by simp, fun vs => ?_⟩
    rw [List.cons_append, List.append_assoc]
    exact .more hc (he _) (hm vs)

/-- Tokens make a phrase exactly when they do so in front of any others. -/
theorem derives_iff_front {phrase : Phrase} {ts us : List Token} {nodes : List Node} :
    phrase.Derives ts nodes us ↔ ∃ front, ts = front ++ us ∧ phrase.DerivesAll front nodes := by
  constructor
  · intro h
    obtain ⟨front, hts, hf⟩ := h.front
    exact ⟨front, hts, by simpa [DerivesAll] using hf []⟩
  · rintro ⟨front, rfl, h⟩
    obtain ⟨front', hf', hf⟩ := Derives.front h
    rw [List.append_nil] at hf'
    exact hf' ▸ hf us

end Phrase

/-! ## Where an expression ends -/

/-- The tokens do not begin with a suffix. -/
def NoSuffix (tokens : List Token) : Prop :=
  ∀ token ∈ tokens.head?,
    token.kind ≠ .dot ∧ token.kind ≠ .openBracket ∧ token.kind ≠ .openParen

/-- The tokens do not begin with a binary operator of the level or above. -/
def NoOperator (level : Nat) (tokens : List Token) : Prop :=
  ∀ token ∈ tokens.head?, ∀ level' label, Phrase.Operates token.kind level' label → level' < level

/-- The tokens begin with nothing that an expression of the level goes on with. -/
def Ends (level : Nat) (tokens : List Token) : Prop := NoSuffix tokens ∧ NoOperator level tokens

end Pseudocode
