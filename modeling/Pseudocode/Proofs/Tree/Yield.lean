-- What the tokens of a program say, and what its tree says from left to right.
-- Parentheses, `private` and a way of passing that goes without saying are left
-- out on both sides, since the tree does not keep them.
import Pseudocode.Proofs.Expression.Meaning
import Pseudocode.Proofs.Scanned
import Pseudocode.Proofs.Statement.Grammar

namespace Pseudocode

/-! ## What tokens say -/

/-- What a token says: the value of a literal, or a text of some kind. -/
inductive Atom where
  | value (label : Label)
  | sign (kind : TokenKind) (text : String)

namespace Atom

/-- A keyword, an operator or a mark. -/
def mark (kind : TokenKind) : Atom := sign kind kind.spelling

/-- A name, with the kind that its text has. -/
def name (text : String) : Atom := sign ((Fragment.classify? text).getD .identifier) text

end Atom

/-- Whether a tree can do without tokens of a kind. -/
def TokenKind.isSpare (kind : TokenKind) : Bool := kind ∈ [openParen, closeParen, kwPrivate]

namespace Token

/-- What a token says. -/
def atom (token : Token) : Atom :=
  match Goal.literalLabel token with
  | .ok label => .value label
  | .error _ => .sign token.kind token.text

/-- The tokens without every mention that something is passed by value. -/
def withoutByVal : List Token → List Token
  | first :: second :: others =>
    if first.kind = .colon ∧ second.kind = .kwByVal then withoutByVal others
    else first :: withoutByVal (second :: others)
  | tokens => tokens

/-- What tokens say, apart from those that a tree can do without. -/
def essence (tokens : List Token) : List Atom :=
  ((withoutByVal tokens).filter fun token => !token.kind.isSpare).map atom

/-! ## One token after the other -/

section Essence

variable {token mode : Token} {kind : TokenKind} {label : Label} {ts : List Token}

theorem withoutByVal_cons (h : token.kind = .colon → ∀ next ∈ ts.head?, next.kind ≠ .kwByVal) :
    withoutByVal (token :: ts) = token :: withoutByVal ts := by
  cases ts with
  | nil => rfl
  | cons second others =>
    rw [withoutByVal, if_neg]
    rintro ⟨hcolon, hmode⟩
    exact h hcolon second rfl hmode

theorem essence_byVal (hc : token.kind = .colon) (hm : mode.kind = .kwByVal) :
    essence (token :: mode :: ts) = essence ts := by
  unfold essence
  rw [withoutByVal, if_pos ⟨hc, hm⟩]

theorem essence_spare (hk : token.kind = kind) (h : kind.isSpare = true) :
    essence (token :: ts) = essence ts := by
  subst hk
  unfold essence
  rw [withoutByVal_cons, List.filter_cons_of_neg (by simp [h])]
  intro hc
  rw [hc] at h
  cases h

theorem essence_cons (hs : token.kind.isSpare = false)
    (h : token.kind = .colon → ∀ next ∈ ts.head?, next.kind ≠ .kwByVal) :
    essence (token :: ts) = token.atom :: essence ts := by
  unfold essence
  rw [withoutByVal_cons h, List.filter_cons_of_pos (by simp [hs]), List.map_cons]

theorem atom_of_literal (h : Phrase.Literal token label) : token.atom = .value label := by
  unfold atom
  rw [literalLabel_eq_ok_iff.2 h]

/-- Whatever is no literal says its text. -/
theorem atom_of_kind (h : token.kind.isLiteral = false) :
    token.atom = .sign token.kind token.text := by
  unfold atom
  split
  · rename_i hl
    rw [(literalLabel_eq_ok_iff.1 hl).isLiteral] at h
    cases h
  · rfl

end Essence

end Token

/-! ## What a tree says -/

/-- Rows with commas between them. -/
def Atom.listed : List (List Atom) → List Atom
  | [] => []
  | first :: others => first ++ others.flatMap (mark .comma :: ·)

open Atom (mark name listed)

/-- What stands in front of what is global. -/
def Atom.global (isGlobal : Bool) : List Atom := if isGlobal then [mark .kwGlobal] else []

/-- What a class says of its parent. -/
def Atom.parent : Option String → List Atom
  | none => []
  | some parent => [mark .kwInherits, name parent]

/-- What a node says, given what its children say. A branch says `elseif`; the
`if` around it has its own word in the place of the first one. -/
def Label.yield : Label → List (List Atom) → List Atom
  | assign isGlobal, [target, value] =>
    Atom.global isGlobal ++ target ++ mark .assign :: value
  | ifStatement, parts => mark .kwIf :: parts.flatten.tail ++ [mark .kwEndIf]
  | branch, [condition, body] => mark .kwElseIf :: condition ++ mark .kwThen :: body
  | elseBranch, parts => mark .kwElse :: parts.flatten
  | forLoop, [counter, first, last, body] =>
    mark .kwFor :: counter ++ mark .assign :: first ++ mark .kwTo :: last ++ body ++
      mark .kwNext :: counter
  | whileLoop, parts => mark .kwWhile :: parts.flatten ++ [mark .kwEndWhile]
  | doLoop, [body, condition] => mark .kwDo :: body ++ mark .kwUntil :: condition
  | switch, subject :: clauses =>
    mark .kwSwitch :: subject ++ mark .colon :: clauses.flatten ++ [mark .kwEndSwitch]
  | caseClause, [label, body] => mark .kwCase :: label ++ mark .colon :: body
  | defaultClause, parts => mark .kwDefault :: mark .colon :: parts.flatten
  | function title, parts =>
    mark .kwFunction :: name title :: parts.flatten ++ [mark .kwEndFunction]
  | procedure title, parts =>
    mark .kwProcedure :: name title :: parts.flatten ++ [mark .kwEndProcedure]
  | params, parts => listed parts
  | param byRef title, _ =>
    name title :: if byRef then [mark .colon, mark .kwByRef] else []
  | classDecl title parent, parts =>
    mark .kwClass :: name title :: Atom.parent parent ++ parts.flatten ++ [mark .kwEndClass]
  | classMember isPublic, parts =>
    (if isPublic then [mark .kwPublic] else []) ++ parts.flatten
  | returnStatement, parts => mark .kwReturn :: parts.flatten
  | jump kind, _ => [mark kind]
  | print, parts => mark .kwPrint :: listed parts
  | identifier title, _ => [name title]
  | superObject, _ => [mark .kwSuper]
  | field title, parts => parts.flatten ++ [mark .dot, name title]
  | index, [object, indices] =>
    object ++ mark .openBracket :: indices ++ [mark .closeBracket]
  | newObject title, parts => mark .kwNew :: name title :: parts.flatten
  | args, parts => listed parts
  | addOp op, [left, right] | mulOp op, [left, right] | powOp op, [left, right]
  | cmpOp op, [left, right] => left ++ mark op :: right
  | negate, parts => mark .minus :: parts.flatten
  | logicalNot, parts => mark .opNot :: parts.flatten
  | int value, _ => [.value (int value)]
  | real value, _ => [.value (real value)]
  | str value, _ => [.value (str value)]
  | bool value, _ => [.value (bool value)]
  | _, parts => parts.flatten

namespace Node

mutual

/-- What a tree says from left to right. -/
def yield : Node → List Atom
  | tree label children => label.yield (yields children)
  | array isGlobal title dims _ =>
    Atom.global isGlobal ++ mark .kwArray :: name title :: mark .openBracket ::
      listed (yields dims) ++ [mark .closeBracket]

/-- What each of a row of trees says. -/
def yields : List Node → List (List Atom)
  | [] => []
  | node :: nodes => node.yield :: yields nodes

end

end Node

/-! ## What a child says, its parent says too -/

/-- Whether a node says all that its children say. An `if` has its own word in the
place of one of theirs; the others of these have no children. -/
def Label.saysAll : Label → Bool
  | ifStatement | param _ _ | jump _ | identifier _ | superObject | int _ | real _ | str _
  | bool _ => false
  | _ => true

section Children

variable {label : Label} {atom : Atom} {part : List Atom} {parts : List (List Atom)} {n : Node}
  {ns : List Node}

theorem mem_listed (h : atom ∈ parts.flatten) : atom ∈ listed parts := by
  cases parts with
  | nil => cases h
  | cons first others =>
    rw [List.flatten_cons, List.mem_append] at h
    rw [listed, List.mem_append]
    refine h.imp_right fun hothers => ?_
    obtain ⟨row, hrow, ha⟩ := List.mem_flatten.1 hothers
    exact List.mem_flatMap.2 ⟨row, hrow, List.mem_cons_of_mem _ ha⟩

theorem mem_yields (hn : n ∈ ns) : n.yield ∈ Node.yields ns := by
  induction ns with
  | nil => cases hn
  | cons first others ih =>
    rw [Node.yields, List.mem_cons]
    rcases List.mem_cons.1 hn with rfl | hn
    · exact .inl rfl
    · exact .inr (ih hn)

theorem mem_flatten_yields (hn : n ∈ ns) (ha : atom ∈ n.yield) :
    atom ∈ (Node.yields ns).flatten :=
  List.mem_flatten_of_mem (mem_yields hn) ha

theorem mem_label_yield (hl : label.saysAll = true) (h : atom ∈ parts.flatten) :
    atom ∈ label.yield parts := by
  unfold Label.yield
  split
  all_goals first
    | (cases hl; done)
    | exact h
    | exact mem_listed h
    | exact List.mem_cons_of_mem _ (mem_listed h)
    | (simp only [List.flatten_cons, List.flatten_nil, List.mem_append, List.mem_cons,
        List.not_mem_nil, or_false] at h ⊢
       tauto)

/-- What a child says is part of what its parent says. -/
theorem Node.yield_subset (hl : label.saysAll = true) (hn : n ∈ ns) :
    n.yield ⊆ (Node.tree label ns).yield :=
  fun _ ha => mem_label_yield hl (mem_flatten_yields hn ha)

theorem Node.yield_subset_array {isGlobal : Bool} {name : String} {children : List Node}
    (hn : n ∈ ns) : n.yield ⊆ (Node.array isGlobal name ns children).yield := by
  intro atom ha
  have hlisted := mem_listed (mem_flatten_yields hn ha)
  simp [Node.yield, hlisted]

end Children

end Pseudocode
