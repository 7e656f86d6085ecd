-- The constructs that are open at a place in a program, as its tokens alone tell:
-- one keyword begins a construct, others go on to its next part or end it. Between
-- those keywords there are only goals that neither open nor end anything.
import Pseudocode.Proofs.Statement.Meaning

namespace Pseudocode

open Goal Reaction

/-! ## Open constructs -/

/-- A construct that has been begun and not ended. Of an `if` and of a `switch`
it is told which part has come. -/
inductive Enclosure where
  | branch
  | elseBranch
  | forLoop
  | whileLoop
  | doLoop
  | switch
  | clause
  | subroutine (sort : Subroutine)
  | classDecl
  deriving Repr, DecidableEq

namespace Enclosure

/-- The keyword that ends the construct. -/
def closing : Enclosure → TokenKind
  | branch | elseBranch => .kwEndIf
  | forLoop => .kwNext
  | whileLoop => .kwEndWhile
  | doLoop => .kwUntil
  | switch | clause => .kwEndSwitch
  | subroutine sort => sort.closing
  | classDecl => .kwEndClass

/-- The keywords that end the block of statements in which the construct is;
none for the head of a `switch` and for a class, which have no such block. -/
def stops? : Enclosure → Option (List TokenKind)
  | branch => some [.kwElseIf, .kwElse, .kwEndIf]
  | clause => some [.kwCase, .kwDefault, .kwEndSwitch]
  | switch | classDecl => none
  | enclosure => some [enclosure.closing]

/-- The keywords that begin a construct. -/
def openers : List TokenKind :=
  [.kwIf, .kwFor, .kwWhile, .kwDo, .kwSwitch, .kwFunction, .kwProcedure, .kwClass]

/-- The keywords that begin a further part of a construct or end it. -/
def keywords : List TokenKind :=
  [.kwElseIf, .kwElse, .kwEndIf, .kwNext, .kwEndWhile, .kwUntil, .kwCase, .kwDefault, .kwEndSwitch,
    .kwEndFunction, .kwEndProcedure, .kwEndClass]

/-- The constructs that are open behind a token, the innermost one first. -/
def step (stack : List Enclosure) : TokenKind → List Enclosure
  | .kwIf => branch :: stack
  | .kwFor => forLoop :: stack
  | .kwWhile => whileLoop :: stack
  | .kwDo => doLoop :: stack
  | .kwSwitch => switch :: stack
  | .kwFunction => subroutine .function :: stack
  | .kwProcedure => subroutine .procedure :: stack
  | .kwClass => classDecl :: stack
  | .kwElse => elseBranch :: stack.tail
  | .kwCase | .kwDefault => clause :: stack.tail
  | .kwEndIf | .kwNext | .kwEndWhile | .kwUntil | .kwEndSwitch | .kwEndFunction | .kwEndProcedure
  | .kwEndClass => stack.tail
  | _ => stack

end Enclosure

/-- The constructs that are open behind tokens, the innermost one first. -/
def enclosures (tokens : List Token) : List Enclosure :=
  tokens.foldl (fun stack token => Enclosure.step stack token.kind) []

namespace TokenKind

/-- Whether a token of the kind leaves open what is open and in the part it is in. -/
def isInside (kind : TokenKind) : Bool :=
  !Enclosure.openers.contains kind && !Enclosure.keywords.contains kind

end TokenKind

namespace Enclosure

variable {enclosure : Enclosure} {stops : List TokenKind} {stack : List Enclosure}
  {kind : TokenKind}

theorem step_of_inside (h : kind.isInside) : step stack kind = stack := by
  cases kind <;> first | rfl | cases h

theorem not_inside_of_keyword (h : kind ∈ keywords) : kind.isInside = false := by
  rw [TokenKind.isInside, List.contains_iff_mem.2 h, Bool.not_true, Bool.and_false]

/-- The keyword that ends the whole construct is the last one of its block. -/
theorem getLast?_stops (h : enclosure.stops? = some stops) :
    stops.getLast? = some enclosure.closing := by
  cases enclosure <;> cases h <;> rfl

theorem endOfInput_notMem_stops (h : enclosure.stops? = some stops) :
    TokenKind.endOfInput ∉ stops := by
  cases enclosure with
  | subroutine sort => cases sort <;> cases h <;> decide
  | _ => cases h <;> decide

end Enclosure

/-! ## Goals between the keywords -/

/-- Whether a goal has to do with no construct: none is begun, gone on with or
ended before it is met. Tokens up to the line `bound` have been read. -/
def Goal.isLoose (bound : Nat) : Goal → Bool
  | program _ | block _ _ | otherBranches _ | counter _ | clauses _ _ | subroutineName _ _
  | classDeclName _ | members _ | member _ _ => false
  | token kind => kind.isInside
  | returnValue _ line => line ≤ bound
  | _ => true

namespace Item

/-- Whether an item has to do with no construct. -/
def isLoose (bound : Nat) : Item → Bool
  | await goal => goal.isLoose bound
  | build _ => true

/-- No item has to do with a construct. -/
def Loose (bound : Nat) (items : List Item) : Prop := items.all (isLoose bound) = true

variable {bound : Nat} {items others : List Item} {goal : Goal}

theorem loose_append : Loose bound (items ++ others) ↔ Loose bound items ∧ Loose bound others := by
  unfold Loose
  rw [List.all_append, Bool.and_eq_true]

theorem loose_builds (steps : List Step) : Loose bound (steps.map build) := by
  simp [Loose, isLoose]

theorem loose_suffix {kind : TokenKind} (h : suffix? kind = some items) :
    Loose bound items ∧ kind.isInside = true := by
  cases kind <;> cases h <;> exact ⟨rfl, rfl⟩

end Item

open Item (Loose)

namespace Reaction

/-- Only a token is taken that leaves open what is open, and what is taken up
has to do with no construct. -/
def StaysInside (bound : Nat) (kind : TokenKind) : Reaction → Prop
  | take items => Loose bound items ∧ kind.isInside = true
  | _ => True

variable {bound : Nat} {kind : TokenKind} {reaction : Reaction} {items after : List Item}

theorem staysInside_wrapped (before : List Step) (ha : Loose bound after)
    (h : reaction.StaysInside bound kind) :
    (reaction.wrapped (before.map .build) after).StaysInside bound kind := by
  cases reaction with
  | leave steps => trivial
  | fail d => trivial
  | take items =>
    refine ⟨?_, h.2⟩
    rw [Item.loose_append, Item.loose_append]
    exact ⟨⟨Item.loose_builds before, h.1⟩, ha⟩

theorem staysInside_followed (ha : Loose bound after) (h : reaction.StaysInside bound kind) :
    (reaction.followed after).StaysInside bound kind :=
  staysInside_wrapped [] ha h

theorem staysInside_guarded {fault : Option Misplacement} {line : Nat}
    (h : reaction.StaysInside bound kind) :
    (guarded fault line reaction).StaysInside bound kind := by
  cases fault with
  | none => exact h
  | some what => trivial

theorem staysInside_takeUnless {fault : Option Diagnostic} (hk : kind.isInside = true)
    (h : Loose bound items) : (takeUnless fault items).StaysInside bound kind := by
  cases fault with
  | none => exact ⟨h, hk⟩
  | some d => exact ⟨rfl, hk⟩

end Reaction

/-- Whether what can begin has to do with no construct. -/
def Opening.isLoose (bound : Nat) : Opening → Bool
  | goal asked => asked.isLoose bound
  | subroutine _ _ | statement _ => false
  | _ => true

section Reactions

variable {bound : Nat} {token : Token} {opening : Opening} {items : List Item}
  {reaction : Reaction}

theorem isInside_of_isLiteral {kind : TokenKind} (h : kind.isLiteral) : kind.isInside = true := by
  cases kind <;> first | rfl | cases h

theorem isInside_of_operator {kind : TokenKind} {op : BinaryOperator}
    (h : BinaryOperator.of? kind = some op) : kind.isInside = true := by
  cases kind <;> first | rfl | cases h

theorem Opening.Takes.loose (h : opening.Takes token items) (ho : opening.isLoose bound = true) :
    Loose bound items ∧ token.kind.isInside = true := by
  cases h with
  | suffix hs | chainSuffix hs =>
    obtain ⟨hitems, hk⟩ : Loose bound _ ∧ token.kind.isInside = true := Item.loose_suffix hs
    exact ⟨Item.loose_append.2 ⟨hitems, rfl⟩, hk⟩
  | operator hop => exact ⟨rfl, isInside_of_operator hop⟩
  | field hk =>
    have hall : ∀ kind ∈ [TokenKind.identifier, .kwNew], kind.isInside = true := by decide
    exact ⟨rfl, hall _ hk⟩
  | mark hk => exact ⟨rfl, hk ▸ ho⟩
  | elseIf | elseBranch | endIf | counter | endSwitch | subroutineName | classDeclName | endClass
  | publicMember | privateMember | fieldMember | globalStatement | array | ifStatement | forLoop
  | whileLoop | doLoop | switch | print => cases ho
  | name hk | superObject hk | newObject hk | parenthesis hk | minus hk | logicalNot hk
  | newClass hk | nextArgument hk | assign hk | globalArray hk | arrayName hk | counterAgain hk
  | negatedLabel hk | parameter hk | nextParameter hk | passing hk | byRef hk | byVal hk
  | inheritance hk | parentName hk => exact ⟨rfl, by rw [hk]; rfl⟩

theorem staysInside_of_reacts (h : opening.Reacts token reaction)
    (ho : opening.isLoose bound = true) : reaction.StaysInside bound token.kind := by
  induction h with
  | taken h => exact h.loose ho
  | left | lacking | unexpected | refusal => trivial
  | literal hk => exact ⟨rfl, isInside_of_isLiteral (Opening.isLiteral_of_literals hk)⟩
  | outOfRange hk => exact ⟨rfl, isInside_of_isLiteral (Opening.isLiteral_of_literals hk)⟩
  | caseClause | defaultClause | function | procedure | classDecl | returnStatement
  | breakStatement | continueStatement | chainStatement | subroutineStatement | subroutineMember
  | unmarkedMember | block | program => cases ho
  | base _ _ ih | globalChain _ _ ih | parameters _ _ ih => exact ih rfl
  | returnValue _ _ _ ih => exact staysInside_guarded (staysInside_wrapped [_] rfl (ih rfl))
  | chain _ ih | primary _ _ ih | unary _ _ ih | arguments _ _ ih | indices _ _ ih =>
    exact staysInside_followed rfl (ih rfl)

/-- What has to do with no construct takes only what leaves open what is open. -/
theorem react_staysInside {goal : Goal} (h : goal.isLoose bound = true) :
    (goal.react token).StaysInside bound token.kind :=
  staysInside_of_reacts (Opening.reacts_goal_iff.2 rfl) h

end Reactions

end Pseudocode
