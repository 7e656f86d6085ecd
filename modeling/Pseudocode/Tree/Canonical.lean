-- The canonical source text of a tree. Every operand that is itself an
-- operator applied to operands stands in parentheses, so the text is read
-- back as the same tree. Missing children leave gaps, and nodes that have no
-- place in a text give the name of their sort.
import Pseudocode.Number.Shortest
import Pseudocode.Tree.Node

namespace Pseudocode

namespace Node

/-! ## Expressions -/

/-- A string literal, in double quotes unless it holds one. -/
def literalText (value : String) : String :=
  if value.toList.contains '"' then "'" ++ value ++ "'" else "\"" ++ value ++ "\""

/-- A list with a comma and a blank between its items. -/
def listed (items : List String) : String := String.intercalate ", " items

/-- A text in parentheses if it has to stand in them. -/
def parenthesized (needed : Bool) (text : String) : String :=
  if needed then "(" ++ text ++ ")" else text

mutual

/-- The text of an expression. -/
def expression : Node → String
  | array isGlobal name dims children => (array isGlobal name dims children).kindName
  | tree label children =>
    match label with
    | .identifier name => name
    | .superObject => TokenKind.kwSuper.spelling
    | .int value => toString value
    | .real value => value.text
    | .str value => literalText value
    | .bool value => toString value
    | .field name => object children ++ "." ++ name
    | .index => object children ++ "[" ++ argumentsAt children 1 ++ "]"
    | .call => object children ++ "(" ++ argumentsAt children 1 ++ ")"
    | .newObject name =>
      TokenKind.kwNew.spelling ++ " " ++ name ++ "(" ++ argumentsAt children 0 ++ ")"
    | .negate => TokenKind.minus.spelling ++ operandAt children 0
    | .logicalNot => TokenKind.opNot.spelling ++ " " ++ operandAt children 0
    | .addOp op | .mulOp op | .powOp op | .cmpOp op =>
      operandAt children 0 ++ " " ++ op.spelling ++ " " ++ operandAt children 1
    | .args => listed (expressions children)
    | label => label.kindName

/-- The texts of a row of expressions. -/
def expressions : List Node → List String
  | [] => []
  | node :: nodes => node.expression :: expressions nodes

/-- The child at a position as an operand. -/
def operandAt : List Node → Nat → String
  | [], _ => ""
  | node :: _, 0 => parenthesized node.isCompound node.expression
  | _ :: nodes, position + 1 => operandAt nodes position

/-- The first child as what a field, an index or a call is applied to. A
number stands in parentheses there, as it would take the point for its own. -/
def object : List Node → String
  | [] => ""
  | node :: _ => parenthesized (node.isCompound || node.isNumber) node.expression

/-- The children of the child at a position as a list of arguments. -/
def argumentsAt : List Node → Nat → String
  | [], _ => ""
  | tree _ children :: _, 0 => listed (expressions children)
  | array _ _ _ children :: _, 0 => listed (expressions children)
  | _ :: nodes, position + 1 => argumentsAt nodes position

end

/-- The text of the child at a position. -/
def expressionAt (children : List Node) (position : Nat) : String :=
  match children[position]? with
  | some node => node.expression
  | none => ""

/-! ## Statements -/

/-- A line of source text, four blanks to the right for each level. -/
def sourceLine (depth : Nat) (text : String) : String :=
  String.ofList (List.replicate (4 * depth) ' ') ++ text

/-- The keyword in front of what is global. -/
def globalMark (isGlobal : Bool) : String :=
  if isGlobal then TokenKind.kwGlobal.spelling ++ " " else ""

/-- The keyword in front of a class member. -/
def visibility (isPublic : Bool) : String :=
  (if isPublic then TokenKind.kwPublic.spelling else TokenKind.kwPrivate.spelling) ++ " "

/-- A parameter with its way of passing; by value needs no mention. -/
def parameter : Node → String
  | tree (.param true name) _ => name ++ ":" ++ TokenKind.kwByRef.spelling
  | tree (.param false name) _ => name
  | node => node.kindName

/-- The children of the child at a position as a list of parameters. -/
def parametersAt (children : List Node) (position : Nat) : String :=
  match children[position]? with
  | some node => listed (node.children.map parameter)
  | none => ""

/-- The first line of a class. -/
def classHeader (name : String) : Option String → String
  | none => TokenKind.kwClass.spelling ++ " " ++ name
  | some parent =>
    TokenKind.kwClass.spelling ++ " " ++ name ++ " " ++ TokenKind.kwInherits.spelling ++ " " ++
      parent

mutual

/-- The lines of a statement at some depth. Only a subroutine shows the `mark`
that its place in a class puts in front. -/
def statement (depth : Nat) (mark : String) : Node → List String
  | array isGlobal name dims _ =>
    [sourceLine depth (globalMark isGlobal ++ TokenKind.kwArray.spelling ++ " " ++ name ++ "[" ++
      listed (expressions dims) ++ "]")]
  | tree label children =>
    match label with
    | .program | .block => statements depth children
    | .assign isGlobal =>
      [sourceLine depth (globalMark isGlobal ++ expressionAt children 0 ++ " " ++
        TokenKind.assign.spelling ++ " " ++ expressionAt children 1)]
    | .ifStatement =>
      branches depth TokenKind.kwIf children ++ [sourceLine depth TokenKind.kwEndIf.spelling]
    | .forLoop =>
      [sourceLine depth (TokenKind.kwFor.spelling ++ " " ++ expressionAt children 0 ++ " " ++
        TokenKind.assign.spelling ++ " " ++ expressionAt children 1 ++ " " ++
        TokenKind.kwTo.spelling ++ " " ++ expressionAt children 2)] ++
      bodyAt (depth + 1) children 3 ++
      [sourceLine depth (TokenKind.kwNext.spelling ++ " " ++ expressionAt children 0)]
    | .whileLoop =>
      [sourceLine depth (TokenKind.kwWhile.spelling ++ " " ++ expressionAt children 0)] ++
      bodyAt (depth + 1) children 1 ++
      [sourceLine depth TokenKind.kwEndWhile.spelling]
    | .doLoop =>
      [sourceLine depth TokenKind.kwDo.spelling] ++
      bodyAt (depth + 1) children 0 ++
      [sourceLine depth (TokenKind.kwUntil.spelling ++ " " ++ expressionAt children 1)]
    | .switch =>
      [sourceLine depth (TokenKind.kwSwitch.spelling ++ " " ++ expressionAt children 0 ++ ":")] ++
      clausesAfter (depth + 1) children ++
      [sourceLine depth TokenKind.kwEndSwitch.spelling]
    | .function name =>
      [sourceLine depth (mark ++ TokenKind.kwFunction.spelling ++ " " ++ name ++ "(" ++
        parametersAt children 0 ++ ")")] ++
      bodyAt (depth + 1) children 1 ++
      [sourceLine depth TokenKind.kwEndFunction.spelling]
    | .procedure name =>
      [sourceLine depth (mark ++ TokenKind.kwProcedure.spelling ++ " " ++ name ++ "(" ++
        parametersAt children 0 ++ ")")] ++
      bodyAt (depth + 1) children 1 ++
      [sourceLine depth TokenKind.kwEndProcedure.spelling]
    | .classDecl name parent =>
      [sourceLine depth (classHeader name parent)] ++
      statements (depth + 1) children ++
      [sourceLine depth TokenKind.kwEndClass.spelling]
    | .classMember isPublic => member depth (visibility isPublic) children
    | .returnStatement =>
      match children with
      | [] => [sourceLine depth TokenKind.kwReturn.spelling]
      | value :: _ =>
        [sourceLine depth (TokenKind.kwReturn.spelling ++ " " ++ value.expression)]
    | .jump kind => [sourceLine depth kind.spelling]
    | .print =>
      [sourceLine depth (TokenKind.kwPrint.spelling ++ "(" ++ listed (expressions children) ++
        ")")]
    | label => [sourceLine depth (expression (tree label children))]

/-- The lines of a row of statements. -/
def statements (depth : Nat) : List Node → List String
  | [] => []
  | node :: nodes => node.statement depth "" ++ statements depth nodes

/-- The lines of the block that is the child at a position. -/
def bodyAt (depth : Nat) : List Node → Nat → List String
  | [], _ => []
  | tree _ children :: _, 0 => statements depth children
  | array _ _ _ children :: _, 0 => statements depth children
  | _ :: nodes, position + 1 => bodyAt depth nodes position

/-- The lines of the branches of an `if`; the first one opens with `opener`. -/
def branches (depth : Nat) (opener : TokenKind) : List Node → List String
  | [] => []
  | tree .branch children :: nodes =>
    [sourceLine depth (opener.spelling ++ " " ++ expressionAt children 0 ++ " " ++
      TokenKind.kwThen.spelling)] ++
    bodyAt (depth + 1) children 1 ++ branches depth .kwElseIf nodes
  | tree _ children :: nodes =>
    [sourceLine depth TokenKind.kwElse.spelling] ++
    bodyAt (depth + 1) children 0 ++ branches depth .kwElseIf nodes
  | array _ _ _ children :: nodes =>
    [sourceLine depth TokenKind.kwElse.spelling] ++
    bodyAt (depth + 1) children 0 ++ branches depth .kwElseIf nodes

/-- The lines of the clauses of a `switch`. -/
def clauses (depth : Nat) : List Node → List String
  | [] => []
  | tree .caseClause children :: nodes =>
    [sourceLine depth (TokenKind.kwCase.spelling ++ " " ++ expressionAt children 0 ++ ":")] ++
    bodyAt (depth + 1) children 1 ++ clauses depth nodes
  | tree _ children :: nodes =>
    [sourceLine depth (TokenKind.kwDefault.spelling ++ ":")] ++
    bodyAt (depth + 1) children 0 ++ clauses depth nodes
  | array _ _ _ children :: nodes =>
    [sourceLine depth (TokenKind.kwDefault.spelling ++ ":")] ++
    bodyAt (depth + 1) children 0 ++ clauses depth nodes

/-- The lines of the clauses that follow the subject of a `switch`. -/
def clausesAfter (depth : Nat) : List Node → List String
  | [] => []
  | _ :: nodes => clauses depth nodes

/-- The lines of what a class member holds. -/
def member (depth : Nat) (mark : String) : List Node → List String
  | [] => []
  | node :: _ =>
    if node.isIdentifier then [sourceLine depth (mark ++ node.expression)]
    else node.statement depth mark

end

/-- The source lines of a program or of a single statement. -/
def render (node : Node) : List String := node.statement 0 ""

/-! ## The lines of parts -/

theorem render_program (ns : List Node) : (tree .program ns).render = statements 0 ns := by
  simp only [render, statement]

theorem statements_nil (depth : Nat) : statements depth [] = [] := by
  simp only [statements]

theorem statements_cons (depth : Nat) (n : Node) (ns : List Node) :
    statements depth (n :: ns) = n.statement depth "" ++ statements depth ns := by
  simp only [statements]

/-- The lines of a branch come before those of the other branches. -/
theorem branches_branch (depth : Nat) (opener : TokenKind) (c : Node) (ns bs : List Node) :
    branches depth opener (tree .branch [c, tree .block ns] :: bs) =
      [sourceLine depth (opener.spelling ++ " " ++ c.expression ++ " " ++
        TokenKind.kwThen.spelling)] ++ statements (depth + 1) ns ++
        branches depth .kwElseIf bs := by
  simp only [branches, bodyAt, expressionAt, List.getElem?_cons_zero]

theorem branches_else (depth : Nat) (opener : TokenKind) (ns : List Node) :
    branches depth opener [tree .elseBranch [tree .block ns]] =
      [sourceLine depth TokenKind.kwElse.spelling] ++ statements (depth + 1) ns := by
  simp only [branches, bodyAt, List.append_nil]

/-- The lines of a clause come before those of the other clauses. -/
theorem clauses_case (depth : Nat) (label : Node) (ns cs : List Node) :
    clauses depth (tree .caseClause [label, tree .block ns] :: cs) =
      [sourceLine depth (TokenKind.kwCase.spelling ++ " " ++ label.expression ++ ":")] ++
        statements (depth + 1) ns ++ clauses depth cs := by
  simp only [clauses, bodyAt, expressionAt, List.getElem?_cons_zero]

theorem clauses_default (depth : Nat) (ns : List Node) :
    clauses depth [tree .defaultClause [tree .block ns]] =
      [sourceLine depth (TokenKind.kwDefault.spelling ++ ":")] ++
        statements (depth + 1) ns := by
  simp only [clauses, bodyAt, List.append_nil]

end Node

end Pseudocode
