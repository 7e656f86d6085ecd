-- Syntax trees: labelled nodes with their children in order. An array
-- declaration keeps its dimensions apart from its children.
import Pseudocode.Number.Binary64
import Pseudocode.Token.Kind

namespace Pseudocode

/-! ## Labels -/

/-- What a node stands for, with the names, flags and values it carries.

* `program`, `block`, `params`, `args`, `print`: the listed items in order.
* `assign`: target and value.
* `ifStatement`: branches, then an `elseBranch` or none.
* `branch`: condition and block; `elseBranch` and `defaultClause`: a block.
* `forLoop`: counter, first and last value, block.
* `whileLoop`: condition and block; `doLoop`: block and condition.
* `switch`: subject, `caseClause`s, then a `defaultClause` or none.
* `caseClause`: label and block.
* `function`, `procedure`: parameters and block.
* `classDecl`: members, each with one field name or subroutine.
* `returnStatement`: the value, if there is one.
* `field`: object; `index`, `call`: object and arguments; `newObject`: arguments.
* binary operators: both operands; `negate`, `logicalNot`: the operand. -/
inductive Label where
  | program
  | block
  | assign (isGlobal : Bool)
  | ifStatement
  | branch
  | elseBranch
  | forLoop
  | whileLoop
  | doLoop
  | switch
  | caseClause
  | defaultClause
  | function (name : String)
  | procedure (name : String)
  | params
  | param (byRef : Bool) (name : String)
  | classDecl (name : String) (parent : Option String)
  | classMember (isPublic : Bool)
  | returnStatement
  | jump (kind : TokenKind)
  | print
  | identifier (name : String)
  | superObject
  | field (name : String)
  | index
  | call
  | newObject (className : String)
  | args
  | int (value : Int)
  | real (value : Binary64)
  | str (value : String)
  | bool (value : Bool)
  | addOp (op : TokenKind)
  | mulOp (op : TokenKind)
  | powOp (op : TokenKind)
  | cmpOp (op : TokenKind)
  | negate
  | logicalNot
  deriving DecidableEq

namespace Label

/-- The name of the sort of node. -/
def kindName : Label → String
  | program => "Program"
  | block => "Block"
  | assign _ => "Assign"
  | ifStatement => "If"
  | branch => "Branch"
  | elseBranch => "Else"
  | forLoop => "For"
  | whileLoop => "While"
  | doLoop => "DoUntil"
  | switch => "Switch"
  | caseClause => "Case"
  | defaultClause => "Default"
  | function _ => "FunDecl"
  | procedure _ => "ProcDecl"
  | params => "Params"
  | param _ _ => "Param"
  | classDecl _ _ => "ClassDecl"
  | classMember _ => "ClassMember"
  | returnStatement => "Return"
  | jump _ => "GoToInstr"
  | print => "Print"
  | identifier _ => "Identifier"
  | superObject => "Super"
  | field _ => "Field"
  | index => "Index"
  | call => "Call"
  | newObject _ => "New"
  | args => "Args"
  | int _ => "IntLiteral"
  | real _ => "NumLiteral"
  | str _ => "StrLiteral"
  | bool _ => "BoolLiteral"
  | addOp _ => "AddOp"
  | mulOp _ => "MulOp"
  | powOp _ => "PowOp"
  | cmpOp _ => "CmpOp"
  | negate => "Negate"
  | logicalNot => "Not"

/-- The name that a label carries, if it carries one. -/
def name? : Label → Option String
  | function name | procedure name | param _ name | classDecl name _ | identifier name
  | field name | newObject name => some name
  | _ => none

/-- An operator applied to operands; it needs parentheses as an operand itself. -/
def isCompound : Label → Bool
  | addOp _ | mulOp _ | powOp _ | cmpOp _ | negate | logicalNot => true
  | _ => false

/-- A number literal. -/
def isNumber : Label → Bool
  | int _ | real _ => true
  | _ => false

/-- Equality that compares real values as numbers. -/
def same : Label → Label → Bool
  | real a, real b => a.same b
  | a, b => a = b

end Label

/-! ## Nodes -/

/-- A node of the syntax tree. -/
inductive Node where
  | tree (label : Label) (children : List Node)
  | array (isGlobal : Bool) (name : String) (dims children : List Node)

namespace Node

/-- The children, without the dimensions of an array declaration. -/
def children : Node → List Node
  | tree _ children => children
  | array _ _ _ children => children

/-- The name of the sort of node. -/
def kindName : Node → String
  | tree label _ => label.kindName
  | array _ _ _ _ => "ArrayDecl"

/-- The name that a node carries, if it carries one. -/
def name? : Node → Option String
  | tree label _ => label.name?
  | array _ name _ _ => some name

/-- Whether a node has to stand in parentheses as an operand. -/
def isCompound : Node → Bool
  | tree label _ => label.isCompound
  | array _ _ _ _ => false

/-- Whether a node is a number literal. -/
def isNumber : Node → Bool
  | tree label _ => label.isNumber
  | array _ _ _ _ => false

/-- Whether a node is a lone name. -/
def isIdentifier : Node → Bool
  | tree (.identifier _) _ => true
  | _ => false

/-! ## Walking -/

mutual

/-- The node and all nodes below it, parents first; the dimensions of an array
declaration come before its children. -/
def walk : Node → List Node
  | tree label children => tree label children :: walkAll children
  | array isGlobal name dims children =>
    array isGlobal name dims children :: (walkAll dims ++ walkAll children)

/-- The nodes of a row of trees. -/
def walkAll : List Node → List Node
  | [] => []
  | node :: nodes => node.walk ++ walkAll nodes

end

mutual

/-- How many nodes a tree has. -/
def count : Node → Nat
  | tree _ children => 1 + countAll children
  | array _ _ dims children => 1 + (countAll dims + countAll children)

/-- How many nodes a row of trees has. -/
def countAll : List Node → Nat
  | [] => 0
  | node :: nodes => node.count + countAll nodes

end

mutual

/-- The count is the number of nodes that a walk meets. -/
theorem length_walk : ∀ node : Node, node.walk.length = node.count
  | tree _ children => by
    rw [walk, count, List.length_cons, length_walkAll children, Nat.add_comm]
  | array _ _ dims children => by
    rw [walk, count, List.length_cons, List.length_append, length_walkAll dims,
      length_walkAll children, Nat.add_comm]

theorem length_walkAll : ∀ nodes : List Node, (walkAll nodes).length = countAll nodes
  | [] => rfl
  | node :: nodes => by
    rw [walkAll, countAll, List.length_append, length_walk node, length_walkAll nodes]

end

/-! ## Comparing -/

mutual

/-- Structural equality, with real values compared as numbers. -/
def same : Node → Node → Bool
  | tree a as, tree b bs => a.same b && sameAll as bs
  | array g n ds as, array h m es bs => g = h && n = m && sameAll ds es && sameAll as bs
  | _, _ => false

/-- Structural equality of rows of trees. -/
def sameAll : List Node → List Node → Bool
  | [], [] => true
  | a :: as, b :: bs => a.same b && sameAll as bs
  | _, _ => false

end

end Node

end Pseudocode
