-- The outline of a tree: one line for each node, indented by its depth, with
-- everything the node carries.
import Pseudocode.Number.Shortest
import Pseudocode.Text.Quoted
import Pseudocode.Tree.Node

namespace Pseudocode

namespace Label

/-- The operator of a node, or a mark for a kind that has no spelling. -/
def opText (op : TokenKind) : String := op.text?.getD "?"

/-- What follows the name of the sort. -/
def details : Label → String
  | assign isGlobal => " is_global=" ++ toString isGlobal
  | function name | procedure name => " name=" ++ name
  | param byRef name => " name=" ++ name ++ " is_byref=" ++ toString byRef
  | classDecl name none => " name=" ++ name
  | classDecl name (some parent) => " name=" ++ name ++ " parent=" ++ parent
  | classMember isPublic => " is_public=" ++ toString isPublic
  | identifier name | field name | newObject name => " " ++ name
  | int value => " " ++ toString value
  | real value => " " ++ value.text
  | str value => " " ++ Text.quoted value
  | bool value => " " ++ toString value
  | jump op | addOp op | mulOp op | powOp op | cmpOp op => " " ++ opText op
  | _ => ""

end Label

namespace Node

/-- The line of a node by itself. -/
def heading : Node → String
  | tree label _ => label.kindName ++ label.details
  | array isGlobal name _ _ =>
    "ArrayDecl name=" ++ name ++ " is_global=" ++ toString isGlobal

/-- A line of the outline, two blanks to the right for each level. -/
def outlineLine (depth : Nat) (text : String) : String :=
  String.ofList (List.replicate (2 * depth) ' ') ++ text

mutual

/-- The lines of a tree at some depth. The dimensions of an array declaration
stand under a line of their own. -/
def outline (depth : Nat) : Node → List String
  | tree label children =>
    outlineLine depth (heading (tree label children)) :: outlineAll (depth + 1) children
  | array isGlobal name dims children =>
    outlineLine depth (heading (array isGlobal name dims children)) ::
      outlineLine (depth + 1) "dims:" ::
        (outlineAll (depth + 2) dims ++ outlineAll (depth + 1) children)

/-- The lines of a row of trees. -/
def outlineAll (depth : Nat) : List Node → List String
  | [] => []
  | node :: nodes => node.outline depth ++ outlineAll depth nodes

end

/-- The whole outline as a text, every line with its end. -/
def dump (node : Node) : String := String.join ((node.outline 0).map (· ++ "\n"))

end Node

end Pseudocode
