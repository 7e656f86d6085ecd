-- A tree under construction: the open nodes from the innermost one outwards,
-- each with the children it has so far.
import Pseudocode.Tree.Node

namespace Pseudocode

/-- What an open node becomes once its children are known. -/
inductive Shape where
  | tree (label : Label)
  | array (isGlobal : Bool) (name : String)

/-- The node of a shape. What an array declaration collects are its dimensions. -/
def Shape.node : Shape → List Node → Node
  | tree label, parts => .tree label parts
  | array isGlobal name, parts => .array isGlobal name parts []

/-- The finished children of the innermost open node, and each open node with
the finished children of the node around it. The newest child comes first. -/
structure Spine where
  built : List Node
  opened : List (Shape × List Node)

/-- A step of the construction. -/
inductive Step where
  | leaf (label : Label)
  | start (shape : Shape)
  | wrap (shape : Shape)
  | close

namespace Spine

/-- Nothing built and nothing open. -/
def empty : Spine := ⟨[], []⟩

/-- What has been built, in order. -/
def nodes (spine : Spine) : List Node := spine.built.reverse

/-- Adds a finished child. -/
def add (spine : Spine) (node : Node) : Spine := { spine with built := node :: spine.built }

/-- Opens a node without children. -/
def start (spine : Spine) (shape : Shape) : Spine := ⟨[], (shape, spine.built) :: spine.opened⟩

/-- Opens a node around the newest child. -/
def wrap (spine : Spine) (shape : Shape) : Spine :=
  match spine.built with
  | [] => spine.start shape
  | node :: older => ⟨[node], (shape, older) :: spine.opened⟩

/-- Closes the innermost open node. -/
def close (spine : Spine) : Spine :=
  match spine.opened with
  | [] => spine
  | (shape, older) :: outer => ⟨shape.node spine.nodes :: older, outer⟩

/-- Takes a step. -/
def step (spine : Spine) : Step → Spine
  | .leaf label => spine.add (.tree label [])
  | .start shape => spine.start shape
  | .wrap shape => spine.wrap shape
  | .close => spine.close

/-- Takes steps in order. -/
def steps (spine : Spine) (steps : List Step) : Spine := steps.foldl step spine

/-! ## Steps in order -/

@[simp] theorem steps_nil (spine : Spine) : spine.steps [] = spine := rfl

@[simp] theorem steps_cons (spine : Spine) (step : Step) (others : List Step) :
    spine.steps (step :: others) = (spine.step step).steps others := rfl

end Spine

end Pseudocode
