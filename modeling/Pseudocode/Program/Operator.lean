-- The binary operators: how tightly each one binds and which node it makes.
import Pseudocode.Tree.Node

namespace Pseudocode

/-- A binary operator. Its left operand has its own `level`, its right operand
`rightLevel`: one more where the operator groups to the left, the same where
it groups to the right. -/
structure BinaryOperator where
  level : Nat
  rightLevel : Nat
  label : Label

namespace BinaryOperator

/-- The level of a whole expression. -/
def lowest : Nat := 1

/-- The level below which `NOT` takes no operand. -/
def aboveNot : Nat := 4

/-- The binary operator that a kind of token stands for, if it is one. -/
def of? : TokenKind → Option BinaryOperator
  | .opOr => some ⟨1, 2, .addOp .opOr⟩
  | .opAnd => some ⟨2, 3, .mulOp .opAnd⟩
  | .equal => some ⟨4, 5, .cmpOp .equal⟩
  | .notEqual => some ⟨4, 5, .cmpOp .notEqual⟩
  | .less => some ⟨4, 5, .cmpOp .less⟩
  | .greater => some ⟨4, 5, .cmpOp .greater⟩
  | .lessEqual => some ⟨4, 5, .cmpOp .lessEqual⟩
  | .greaterEqual => some ⟨4, 5, .cmpOp .greaterEqual⟩
  | .plus => some ⟨5, 6, .addOp .plus⟩
  | .minus => some ⟨5, 6, .addOp .minus⟩
  | .times => some ⟨6, 7, .mulOp .times⟩
  | .divide => some ⟨6, 7, .mulOp .divide⟩
  | .opDiv => some ⟨6, 7, .mulOp .opDiv⟩
  | .opMod => some ⟨6, 7, .mulOp .opMod⟩
  | .power => some ⟨7, 7, .powOp .power⟩
  | _ => none

end BinaryOperator

end Pseudocode
