-- Where in a program a statement stands, and which statements may stand there.
import Pseudocode.Diagnostic

namespace Pseudocode

/-- The two sorts of subroutines; only a function gives a value back. -/
inductive Subroutine where
  | function
  | procedure
  deriving Repr, DecidableEq

namespace Subroutine

/-- The keyword that ends a subroutine. -/
def closing : Subroutine → TokenKind
  | function => .kwEndFunction
  | procedure => .kwEndProcedure

end Subroutine

/-- The constructs around a statement. Where the rules of placement are not
`enforced`, every statement may stand everywhere. -/
structure Context where
  enforced : Bool
  nested : Bool
  subroutine : Option Subroutine
  inLoop : Bool
  inSwitch : Bool
  deriving Repr, DecidableEq

namespace Context

/-! ## Places -/

/-- Outside of everything. -/
def top (enforced : Bool) : Context := ⟨enforced, false, none, false, false⟩

/-- In a block of statements. -/
def inBlock (ctx : Context) : Context := { ctx with nested := true }

/-- In the body of a loop. -/
def inLoopBody (ctx : Context) : Context := { ctx.inBlock with inLoop := true }

/-- In the body of a clause of a `switch`. -/
def inClause (ctx : Context) : Context := { ctx.inBlock with inSwitch := true }

/-- In the body of a subroutine. -/
def inBody (ctx : Context) (subroutine : Subroutine) : Context :=
  { ctx.inBlock with subroutine := some subroutine }

/-! ## Rules -/

/-- What speaks against a `break`: it leaves a loop or a `switch`. -/
def breakFault (ctx : Context) : Option Misplacement :=
  if ctx.enforced && !ctx.inLoop && !ctx.inSwitch then some .breakOutside else none

/-- What speaks against a `continue`: it needs a loop. -/
def continueFault (ctx : Context) : Option Misplacement :=
  if ctx.enforced && !ctx.inLoop then some .continueOutside else none

/-- What speaks against a `return`: it needs a subroutine. -/
def returnFault (ctx : Context) : Option Misplacement :=
  if ctx.enforced && ctx.subroutine = none then some .returnOutside else none

/-- What speaks against a value after `return`: a procedure gives none back. -/
def valueFault (ctx : Context) : Option Misplacement :=
  if ctx.enforced && ctx.subroutine = some .procedure then some .procedureValue else none

/-- What speaks against a subroutine: it must not stand in a block. -/
def subroutineFault (ctx : Context) : Option Misplacement :=
  if ctx.enforced && ctx.nested then some .nestedSubroutine else none

/-- What speaks against a class: it must not stand in a block. -/
def classFault (ctx : Context) : Option Misplacement :=
  if ctx.enforced && ctx.nested then some .nestedClass else none

/-- What speaks against a further clause of a `switch`: the default is the last one. -/
def clauseFault (ctx : Context) (afterDefault : Bool) : Option Misplacement :=
  if ctx.enforced && afterDefault then some .clauseAfterDefault else none

end Context

end Pseudocode
