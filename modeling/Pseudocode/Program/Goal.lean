-- The grammar, one token at a time. A goal says what the program has to go on
-- with; together with the token that comes next it says whether that token is
-- taken and what is then to be awaited, whether the goal is done without it,
-- or what is wrong. No goal looks further than one token.
import Pseudocode.Program.Context
import Pseudocode.Program.Operator
import Pseudocode.Program.Spine

namespace Pseudocode

/-! ## Goals -/

/-- What the program has to go on with. -/
inductive Goal where
  | program (ctx : Context)
  | block (ctx : Context) (stops : List TokenKind)
  | token (kind : TokenKind)
  | expression (level : Nat)
  | operators (level : Nat)
  | unary
  | suffixes
  | memberName
  | newClass
  | arguments
  | moreArguments
  | indices
  | chain (isCall isGlobal : Bool)
  | afterGlobal
  | arrayName (isGlobal : Bool)
  | otherBranches (ctx : Context)
  | counter (ctx : Context)
  | counterAgain (name : String)
  | clauses (ctx : Context) (afterDefault : Bool)
  | caseLabel
  | negatedLabel
  | returnValue (ctx : Context) (line : Nat)
  | subroutineName (ctx : Context) (sort : Subroutine)
  | parameters
  | parameter
  | moreParameters
  | passing (name : String)
  | passingMode (name : String)
  | classDeclName (ctx : Context)
  | inheritance (name : String)
  | parentName (name : String)
  | members (ctx : Context)
  | member (ctx : Context) (isPublic : Bool)
  | refusal (diagnostic : Diagnostic)

/-- A goal still to be met, or a step of the construction to be taken. -/
inductive Item where
  | await (goal : Goal)
  | build (step : Step)

/-- What a goal makes of the next token. -/
inductive Reaction where
  | take (items : List Item)
  | leave (steps : List Step)
  | fail (diagnostic : Diagnostic)

namespace Item

/-- Opens a node. -/
def start (label : Label) : Item := build (.start (.tree label))

/-- Opens a node around the newest one. -/
def wrap (label : Label) : Item := build (.wrap (.tree label))

/-- A node without children. -/
def leaf (label : Label) : Item := build (.leaf label)

/-- Closes the innermost open node. -/
def close : Item := build .close

/-- A keyword or a mark. -/
def token (kind : TokenKind) : Item := await (.token kind)

/-- A whole expression. -/
def expression : Item := await (.expression BinaryOperator.lowest)

/-- A block of statements up to one of `stops`, which stays unread. -/
def block (ctx : Context) (stops : List TokenKind) : List Item :=
  [start .block, await (.block ctx stops), close]

/-- Arguments between parentheses. -/
def arguments : List Item :=
  [token .openParen, start .args, await .arguments, close, token .closeParen]

end Item

namespace Reaction

/-- The same reaction with `before` ahead of what is taken up. -/
def wrapped (before : List Item) (after : List Item) : Reaction → Reaction
  | take items => take (before ++ items ++ after)
  | leave steps => leave steps
  | fail diagnostic => fail diagnostic

/-- The same reaction with `after` behind what is taken up. -/
def followed (reaction : Reaction) (after : List Item) : Reaction := reaction.wrapped [] after

/-- Something else has to stand here. -/
def missing (what : Expectation) (token : Token) : Reaction :=
  fail (.expectedAt what token)

/-- The token is taken if nothing speaks against it; otherwise the finding is
given once the token after it has been read. -/
def takeUnless (fault : Option Diagnostic) (items : List Item) : Reaction :=
  match fault with
  | none => take items
  | some diagnostic => take [.await (.refusal diagnostic)]

/-- The reaction if nothing speaks against the token. -/
def guarded (fault : Option Misplacement) (line : Nat) (reaction : Reaction) : Reaction :=
  match fault with
  | none => reaction
  | some what => fail (.misplaced what line)

end Reaction

open Item Reaction

namespace Goal

/-! ## Literals -/

/-- The greatest value of an integer literal. -/
def greatestInt : Nat := 9223372036854775807

/-- The value of a literal, or what is wrong with it. -/
def literalLabel (token : Token) : Except Diagnostic Label :=
  match token.kind with
  | .intLiteral =>
    let value := Decimal.wholeOf token.text.toList
    if value ≤ greatestInt then .ok (.int value)
    else .error (.invalidNumber token.text token.line)
  | .realLiteral =>
    match Binary64.ofNumeral token.text.toList with
    | .finite negative rank => .ok (.real (.finite negative rank))
    | _ => .error (.invalidNumber token.text token.line)
  | .strLiteral => .ok (.str token.unquoted)
  | .boolLiteral => .ok (.bool (token.text = "true"))
  | _ => .error (.expectedAt .literal token)

/-- A literal is taken, and refused afterwards if its value is out of range. -/
def onLiteral (token : Token) : Reaction :=
  match literalLabel token with
  | .ok label => take [leaf label]
  | .error diagnostic => take [await (.refusal diagnostic)]

/-! ## Expressions -/

/-- The start of what suffixes can follow: a name, `super` or a new object. -/
def onBase (token : Token) : Reaction :=
  match token.kind with
  | .identifier => take [leaf (.identifier token.text)]
  | .kwSuper => take [leaf .superObject]
  | .kwNew => take [await .newClass]
  | _ => missing .identifier token

/-- An expression in parentheses, a literal or the start of a chain. -/
def onPrimary (token : Token) : Reaction :=
  match token.kind with
  | .openParen => take [Item.expression, Item.token .closeParen]
  | .intLiteral | .realLiteral | .strLiteral | .boolLiteral => onLiteral token
  | .identifier | .kwSuper | .kwNew => onBase token
  | _ => missing .expression token

/-- A minus takes only what stands right behind it. -/
def onUnary (token : Token) : Reaction :=
  match token.kind with
  | .minus => take [start .negate, await unary, close]
  | _ => (onPrimary token).followed [await suffixes]

/-- An expression of a level. `NOT` takes an operand that binds at least as
tightly as a comparison. -/
def onExpression (level : Nat) (token : Token) : Reaction :=
  match token.kind with
  | .opNot =>
    take [start .logicalNot, await (expression (max level BinaryOperator.aboveNot)), close,
      await (operators level)]
  | _ => (onUnary token).followed [await (operators level)]

/-- The operators of a level or above, each with its right operand. -/
def onOperators (level : Nat) (token : Token) : Reaction :=
  match BinaryOperator.of? token.kind with
  | some op =>
    if level ≤ op.level then
      take [wrap op.label, await (expression op.rightLevel), close, await (operators level)]
    else leave []
  | none => leave []

/-- What a suffix applies to everything before it: a field, an index or a call. -/
def suffix? : TokenKind → Option (List Item)
  | .dot => some [await memberName]
  | .openBracket =>
    some [wrap .index, start .args, await indices, close, Item.token .closeBracket, close]
  | .openParen =>
    some [wrap .call, start .args, await arguments, close, Item.token .closeParen, close]
  | _ => none

/-- Any number of suffixes. -/
def onSuffixes (token : Token) : Reaction :=
  match suffix? token.kind with
  | some items => take (items ++ [await suffixes])
  | none => leave []

/-- The name of a field, or `new` for the constructor. -/
def onMemberName (token : Token) : Reaction :=
  match token.kind with
  | .identifier | .kwNew => take [wrap (.field token.text), close]
  | _ => missing .identifier token

/-- The name of the class of a new object, then the arguments. -/
def onNewClass (token : Token) : Reaction :=
  match token.kind with
  | .identifier => take ([start (.newObject token.text)] ++ Item.arguments ++ [close])
  | _ => missing .identifier token

/-- Arguments up to the closing parenthesis, which stays unread. -/
def onArguments (token : Token) : Reaction :=
  match token.kind with
  | .closeParen => leave []
  | _ => (onExpression BinaryOperator.lowest token).followed [await moreArguments]

/-- Further arguments, each after a comma. -/
def onMoreArguments (token : Token) : Reaction :=
  match token.kind with
  | .comma => take [Item.expression, await moreArguments]
  | _ => leave []

/-- At least one index. -/
def onIndices (token : Token) : Reaction :=
  match token.kind with
  | .closeBracket => missing .expressions token
  | _ => (onExpression BinaryOperator.lowest token).followed [await moreArguments]

/-! ## Assignments, calls and arrays -/

/-- The suffixes of a chain that is a statement, then the value it is assigned.
A chain that ends in a call may stand alone, unless it is global. -/
def onChain (isCall isGlobal : Bool) (token : Token) : Reaction :=
  match suffix? token.kind with
  | some items => take (items ++ [await (chain (token.kind = .openParen) isGlobal)])
  | none =>
    if token.kind = .assign then take [wrap (.assign isGlobal), Item.expression, close]
    else if isCall && !isGlobal then leave []
    else missing (.token .assign) token

/-- The start of a chain that is a statement. -/
def onChainStart (isGlobal : Bool) (token : Token) : Reaction :=
  (onBase token).followed [await (chain (token.kind = .kwNew) isGlobal)]

/-- What can be global: an array or an assignment. -/
def onAfterGlobal (token : Token) : Reaction :=
  match token.kind with
  | .kwArray => take [await (arrayName true)]
  | _ => onChainStart true token

/-- The name of an array, then its dimensions. -/
def onArrayName (isGlobal : Bool) (token : Token) : Reaction :=
  match token.kind with
  | .identifier =>
    take [build (.start (.array isGlobal token.text)), Item.token .openBracket, await indices,
      Item.token .closeBracket, close]
  | _ => missing .identifier token

/-! ## Branches and loops -/

/-- What ends a branch of an `if`. -/
def branchStops : List TokenKind := [.kwElseIf, .kwElse, .kwEndIf]

/-- A condition and its block. -/
def branchItems (ctx : Context) : List Item :=
  [start .branch, Item.expression, Item.token .kwThen] ++ Item.block ctx.inBlock branchStops ++
    [close]

/-- Further branches, then the end of the `if`. -/
def onOtherBranches (ctx : Context) (token : Token) : Reaction :=
  match token.kind with
  | .kwElseIf => take (branchItems ctx ++ [await (otherBranches ctx)])
  | .kwElse =>
    take ([start .elseBranch] ++ Item.block ctx.inBlock [.kwEndIf] ++
      [close, Item.token .kwEndIf])
  | .kwEndIf => take []
  | _ => missing (.token .kwEndIf) token

/-- The counter of a loop, its first and last value, its body, and the counter again. -/
def onCounter (ctx : Context) (token : Token) : Reaction :=
  match token.kind with
  | .identifier =>
    take ([leaf (.identifier token.text), Item.token .assign, Item.expression,
      Item.token .kwTo, Item.expression] ++ Item.block ctx.inLoopBody [.kwNext] ++
      [Item.token .kwNext, await (counterAgain token.text)])
  | _ => missing .identifier token

/-- The counter that the loop began with. -/
def onCounterAgain (name : String) (token : Token) : Reaction :=
  if token.kind = .identifier && token.text = name then take []
  else missing (.nextOf name) token

/-! ## Switches -/

/-- What ends the body of a clause. -/
def clauseStops : List TokenKind := [.kwCase, .kwDefault, .kwEndSwitch]

/-- The body of a clause, then the clauses after it. -/
def clauseItems (ctx : Context) (afterDefault : Bool) : List Item :=
  [Item.token .colon] ++ Item.block ctx.inClause clauseStops ++
    [close, await (clauses ctx afterDefault)]

/-- Clauses up to the end of the `switch`. -/
def onClauses (ctx : Context) (afterDefault : Bool) (token : Token) : Reaction :=
  match token.kind with
  | .kwCase =>
    guarded (ctx.clauseFault afterDefault) token.line
      (take ([start .caseClause, await caseLabel] ++ clauseItems ctx afterDefault))
  | .kwDefault =>
    guarded (ctx.clauseFault afterDefault) token.line
      (take ([start .defaultClause] ++ clauseItems ctx true))
  | .kwEndSwitch => take []
  | .endOfInput => missing (.token .kwEndSwitch) token
  | _ => missing (.token .kwCase) token

/-- A literal, or a minus before a number. -/
def onCaseLabel (token : Token) : Reaction :=
  match token.kind with
  | .minus => take [start .negate, await negatedLabel, close]
  | .intLiteral | .realLiteral | .strLiteral | .boolLiteral => onLiteral token
  | _ => missing .literal token

/-- The number after the minus of a label. -/
def onNegatedLabel (token : Token) : Reaction :=
  match token.kind with
  | .intLiteral | .realLiteral => onLiteral token
  | _ => missing .numericLiteral token

/-! ## Subroutines and classes -/

/-- The keyword of a subroutine has been seen. -/
def onSubroutine (ctx : Context) (sort : Subroutine) (token : Token) : Reaction :=
  guarded ctx.subroutineFault token.line (take [await (subroutineName ctx sort)])

/-- The label of a subroutine. -/
def subroutineLabel : Subroutine → String → Label
  | .function, name => .function name
  | .procedure, name => .procedure name

/-- The name of a subroutine, its parameters and its body. A constructor is
called `new`. -/
def onSubroutineName (ctx : Context) (sort : Subroutine) (token : Token) : Reaction :=
  match token.kind with
  | .identifier | .kwNew =>
    take ([start (subroutineLabel sort token.text), Item.token .openParen, start .params,
      await parameters, close, Item.token .closeParen] ++
      Item.block (ctx.inBody sort) [sort.closing] ++ [Item.token sort.closing, close])
  | _ => missing .identifier token

/-- The name of a parameter, then the way it is passed and further parameters. -/
def onParameter (token : Token) : Reaction :=
  match token.kind with
  | .identifier => take [await (passing token.text), await moreParameters]
  | _ => missing .identifier token

/-- Parameters up to the closing parenthesis, which stays unread. -/
def onParameters (token : Token) : Reaction :=
  match token.kind with
  | .closeParen => leave []
  | _ => onParameter token

/-- Further parameters, each after a comma. -/
def onMoreParameters (token : Token) : Reaction :=
  match token.kind with
  | .comma => take [await parameter]
  | _ => leave []

/-- A colon announces the way a parameter is passed; without it, it is passed
by value. -/
def onPassing (name : String) (token : Token) : Reaction :=
  match token.kind with
  | .colon => take [await (passingMode name)]
  | _ => leave [.leaf (.param false name)]

/-- The way a parameter is passed. -/
def onPassingMode (name : String) (token : Token) : Reaction :=
  match token.kind with
  | .kwByRef => take [leaf (.param true name)]
  | .kwByVal => take [leaf (.param false name)]
  | _ => missing .passing token

/-- The name of a class, its parent if it has one, and its members. -/
def onClassDeclName (ctx : Context) (token : Token) : Reaction :=
  match token.kind with
  | .identifier => take [await (inheritance token.text), await (members ctx), close]
  | _ => missing .identifier token

/-- The parent of a class comes after a keyword. -/
def onInheritance (name : String) (token : Token) : Reaction :=
  match token.kind with
  | .kwInherits => take [await (parentName name)]
  | _ => leave [.start (.tree (.classDecl name none))]

/-- The name of the parent of a class. -/
def onParentName (name : String) (token : Token) : Reaction :=
  match token.kind with
  | .identifier => take [start (.classDecl name (some token.text))]
  | _ => missing .identifier token

/-- A class member: a field or a subroutine. -/
def onMember (ctx : Context) (isPublic : Bool) (token : Token) : Reaction :=
  match token.kind with
  | .kwFunction =>
    (onSubroutine ctx .function token).wrapped [start (.classMember isPublic)] [close]
  | .kwProcedure =>
    (onSubroutine ctx .procedure token).wrapped [start (.classMember isPublic)] [close]
  | .identifier => take [start (.classMember isPublic), leaf (.identifier token.text), close]
  | .endOfInput => missing (.token .kwEndClass) token
  | _ => missing .classMember token

/-- Members up to the end of the class. One without a keyword is private. -/
def onMembers (ctx : Context) (token : Token) : Reaction :=
  match token.kind with
  | .kwEndClass => take []
  | .kwPublic => take [await (member ctx true), await (members ctx)]
  | .kwPrivate => take [await (member ctx false), await (members ctx)]
  | _ => (onMember ctx false token).followed [await (members ctx)]

/-! ## Statements -/

/-- The value of a `return` is there exactly when a token follows on its line. -/
def onReturnValue (ctx : Context) (line : Nat) (token : Token) : Reaction :=
  if token.kind = .endOfInput || token.line ≠ line then leave [.leaf .returnStatement]
  else
    guarded ctx.valueFault line
      ((onExpression BinaryOperator.lowest token).wrapped [start .returnStatement] [close])

/-- A finding about the line of a token. -/
def onLineOf (token : Token) (fault : Option Misplacement) : Option Diagnostic :=
  fault.map (Diagnostic.misplaced · token.line)

/-- The first token of a statement. -/
def onStatement (ctx : Context) (token : Token) : Reaction :=
  match token.kind with
  | .kwGlobal => take [await afterGlobal]
  | .kwArray => take [await (arrayName false)]
  | .identifier | .kwSuper | .kwNew => onChainStart false token
  | .kwIf => take ([start .ifStatement] ++ branchItems ctx ++ [await (otherBranches ctx), close])
  | .kwFor => take [start .forLoop, await (counter ctx), close]
  | .kwWhile =>
    take ([start .whileLoop, Item.expression] ++ Item.block ctx.inLoopBody [.kwEndWhile] ++
      [Item.token .kwEndWhile, close])
  | .kwDo =>
    take ([start .doLoop] ++ Item.block ctx.inLoopBody [.kwUntil] ++
      [Item.token .kwUntil, Item.expression, close])
  | .kwSwitch =>
    take [start .switch, Item.expression, Item.token .colon, await (clauses ctx false), close]
  | .kwFunction => onSubroutine ctx .function token
  | .kwProcedure => onSubroutine ctx .procedure token
  | .kwClass => guarded ctx.classFault token.line (take [await (classDeclName ctx)])
  | .kwPrint =>
    take [start .print, Item.token .openParen, await arguments, Item.token .closeParen, close]
  | .kwReturn =>
    takeUnless (onLineOf token ctx.returnFault) [await (returnValue ctx token.line)]
  | .kwBreak => takeUnless (onLineOf token ctx.breakFault) [leaf (.jump .kwBreak)]
  | .kwContinue => takeUnless (onLineOf token ctx.continueFault) [leaf (.jump .kwContinue)]
  | _ => fail (.unexpected token)

/-- Statements up to one of the stops, which stays unread. The last stop is
what the input lacks when it ends here. -/
def onBlock (ctx : Context) (stops : List TokenKind) (token : Token) : Reaction :=
  if stops.contains token.kind then leave []
  else if token.kind = .endOfInput then
    missing (.token (stops.getLast?.getD .endOfInput)) token
  else (onStatement ctx token).followed [await (block ctx stops)]

/-- Statements up to the end of the input. -/
def onProgram (ctx : Context) (token : Token) : Reaction :=
  if token.kind = .endOfInput then leave []
  else (onStatement ctx token).followed [await (program ctx)]

/-- A keyword or a mark, and nothing else. The end of the input is never taken. -/
def onToken (kind : TokenKind) (token : Token) : Reaction :=
  if token.kind = kind ∧ kind ≠ .endOfInput then take [] else missing (.token kind) token

/-! ## All goals -/

/-- What a goal makes of the next token. -/
def react : Goal → Token → Reaction
  | program ctx => onProgram ctx
  | block ctx stops => onBlock ctx stops
  | token kind => onToken kind
  | expression level => onExpression level
  | operators level => onOperators level
  | unary => onUnary
  | suffixes => onSuffixes
  | memberName => onMemberName
  | newClass => onNewClass
  | arguments => onArguments
  | moreArguments => onMoreArguments
  | indices => onIndices
  | chain isCall isGlobal => onChain isCall isGlobal
  | afterGlobal => onAfterGlobal
  | arrayName isGlobal => onArrayName isGlobal
  | otherBranches ctx => onOtherBranches ctx
  | counter ctx => onCounter ctx
  | counterAgain name => onCounterAgain name
  | clauses ctx afterDefault => onClauses ctx afterDefault
  | caseLabel => onCaseLabel
  | negatedLabel => onNegatedLabel
  | returnValue ctx line => onReturnValue ctx line
  | subroutineName ctx sort => onSubroutineName ctx sort
  | parameters => onParameters
  | parameter => onParameter
  | moreParameters => onMoreParameters
  | passing name => onPassing name
  | passingMode name => onPassingMode name
  | classDeclName ctx => onClassDeclName ctx
  | inheritance name => onInheritance name
  | parentName name => onParentName name
  | members ctx => onMembers ctx
  | member ctx isPublic => onMember ctx isPublic
  | refusal diagnostic => fun _ => fail diagnostic

end Goal

end Pseudocode
