-- What comes of the next token, as rules. A rule says with which tokens it applies
-- and what they bring about; what holds of every reaction is shown rule by rule.
import Pseudocode.Program.Goal

namespace Pseudocode

open Goal Item Reaction

/-- The kinds of token that statements begin with. -/
def Goal.starters : List TokenKind :=
  [.kwGlobal, .kwArray, .identifier, .kwSuper, .kwNew, .kwIf, .kwFor, .kwWhile, .kwDo, .kwSwitch,
    .kwFunction, .kwProcedure, .kwClass, .kwPrint, .kwReturn, .kwBreak, .kwContinue]

/-! ## Openings -/

/-- What a token can be the first one of: what a goal asks for, or a piece with
which several goals begin. -/
inductive Opening where
  | goal (asked : Goal)
  | base
  | primary
  | chain (isGlobal : Bool)
  | subroutine (ctx : Context) (sort : Subroutine)
  | statement (ctx : Context)

namespace Opening

/-- What is made of the next token. -/
def react : Opening → Token → Reaction
  | goal asked => asked.react
  | base => onBase
  | primary => onPrimary
  | chain isGlobal => onChainStart isGlobal
  | subroutine ctx sort => onSubroutine ctx sort
  | statement ctx => onStatement ctx

/-- What is said of the goal, where it is one. -/
def Asks (p : Goal → Prop) : Opening → Prop
  | goal asked => p asked
  | _ => True

/-- The literals with which it can begin. -/
def literals : Opening → List TokenKind
  | primary | goal .caseLabel => [.intLiteral, .realLiteral, .strLiteral, .boolLiteral]
  | goal .negatedLabel => [.intLiteral, .realLiteral]
  | _ => []

/-- The kinds of token that a chain begins with. -/
def bases : List TokenKind := [.identifier, .kwSuper, .kwNew]

/-- The kinds of token that there is a use for, and what is missed instead of any
other one. What can be left asks for nothing. -/
def demand? : Opening → Option (List TokenKind × Expectation)
  | base => some (bases, .identifier)
  | primary => some (.openParen :: primary.literals ++ bases, .expression)
  | goal .memberName | goal (.subroutineName _ _) => some ([.identifier, .kwNew], .identifier)
  | goal .newClass | goal (.arrayName _) | goal (.counter _) | goal .parameter
  | goal (.classDeclName _) | goal (.parentName _) => some ([.identifier], .identifier)
  | goal (.otherBranches _) => some ([.kwElseIf, .kwElse, .kwEndIf], .token .kwEndIf)
  | goal (.clauses _ _) =>
    some ([.kwCase, .kwDefault, .kwEndSwitch, .endOfInput], .token .kwCase)
  | goal .caseLabel => some (.minus :: (goal .caseLabel).literals, .literal)
  | goal .negatedLabel => some ((goal .negatedLabel).literals, .numericLiteral)
  | goal (.passingMode _) => some ([.kwByRef, .kwByVal], .passing)
  | goal (.member _ _) =>
    some ([.kwFunction, .kwProcedure, .identifier, .endOfInput], .classMember)
  | _ => none

/-! ## Rules for a token that is taken -/

/-- The token is taken for what it is, and the items are what is awaited next. -/
inductive Takes (token : Token) : Opening → List Item → Prop
  | name : token.kind = .identifier → Takes token base [leaf (.identifier token.text)]
  | superObject : token.kind = .kwSuper → Takes token base [leaf .superObject]
  | newObject : token.kind = .kwNew → Takes token base [await .newClass]
  | parenthesis : token.kind = .openParen →
      Takes token primary [Item.expression, Item.token .closeParen]
  | minus : token.kind = .minus →
      Takes token (goal .unary) [start .negate, await .unary, close]
  | logicalNot {level} : token.kind = .opNot →
      Takes token (goal (.expression level))
        [start .logicalNot, await (.expression (max level BinaryOperator.aboveNot)), close,
          await (.operators level)]
  | operator {level op} : BinaryOperator.of? token.kind = some op → level ≤ op.level →
      Takes token (goal (.operators level))
        [wrap op.label, await (.expression op.rightLevel), close, await (.operators level)]
  | suffix {items} : suffix? token.kind = some items →
      Takes token (goal .suffixes) (items ++ [await .suffixes])
  | field : token.kind ∈ [.identifier, .kwNew] →
      Takes token (goal .memberName) [wrap (.field token.text), close]
  | newClass : token.kind = .identifier →
      Takes token (goal .newClass) ([start (.newObject token.text)] ++ Item.arguments ++ [close])
  | nextArgument : token.kind = .comma →
      Takes token (goal .moreArguments) [Item.expression, await .moreArguments]
  | chainSuffix {isCall isGlobal items} : suffix? token.kind = some items →
      Takes token (goal (.chain isCall isGlobal))
        (items ++ [await (.chain (token.kind = .openParen) isGlobal)])
  | assign {isCall isGlobal} : token.kind = .assign →
      Takes token (goal (.chain isCall isGlobal))
        [wrap (.assign isGlobal), Item.expression, close]
  | globalArray : token.kind = .kwArray → Takes token (goal .afterGlobal) [await (.arrayName true)]
  | arrayName {isGlobal} : token.kind = .identifier →
      Takes token (goal (.arrayName isGlobal))
        [build (.start (.array isGlobal token.text)), Item.token .openBracket, await .indices,
          Item.token .closeBracket, close]
  | elseIf {ctx} : token.kind = .kwElseIf →
      Takes token (goal (.otherBranches ctx)) (branchItems ctx ++ [await (.otherBranches ctx)])
  | elseBranch {ctx} : token.kind = .kwElse →
      Takes token (goal (.otherBranches ctx))
        ([start .elseBranch] ++ Item.block ctx.inBlock [.kwEndIf] ++
          [close, Item.token .kwEndIf])
  | endIf {ctx} : token.kind = .kwEndIf → Takes token (goal (.otherBranches ctx)) []
  | counter {ctx} : token.kind = .identifier →
      Takes token (goal (.counter ctx))
        ([leaf (.identifier token.text), Item.token .assign, Item.expression, Item.token .kwTo,
          Item.expression] ++ Item.block ctx.inLoopBody [.kwNext] ++
          [Item.token .kwNext, await (.counterAgain token.text)])
  | counterAgain {name} : token.kind = .identifier → token.text = name →
      Takes token (goal (.counterAgain name)) []
  | endSwitch {ctx afterDefault} : token.kind = .kwEndSwitch →
      Takes token (goal (.clauses ctx afterDefault)) []
  | negatedLabel : token.kind = .minus →
      Takes token (goal .caseLabel) [start .negate, await .negatedLabel, close]
  | subroutineName {ctx sort} : token.kind ∈ [.identifier, .kwNew] →
      Takes token (goal (.subroutineName ctx sort))
        ([start (subroutineLabel sort token.text), Item.token .openParen, start .params,
          await .parameters, close, Item.token .closeParen] ++
          Item.block (ctx.inBody sort) [sort.closing] ++ [Item.token sort.closing, close])
  | parameter : token.kind = .identifier →
      Takes token (goal .parameter) [await (.passing token.text), await .moreParameters]
  | nextParameter : token.kind = .comma → Takes token (goal .moreParameters) [await .parameter]
  | passing {name} : token.kind = .colon →
      Takes token (goal (.passing name)) [await (.passingMode name)]
  | byRef {name} : token.kind = .kwByRef →
      Takes token (goal (.passingMode name)) [leaf (.param true name)]
  | byVal {name} : token.kind = .kwByVal →
      Takes token (goal (.passingMode name)) [leaf (.param false name)]
  | classDeclName {ctx} : token.kind = .identifier →
      Takes token (goal (.classDeclName ctx))
        [await (.inheritance token.text), await (.members ctx), close]
  | inheritance {name} : token.kind = .kwInherits →
      Takes token (goal (.inheritance name)) [await (.parentName name)]
  | parentName {name} : token.kind = .identifier →
      Takes token (goal (.parentName name)) [start (.classDecl name (some token.text))]
  | endClass {ctx} : token.kind = .kwEndClass → Takes token (goal (.members ctx)) []
  | publicMember {ctx} : token.kind = .kwPublic →
      Takes token (goal (.members ctx)) [await (.member ctx true), await (.members ctx)]
  | privateMember {ctx} : token.kind = .kwPrivate →
      Takes token (goal (.members ctx)) [await (.member ctx false), await (.members ctx)]
  | fieldMember {ctx isPublic} : token.kind = .identifier →
      Takes token (goal (.member ctx isPublic))
        [start (.classMember isPublic), leaf (.identifier token.text), close]
  | globalStatement {ctx} : token.kind = .kwGlobal →
      Takes token (statement ctx) [await .afterGlobal]
  | array {ctx} : token.kind = .kwArray → Takes token (statement ctx) [await (.arrayName false)]
  | ifStatement {ctx} : token.kind = .kwIf →
      Takes token (statement ctx)
        ([start .ifStatement] ++ branchItems ctx ++ [await (.otherBranches ctx), close])
  | forLoop {ctx} : token.kind = .kwFor →
      Takes token (statement ctx) [start .forLoop, await (.counter ctx), close]
  | whileLoop {ctx} : token.kind = .kwWhile →
      Takes token (statement ctx)
        ([start .whileLoop, Item.expression] ++ Item.block ctx.inLoopBody [.kwEndWhile] ++
          [Item.token .kwEndWhile, close])
  | doLoop {ctx} : token.kind = .kwDo →
      Takes token (statement ctx)
        ([start .doLoop] ++ Item.block ctx.inLoopBody [.kwUntil] ++
          [Item.token .kwUntil, Item.expression, close])
  | switch {ctx} : token.kind = .kwSwitch →
      Takes token (statement ctx)
        [start .switch, Item.expression, Item.token .colon, await (.clauses ctx false), close]
  | print {ctx} : token.kind = .kwPrint →
      Takes token (statement ctx)
        [start .print, Item.token .openParen, await .arguments, Item.token .closeParen, close]
  | mark {kind} : token.kind = kind → kind ≠ .endOfInput → Takes token (goal (.token kind)) []

/-! ## Rules for a token that is left or out of place -/

/-- The goal is met without the token, once the steps have been taken. -/
inductive Leaves (token : Token) : Goal → List Step → Prop
  | program {ctx} : token.kind = .endOfInput → Leaves token (.program ctx) []
  | block {ctx stops} : token.kind ∈ stops → Leaves token (.block ctx stops) []
  | operators {level} : (∀ op, BinaryOperator.of? token.kind = some op → ¬level ≤ op.level) →
      Leaves token (.operators level) []
  | suffixes : suffix? token.kind = none → Leaves token .suffixes []
  | arguments : token.kind = .closeParen → Leaves token .arguments []
  | moreArguments : token.kind ≠ .comma → Leaves token .moreArguments []
  | chain : suffix? token.kind = none → token.kind ≠ .assign → Leaves token (.chain true false) []
  | parameters : token.kind = .closeParen → Leaves token .parameters []
  | moreParameters : token.kind ≠ .comma → Leaves token .moreParameters []
  | passing {name} : token.kind ≠ .colon →
      Leaves token (.passing name) [.leaf (.param false name)]
  | inheritance {name} : token.kind ≠ .kwInherits →
      Leaves token (.inheritance name) [.start (.tree (.classDecl name none))]
  | returnValue {ctx line} : token.kind = .endOfInput ∨ token.line ≠ line →
      Leaves token (.returnValue ctx line) [.leaf .returnStatement]

/-- There is no use for the token, and something else is missed in its place. -/
inductive Lacks (token : Token) : Opening → Expectation → Prop
  | other {opening kinds what} : demand? opening = some (kinds, what) → token.kind ∉ kinds →
      Lacks token opening what
  | indices : token.kind = .closeBracket → Lacks token (goal .indices) .expressions
  | assign {isCall isGlobal} : suffix? token.kind = none → token.kind ≠ .assign →
      (isCall && !isGlobal) = false → Lacks token (goal (.chain isCall isGlobal)) (.token .assign)
  | counterAgain {name} : ¬(token.kind = .identifier ∧ token.text = name) →
      Lacks token (goal (.counterAgain name)) (.nextOf name)
  | endSwitch {ctx afterDefault} : token.kind = .endOfInput →
      Lacks token (goal (.clauses ctx afterDefault)) (.token .kwEndSwitch)
  | endClass {ctx isPublic} : token.kind = .endOfInput →
      Lacks token (goal (.member ctx isPublic)) (.token .kwEndClass)
  | block {ctx stops} : token.kind ∉ stops → token.kind = .endOfInput →
      Lacks token (goal (.block ctx stops)) (.token (stops.getLast?.getD .endOfInput))
  | mark {kind} : ¬(token.kind = kind ∧ kind ≠ .endOfInput) →
      Lacks token (goal (.token kind)) (.token kind)

/-! ## All rules -/

/-- What can come of the token.

* A literal is taken, and refused where its number is out of range.
* Where a statement must not stand, that is found at its keyword, or behind it.
* A piece that begins a goal is followed by the rest of the goal. -/
inductive Reacts (token : Token) : Opening → Reaction → Prop
  | taken {opening items} : Takes token opening items → Reacts token opening (take items)
  | left {asked steps} : Leaves token asked steps → Reacts token (goal asked) (leave steps)
  | lacking {opening what} : Lacks token opening what → Reacts token opening (missing what token)
  | unexpected {ctx} : token.kind ∉ starters →
      Reacts token (statement ctx) (fail (.unexpected token))
  | refusal {d} : Reacts token (goal (.refusal d)) (fail d)
  | literal {opening label} : token.kind ∈ literals opening → literalLabel token = .ok label →
      Reacts token opening (take [leaf label])
  | outOfRange {opening} : token.kind ∈ literals opening →
      literalLabel token = .error (.invalidNumber token.text token.line) →
      Reacts token opening (take [await (.refusal (.invalidNumber token.text token.line))])
  | caseClause {ctx afterDefault} : token.kind = .kwCase →
      Reacts token (goal (.clauses ctx afterDefault))
        (guarded (ctx.clauseFault afterDefault) token.line
          (take ([start .caseClause, await .caseLabel] ++ clauseItems ctx afterDefault)))
  | defaultClause {ctx afterDefault} : token.kind = .kwDefault →
      Reacts token (goal (.clauses ctx afterDefault))
        (guarded (ctx.clauseFault afterDefault) token.line
          (take ([start .defaultClause] ++ clauseItems ctx true)))
  | function {ctx} : token.kind = .kwFunction →
      Reacts token (subroutine ctx .function)
        (guarded ctx.subroutineFault token.line (take [await (.subroutineName ctx .function)]))
  | procedure {ctx} : token.kind = .kwProcedure →
      Reacts token (subroutine ctx .procedure)
        (guarded ctx.subroutineFault token.line (take [await (.subroutineName ctx .procedure)]))
  | classDecl {ctx} : token.kind = .kwClass →
      Reacts token (statement ctx)
        (guarded ctx.classFault token.line (take [await (.classDeclName ctx)]))
  | returnStatement {ctx} : token.kind = .kwReturn →
      Reacts token (statement ctx)
        (takeUnless (onLineOf token ctx.returnFault) [await (.returnValue ctx token.line)])
  | breakStatement {ctx} : token.kind = .kwBreak →
      Reacts token (statement ctx)
        (takeUnless (onLineOf token ctx.breakFault) [leaf (.jump .kwBreak)])
  | continueStatement {ctx} : token.kind = .kwContinue →
      Reacts token (statement ctx)
        (takeUnless (onLineOf token ctx.continueFault) [leaf (.jump .kwContinue)])
  | base {r} : token.kind ∈ bases → Reacts token base r → Reacts token primary r
  | primary {r} : token.kind ≠ .minus → Reacts token primary r →
      Reacts token (goal .unary) (r.followed [await .suffixes])
  | unary {level r} : token.kind ≠ .opNot → Reacts token (goal .unary) r →
      Reacts token (goal (.expression level)) (r.followed [await (.operators level)])
  | arguments {r} : token.kind ≠ .closeParen →
      Reacts token (goal (.expression BinaryOperator.lowest)) r →
      Reacts token (goal .arguments) (r.followed [await .moreArguments])
  | indices {r} : token.kind ≠ .closeBracket →
      Reacts token (goal (.expression BinaryOperator.lowest)) r →
      Reacts token (goal .indices) (r.followed [await .moreArguments])
  | chain {isGlobal r} : Reacts token base r →
      Reacts token (chain isGlobal) (r.followed [await (.chain (token.kind = .kwNew) isGlobal)])
  | globalChain {r} : token.kind ≠ .kwArray → Reacts token (chain true) r →
      Reacts token (goal .afterGlobal) r
  | chainStatement {ctx r} : token.kind ∈ bases → Reacts token (chain false) r →
      Reacts token (statement ctx) r
  | subroutineStatement {ctx sort r} : Reacts token (subroutine ctx sort) r →
      Reacts token (statement ctx) r
  | subroutineMember {ctx sort isPublic r} : Reacts token (subroutine ctx sort) r →
      Reacts token (goal (.member ctx isPublic)) (r.wrapped [start (.classMember isPublic)] [close])
  | unmarkedMember {ctx r} : token.kind ∉ [.kwEndClass, .kwPublic, .kwPrivate] →
      Reacts token (goal (.member ctx false)) r →
      Reacts token (goal (.members ctx)) (r.followed [await (.members ctx)])
  | parameters {r} : token.kind ≠ .closeParen → Reacts token (goal .parameter) r →
      Reacts token (goal .parameters) r
  | returnValue {ctx line r} : token.kind ≠ .endOfInput → token.line = line →
      Reacts token (goal (.expression BinaryOperator.lowest)) r →
      Reacts token (goal (.returnValue ctx line))
        (guarded ctx.valueFault line (r.wrapped [start .returnStatement] [close]))
  | block {ctx stops r} : token.kind ∉ stops → token.kind ≠ .endOfInput →
      Reacts token (statement ctx) r →
      Reacts token (goal (.block ctx stops)) (r.followed [await (.block ctx stops)])
  | program {ctx r} : token.kind ≠ .endOfInput → Reacts token (statement ctx) r →
      Reacts token (goal (.program ctx)) (r.followed [await (.program ctx)])

end Opening

end Pseudocode
