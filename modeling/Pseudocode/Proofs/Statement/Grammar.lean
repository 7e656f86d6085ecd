-- The grammar of statements, without separators between them. Two rules look
-- beyond a statement or its kinds of token: a `return` has a value exactly when
-- a token follows on its line, and a `for` ends with the counter it began with.
import Pseudocode.Program.Context
import Pseudocode.Proofs.Expression.Grammar

namespace Pseudocode

namespace Subroutine

/-- The keyword that begins a subroutine. -/
def opening : Subroutine → TokenKind
  | function => .kwFunction
  | procedure => .kwProcedure

/-- The keyword that a subroutine ends with. -/
def ending : Subroutine → TokenKind
  | function => .kwEndFunction
  | procedure => .kwEndProcedure

/-- The label of a subroutine of some name. -/
def label : Subroutine → String → Label
  | function, name => .function name
  | procedure, name => .procedure name

end Subroutine

namespace Construct

/-! ## Parts of statements -/

/-- A keyword that may be there or not. -/
inductive Marked (kind : TokenKind) : Bool → List Token → List Token → Prop
  | present {token ts} : token.kind = kind → Marked kind true (token :: ts) ts
  | absent {ts} : Marked kind false ts ts

/-- How a class member is seen from outside: only `public` makes it public. -/
inductive Visibility : Bool → List Token → List Token → Prop
  | shown {token ts} : token.kind = .kwPublic → Visibility true (token :: ts) ts
  | hidden {token ts} : token.kind = .kwPrivate → Visibility false (token :: ts) ts
  | unsaid {ts} : Visibility false ts ts

/-- The parent of a class, if it has one. -/
inductive Parent : Option String → List Token → List Token → Prop
  | inherited {inherits name ts} : inherits.kind = .kwInherits → name.kind = .identifier →
      Parent (some name.text) (inherits :: name :: ts) ts
  | none {ts} : Parent none ts ts

/-- The label of a case: a literal, or a minus and a number. -/
inductive CaseLabel : List Token → Node → List Token → Prop
  | literal {token ts label} : Phrase.Literal token label →
      CaseLabel (token :: ts) (.tree label []) ts
  | negated {minus token ts label} : minus.kind = .minus →
      token.kind = .intLiteral ∨ token.kind = .realLiteral →
      Phrase.Literal token label →
      CaseLabel (minus :: token :: ts) (.tree .negate [.tree label []]) ts

/-- How a parameter is passed: by value if nothing is said. -/
inductive Passing : Bool → List Token → List Token → Prop
  | byRef {colon mode ts} : colon.kind = .colon → mode.kind = .kwByRef →
      Passing true (colon :: mode :: ts) ts
  | byVal {colon mode ts} : colon.kind = .colon → mode.kind = .kwByVal →
      Passing false (colon :: mode :: ts) ts
  | unsaid {ts} : Passing false ts ts

/-- At least one parameter, with commas between them. -/
inductive SomeParameters : List Token → List Node → List Token → Prop
  | last {name ts us byRef} : name.kind = .identifier → Passing byRef ts us →
      SomeParameters (name :: ts) [.tree (.param byRef name.text) []] us
  | more {name comma ts us vs byRef ns} : name.kind = .identifier →
      Passing byRef ts (comma :: us) → comma.kind = .comma → SomeParameters us ns vs →
      SomeParameters (name :: ts) (.tree (.param byRef name.text) [] :: ns) vs

/-- Any number of parameters. -/
inductive Parameters : List Token → List Node → List Token → Prop
  | none {ts} : Parameters ts [] ts
  | some {ts us ns} : SomeParameters ts ns us → Parameters ts ns us

end Construct

/-! ## Statements -/

/-- What a program is made of.

* `otherBranches`: what follows the first branch of an `if`, up to its end.
* `clauses afterDefault`: the clauses of a `switch` up to its end.
* `members`: the members of a class up to its end. -/
inductive Construct where
  | statement
  | statements
  | otherBranches
  | clauses (afterDefault : Bool)
  | subroutine
  | members

namespace Construct

/-- A block of statements as a node. -/
abbrev blockOf (ns : List Node) : Node := .tree .block ns

/-- A whole expression. -/
abbrev Whole (ts : List Token) (e : Node) (us : List Token) : Prop :=
  Phrase.Derives (.expression Phrase.lowestLevel) ts [e] us

/-- The tokens begin with the construct, which stands for the nodes, and the
last tokens are what follows it. Where the clauses of a `switch` are
`ordered`, no clause comes after the default one. -/
inductive Derives (ordered : Bool) : Construct → List Token → List Node → List Token → Prop
  | array {isGlobal keyword name opening closing ts us vs es} :
      Marked .kwGlobal isGlobal ts (keyword :: name :: opening :: us) →
      keyword.kind = .kwArray → name.kind = .identifier → opening.kind = .openBracket →
      Phrase.Derives .expressions us es (closing :: vs) → closing.kind = .closeBracket →
      Derives ordered statement ts [.array isGlobal name.text es []] vs
  | assign {isGlobal equals ts us vs ws target value} :
      Marked .kwGlobal isGlobal ts us →
      Phrase.Derives (.chain false) us [target] (equals :: vs) → equals.kind = .assign →
      Whole vs value ws →
      Derives ordered statement ts [.tree (.assign isGlobal) [target, value]] ws
  | call {ts us e} : Phrase.Derives (.chain false) ts [e] us → e.isCall = true →
      Derives ordered statement ts [e] us
  | ifStatement {opening thenWord ts us vs ws c ns bs} : opening.kind = .kwIf →
      Whole ts c (thenWord :: us) → thenWord.kind = .kwThen →
      Derives ordered statements us ns vs → Derives ordered otherBranches vs bs ws →
      Derives ordered statement (opening :: ts)
        [.tree .ifStatement (.tree .branch [c, blockOf ns] :: bs)] ws
  | forLoop {opening name equals toWord nextWord again ts us vs ws first last ns} :
      opening.kind = .kwFor → name.kind = .identifier → equals.kind = .assign →
      Whole ts first (toWord :: us) → toWord.kind = .kwTo → Whole us last vs →
      Derives ordered statements vs ns (nextWord :: again :: ws) → nextWord.kind = .kwNext →
      again.kind = .identifier → again.text = name.text →
      Derives ordered statement (opening :: name :: equals :: ts)
        [.tree .forLoop [.tree (.identifier name.text) [], first, last, blockOf ns]] ws
  | whileLoop {opening closing ts us vs c ns} : opening.kind = .kwWhile →
      Whole ts c us → Derives ordered statements us ns (closing :: vs) →
      closing.kind = .kwEndWhile →
      Derives ordered statement (opening :: ts) [.tree .whileLoop [c, blockOf ns]] vs
  | doLoop {opening untilWord ts us vs c ns} : opening.kind = .kwDo →
      Derives ordered statements ts ns (untilWord :: us) → untilWord.kind = .kwUntil →
      Whole us c vs →
      Derives ordered statement (opening :: ts) [.tree .doLoop [blockOf ns, c]] vs
  | switch {opening colon ts us vs e cs} : opening.kind = .kwSwitch →
      Whole ts e (colon :: us) → colon.kind = .colon → Derives ordered (clauses false) us cs vs →
      Derives ordered statement (opening :: ts) [.tree .switch (e :: cs)] vs
  | print {keyword opening closing ts us es} : keyword.kind = .kwPrint →
      opening.kind = .openParen → Phrase.Derives .arguments ts es (closing :: us) →
      closing.kind = .closeParen →
      Derives ordered statement (keyword :: opening :: ts) [.tree .print es] us
  | jump {keyword ts} : keyword.kind = .kwBreak ∨ keyword.kind = .kwContinue →
      Derives ordered statement (keyword :: ts) [.tree (.jump keyword.kind) []] ts
  | returnNothing {keyword ts} : keyword.kind = .kwReturn →
      (∀ next ∈ ts.head?, next.kind ≠ .endOfInput → next.line ≠ keyword.line) →
      Derives ordered statement (keyword :: ts) [.tree .returnStatement []] ts
  | returnValue {keyword next ts us e} : keyword.kind = .kwReturn → next.line = keyword.line →
      Whole (next :: ts) e us →
      Derives ordered statement (keyword :: next :: ts) [.tree .returnStatement [e]] us
  | ofSubroutine {ts us n} : Derives ordered subroutine ts [n] us →
      Derives ordered statement ts [n] us
  | classDecl {keyword name parent ts us vs ms} : keyword.kind = .kwClass →
      name.kind = .identifier → Parent parent ts us → Derives ordered members us ms vs →
      Derives ordered statement (keyword :: name :: ts) [.tree (.classDecl name.text parent) ms] vs
  | noStatement {ts} : Derives ordered statements ts [] ts
  | oneMore {ts us vs n ns} : Derives ordered statement ts [n] us →
      Derives ordered statements us ns vs → Derives ordered statements ts (n :: ns) vs
  | endIf {closing ts} : closing.kind = .kwEndIf →
      Derives ordered otherBranches (closing :: ts) [] ts
  | elseBranch {keyword closing ts us ns} : keyword.kind = .kwElse →
      Derives ordered statements ts ns (closing :: us) → closing.kind = .kwEndIf →
      Derives ordered otherBranches (keyword :: ts) [.tree .elseBranch [blockOf ns]] us
  | elseIf {keyword thenWord ts us vs ws c ns bs} : keyword.kind = .kwElseIf →
      Whole ts c (thenWord :: us) → thenWord.kind = .kwThen →
      Derives ordered statements us ns vs → Derives ordered otherBranches vs bs ws →
      Derives ordered otherBranches (keyword :: ts) (.tree .branch [c, blockOf ns] :: bs) ws
  | endSwitch {afterDefault closing ts} : closing.kind = .kwEndSwitch →
      Derives ordered (clauses afterDefault) (closing :: ts) [] ts
  | caseClause {afterDefault keyword colon ts us vs ws label ns cs} : keyword.kind = .kwCase →
      (afterDefault = true → ordered = false) → CaseLabel ts label (colon :: us) →
      colon.kind = .colon → Derives ordered statements us ns vs →
      Derives ordered (clauses afterDefault) vs cs ws →
      Derives ordered (clauses afterDefault) (keyword :: ts)
        (.tree .caseClause [label, blockOf ns] :: cs) ws
  | defaultClause {afterDefault keyword colon ts us vs ns cs} : keyword.kind = .kwDefault →
      (afterDefault = true → ordered = false) → colon.kind = .colon →
      Derives ordered statements ts ns us → Derives ordered (clauses true) us cs vs →
      Derives ordered (clauses afterDefault) (keyword :: colon :: ts)
        (.tree .defaultClause [blockOf ns] :: cs) vs
  | ofSort {sort : Subroutine} {keyword name opening closing ending ts us vs ps ns} :
      keyword.kind = sort.opening → name.kind = .identifier ∨ name.kind = .kwNew →
      opening.kind = .openParen → Parameters ts ps (closing :: us) →
      closing.kind = .closeParen → Derives ordered statements us ns (ending :: vs) →
      ending.kind = sort.ending →
      Derives ordered subroutine (keyword :: name :: opening :: ts)
        [.tree (sort.label name.text) [.tree .params ps, blockOf ns]] vs
  | endClass {closing ts} : closing.kind = .kwEndClass →
      Derives ordered members (closing :: ts) [] ts
  | field {isPublic name ts us vs ms} : Visibility isPublic ts (name :: us) →
      name.kind = .identifier → Derives ordered members us ms vs →
      Derives ordered members ts
        (.tree (.classMember isPublic) [.tree (.identifier name.text) []] :: ms) vs
  | method {isPublic ts us vs ws n ms} : Visibility isPublic ts us →
      Derives ordered subroutine us [n] vs → Derives ordered members vs ms ws →
      Derives ordered members ts (.tree (.classMember isPublic) [n] :: ms) ws

end Construct

/-! ## Programs -/

/-- The tokens are a row of statements, which is the program. -/
def DerivesProgram (ordered : Bool) (tokens : List Token) (program : Node) : Prop :=
  ∃ ns, program = .tree .program ns ∧ Construct.Derives ordered .statements tokens ns []

/-! ## The rules of placement -/

namespace Label

/-- What is around the children of a node. -/
def inside (ctx : Context) : Label → Context
  | block => ctx.inBlock
  | forLoop | whileLoop | doLoop => ctx.inLoopBody
  | caseClause | defaultClause => ctx.inClause
  | function _ => ctx.inBody .function
  | procedure _ => ctx.inBody .procedure
  | _ => ctx

/-- What speaks against a node where it stands. A `return` has a value if it
has a child. -/
def misplacement (ctx : Context) (children : List Node) : Label → Option Misplacement
  | jump .kwBreak => ctx.breakFault
  | jump _ => ctx.continueFault
  | returnStatement => ctx.returnFault.or (if children.isEmpty then none else ctx.valueFault)
  | function _ | procedure _ => ctx.subroutineFault
  | classDecl _ _ => ctx.classFault
  | _ => none

end Label

namespace Node

mutual

/-- Whether nothing speaks against the places of a node and of all below it. -/
def placed (ctx : Context) : Node → Bool
  | tree label children =>
    (label.misplacement ctx children).isNone && placedAll (label.inside ctx) children
  | array _ _ _ _ => true

/-- Whether nothing speaks against the places of a row of nodes. -/
def placedAll (ctx : Context) : List Node → Bool
  | [] => true
  | node :: nodes => node.placed ctx && placedAll ctx nodes

end

end Node

end Pseudocode
