-- The kinds of tokens, the fixed spelling of each keyword and operator, and
-- the look-up of a kind by its spelling.

namespace Pseudocode

/-- What a token is: a name or a literal, a keyword, an operator or a mark, or
the end of the input. -/
inductive TokenKind where
  | identifier | intLiteral | realLiteral | strLiteral | boolLiteral
  | kwGlobal | kwArray | kwIf | kwThen | kwElseIf | kwElse | kwEndIf | kwFor | kwTo
  | kwNext | kwWhile | kwEndWhile | kwDo | kwUntil | kwSwitch | kwCase | kwDefault
  | kwEndSwitch | kwFunction | kwEndFunction | kwProcedure | kwEndProcedure | kwReturn
  | kwClass | kwInherits | kwEndClass | kwPrivate | kwPublic | kwNew | kwSuper | kwPrint
  | kwBreak | kwContinue | kwByRef | kwByVal
  | opAnd | opOr | opNot | opDiv | opMod | assign | equal | notEqual | less | greater
  | lessEqual | greaterEqual | plus | minus | times | divide | power | openParen
  | closeParen | openBracket | closeBracket | comma | dot | colon
  | endOfInput
  deriving Repr, DecidableEq

namespace TokenKind

/-! ## Spelling -/

/-- The spelling of a keyword, an operator or a mark; names, literals and the
end of the input have no fixed one. -/
def text? : TokenKind → Option String
  | kwGlobal => some "global"
  | kwArray => some "array"
  | kwIf => some "if"
  | kwThen => some "then"
  | kwElseIf => some "elseif"
  | kwElse => some "else"
  | kwEndIf => some "endif"
  | kwFor => some "for"
  | kwTo => some "to"
  | kwNext => some "next"
  | kwWhile => some "while"
  | kwEndWhile => some "endwhile"
  | kwDo => some "do"
  | kwUntil => some "until"
  | kwSwitch => some "switch"
  | kwCase => some "case"
  | kwDefault => some "default"
  | kwEndSwitch => some "endswitch"
  | kwFunction => some "function"
  | kwEndFunction => some "endfunction"
  | kwProcedure => some "procedure"
  | kwEndProcedure => some "endprocedure"
  | kwReturn => some "return"
  | kwClass => some "class"
  | kwInherits => some "inherits"
  | kwEndClass => some "endclass"
  | kwPrivate => some "private"
  | kwPublic => some "public"
  | kwNew => some "new"
  | kwSuper => some "super"
  | kwPrint => some "print"
  | kwBreak => some "break"
  | kwContinue => some "continue"
  | kwByRef => some "byRef"
  | kwByVal => some "byVal"
  | opAnd => some "AND"
  | opOr => some "OR"
  | opNot => some "NOT"
  | opDiv => some "DIV"
  | opMod => some "MOD"
  | assign => some "="
  | equal => some "=="
  | notEqual => some "!="
  | less => some "<"
  | greater => some ">"
  | lessEqual => some "<="
  | greaterEqual => some ">="
  | plus => some "+"
  | minus => some "-"
  | times => some "*"
  | divide => some "/"
  | power => some "^"
  | openParen => some "("
  | closeParen => some ")"
  | openBracket => some "["
  | closeBracket => some "]"
  | comma => some ","
  | dot => some "."
  | colon => some ":"
  | _ => none

/-- Every kind with a fixed spelling. -/
def spelled : List TokenKind := [
  .kwGlobal, .kwArray, .kwIf, .kwThen, .kwElseIf, .kwElse, .kwEndIf, .kwFor, .kwTo, .kwNext,
  .kwWhile, .kwEndWhile, .kwDo, .kwUntil, .kwSwitch, .kwCase, .kwDefault, .kwEndSwitch,
  .kwFunction, .kwEndFunction, .kwProcedure, .kwEndProcedure, .kwReturn, .kwClass, .kwInherits,
  .kwEndClass, .kwPrivate, .kwPublic, .kwNew, .kwSuper, .kwPrint, .kwBreak, .kwContinue,
  .kwByRef, .kwByVal, .opAnd, .opOr, .opNot, .opDiv, .opMod, .assign, .equal, .notEqual, .less,
  .greater, .lessEqual, .greaterEqual, .plus, .minus, .times, .divide, .power, .openParen,
  .closeParen, .openBracket, .closeBracket, .comma, .dot, .colon]

/-- The kind with the given spelling. -/
def ofText? (text : String) : Option TokenKind :=
  spelled.find? fun kind => kind.text? = some text

/-- The spelling of a kind, empty where it has none. -/
def spelling (kind : TokenKind) : String := kind.text?.getD ""

/-- What a diagnostic calls a kind. -/
def display (kind : TokenKind) : String :=
  match kind with
  | identifier => "identifier"
  | intLiteral => "integer literal"
  | realLiteral => "real literal"
  | strLiteral => "string literal"
  | boolLiteral => "boolean literal"
  | endOfInput => "end of input"
  | kind => kind.spelling

/-- The kinds that stand for a value by themselves. -/
def isLiteral : TokenKind → Bool
  | intLiteral | realLiteral | strLiteral | boolLiteral => true
  | _ => false

/-! ## The two directions of the spelling -/

theorem mem_spelled {kind : TokenKind} {text : String} (h : kind.text? = some text) :
    kind ∈ spelled := by
  cases kind <;> simp only [text?, reduceCtorEq] at h <;> decide

theorem ofText?_text? : ∀ kind ∈ spelled, kind.text?.bind ofText? = some kind := by
  decide +kernel

/-- A spelling belongs to one kind only. -/
theorem ofText?_eq_some_iff {text : String} {kind : TokenKind} :
    ofText? text = some kind ↔ kind.text? = some text := by
  constructor
  · intro h
    simpa using List.find?_some h
  · intro h
    simpa [h] using ofText?_text? kind (mem_spelled h)

end TokenKind

end Pseudocode
