-- What the front end finds wrong with a file or a program, as causes, and the
-- wording of each cause in one place.
import Pseudocode.Token.Basic

namespace Pseudocode

/-! ## Causes -/

/-- Why an input cannot be taken as a file at all. -/
inductive FileFault where
  | missing (path : String)
  | directory (path : String)
  | other (text : String)
  deriving Repr, DecidableEq

/-- Why reading a file fails. -/
inductive ReadFault where
  | notFound
  | throughFile
  | notUtf8
  | other (text : String)
  deriving Repr, DecidableEq

/-- What a program would have to go on with. -/
inductive Expectation where
  | token (kind : TokenKind)
  | nextOf (counter : String)
  | passing
  | identifier
  | expression
  | expressions
  | literal
  | numericLiteral
  | classMember
  | other (text : String)
  deriving Repr, DecidableEq

/-- A construct that is well formed but must not stand where it does. -/
inductive Misplacement where
  | breakOutside
  | continueOutside
  | returnOutside
  | procedureValue
  | nestedSubroutine
  | nestedClass
  | clauseAfterDefault
  | other (text : String)
  deriving Repr, DecidableEq

/-- A failure of the front end. Those that concern the program carry a line. -/
inductive Diagnostic where
  | file (fault : FileFault)
  | reading (fault : ReadFault)
  | unknownToken (text : String) (line : Nat)
  | unterminatedString (line : Nat)
  | invalidNumber (text : String) (line : Nat)
  | expected (what : Expectation) (found : String) (line : Nat)
  | unexpectedToken (text : String) (line : Nat)
  | misplaced (what : Misplacement) (line : Nat)
  deriving Repr, DecidableEq

/-! ## Wording -/

/-- A text in single quotes. -/
def inQuotes (text : String) : String := "'" ++ text ++ "'"

namespace FileFault

/-- The wording, which names the path. -/
def text : FileFault → String
  | missing path => "Input file does not exist: " ++ path
  | directory path => path ++ " is a directory"
  | other text => text

end FileFault

namespace ReadFault

/-- The wording that the system has for it. -/
def text : ReadFault → String
  | notFound => "No such file or directory (os error 2)"
  | throughFile => "Not a directory (os error 20)"
  | notUtf8 => "stream did not contain valid UTF-8"
  | other text => text

end ReadFault

namespace Expectation

/-- Spellings stand in quotes, descriptions do not. -/
def text : Expectation → String
  | token kind => inQuotes kind.display
  | nextOf counter => inQuotes (TokenKind.kwNext.display ++ " " ++ counter)
  | passing => inQuotes TokenKind.kwByRef.display ++ " or " ++ inQuotes TokenKind.kwByVal.display
  | identifier => "identifier"
  | expression => "expression"
  | expressions => "list of expressions"
  | literal => "literal"
  | numericLiteral => "numeric literal"
  | classMember => "class member"
  | other text => text

end Expectation

namespace Misplacement

/-- The rule that is broken. -/
def text : Misplacement → String
  | breakOutside => "break outside of loop or switch"
  | continueOutside => "continue outside of loop"
  | returnOutside => "return outside of function or procedure"
  | procedureValue => "procedure cannot return a value"
  | nestedSubroutine => "nested subroutine declaration not allowed"
  | nestedClass => "nested class declaration not allowed"
  | clauseAfterDefault => "default must be the last clause of a switch"
  | other text => text

end Misplacement

namespace Diagnostic

/-- The message, without the line. -/
def message : Diagnostic → String
  | file fault => "File read error: " ++ fault.text
  | reading fault => "I/O error: " ++ fault.text
  | unknownToken text _ => "Syntax error: unknown token " ++ inQuotes text
  | unterminatedString _ => "Syntax error: unterminated string literal"
  | invalidNumber text _ => "Syntax error: invalid number " ++ inQuotes text
  | expected what _ _ => "Syntax error: " ++ what.text ++ " expected"
  | unexpectedToken text _ => "Syntax error: unexpected token " ++ inQuotes text
  | misplaced what _ => "Syntax error: " ++ what.text

/-- The line of a failure that concerns the program. -/
def line? : Diagnostic → Option Nat
  | file _ | reading _ => none
  | unknownToken _ line | unterminatedString line | invalidNumber _ line | expected _ _ line
  | unexpectedToken _ line | misplaced _ line => some line

/-- The message after its line, if it has one. -/
def report (d : Diagnostic) : String :=
  match d.line? with
  | some line => "line " ++ toString line ++ ": " ++ d.message
  | none => d.message

/-- A token stands where something else has to. -/
def expectedAt (what : Expectation) (token : Token) : Diagnostic :=
  expected what token.display token.line

/-- A token stands where no token of its kind can. -/
def unexpected (token : Token) : Diagnostic := unexpectedToken token.display token.line

end Diagnostic

end Pseudocode
