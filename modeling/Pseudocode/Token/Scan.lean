-- The tokens of a line, and of many lines: blanks and comments fall away, and
-- the first fragment that is no token ends the scan.
import Pseudocode.Token.Fragment

namespace Pseudocode

open Text

/-- A kind with the text that has it, without a line. -/
structure Lexeme where
  kind : TokenKind
  text : String
  deriving Repr, DecidableEq

namespace Lexeme

/-- A fragment with its kind. -/
def ofFragment (fragment : List Char) : Except Fragment.Fault Lexeme :=
  match Fragment.classify? (String.ofList fragment) with
  | some kind => .ok ⟨kind, String.ofList fragment⟩
  | none => .error (.unknown (String.ofList fragment))

/-- The token that stands on a line. -/
def onLine (lexeme : Lexeme) (line : Nat) : Token := ⟨lexeme.kind, lexeme.text, line⟩

/-- The lexemes of a line from some place on. The first `skip` characters
belong to the fragment before. -/
def scanFrom : Nat → List Char → Except Fragment.Fault (List Lexeme)
  | _, [] => .ok []
  | skip + 1, _ :: cs => scanFrom skip cs
  | 0, c :: cs =>
    if isBlank c then scanFrom 0 cs
    else if c = '/' && cs.head? = some '/' then .ok []
    else do
      let fragment ← Fragment.read c cs
      let lexeme ← ofFragment fragment
      let others ← scanFrom (fragment.length - 1) cs
      return lexeme :: others

/-- The lexemes of a line. -/
def scan (line : String) : Except Fragment.Fault (List Lexeme) := scanFrom 0 line.toList

end Lexeme

namespace Token

/-- The tokens of the text that is line number `line`. -/
def scanLine (line : Nat) (text : String) : Except Diagnostic (List Token) :=
  match Lexeme.scan text with
  | .ok lexemes => .ok (lexemes.map (·.onLine line))
  | .error fault => .error (fault.onLine line)

/-- The tokens of lines of which `line` lines come before. -/
def scanAfter (line : Nat) : List String → Except Diagnostic (List Token)
  | [] => .ok []
  | text :: texts => do
    let tokens ← scanLine (line + 1) text
    let others ← scanAfter (line + 1) texts
    return tokens ++ others

/-- All tokens of a program, or the first lexical fault. -/
def scan (lines : List String) : Except Diagnostic (List Token) := scanAfter 0 lines

end Token

end Pseudocode
