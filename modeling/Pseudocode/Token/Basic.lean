-- Tokens: a kind, the text it was read from and the number of its line.
import Pseudocode.Token.Kind

namespace Pseudocode

/-- A classified piece of source text. Lines count from 1. -/
structure Token where
  kind : TokenKind
  text : String
  line : Nat
  deriving Repr, DecidableEq

namespace Token

/-- The mark that follows the last token. It stands on the last line. -/
def endOfInput (line : Nat) : Token := ⟨.endOfInput, "", line⟩

/-- What a diagnostic calls a token: its text, or the end of the input by name. -/
def display (token : Token) : String :=
  if token.kind = .endOfInput then token.kind.display else token.text

/-- The contents of a string literal without its quotes. Any other token keeps
its text, and so does a text too short to have two quotes. -/
def unquoted (token : Token) : String :=
  let chars := token.text.toList
  if token.kind = .strLiteral && 2 ≤ chars.length then String.ofList (chars.drop 1).dropLast
  else token.text

end Token

end Pseudocode
