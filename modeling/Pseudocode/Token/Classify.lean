-- The kind of a fragment of source text, decided by its form alone.
import Pseudocode.Text.Classes
import Pseudocode.Token.Kind

namespace Pseudocode

open Text

namespace Fragment

/-! ## The forms -/

/-- A letter of ASCII or an underscore. -/
def isNameStart (c : Char) : Bool := isAsciiLetter c || c = '_'

/-- A character that a name can go on with. -/
def isNameChar (c : Char) : Bool := isNameStart c || isDigit c

/-- A name starts with a letter or an underscore and goes on with those and digits. -/
def isName : List Char → Bool
  | [] => false
  | c :: cs => isNameStart c && cs.all isNameChar

/-- At least one character, all of them digits. -/
def isDigits (cs : List Char) : Bool := !cs.isEmpty && cs.all isDigit

/-- The mark `e` or `E`, a sign or none, and digits. -/
def isExponent : List Char → Bool
  | e :: '+' :: digits => (e = 'e' || e = 'E') && isDigits digits
  | e :: '-' :: digits => (e = 'e' || e = 'E') && isDigits digits
  | e :: digits => (e = 'e' || e = 'E') && isDigits digits
  | [] => false

/-- A number with a point, which has digits on one side at least and may have
an exponent, or digits with an exponent. -/
def isReal (cs : List Char) : Bool :=
  let whole := cs.takeWhile isDigit
  match cs.dropWhile isDigit with
  | '.' :: rest =>
    let fraction := rest.takeWhile isDigit
    let exponent := rest.dropWhile isDigit
    (!whole.isEmpty || !fraction.isEmpty) && (exponent.isEmpty || isExponent exponent)
  | exponent => !whole.isEmpty && isExponent exponent

/-- Two quotes of one sort with none of that sort between them. -/
def isQuoted : List Char → Bool
  | [] => false
  | quote :: rest =>
    (quote = '"' || quote = '\'') &&
      rest.getLast? = some quote && !rest.dropLast.contains quote

/-! ## The kind -/

/-- The kind of a fragment, or none when it is no token of the language. A
fixed spelling comes before a name. -/
def classify? (fragment : String) : Option TokenKind :=
  let cs := fragment.toList
  match TokenKind.ofText? fragment with
  | some kind => some kind
  | none =>
    if fragment = "true" || fragment = "false" then some .boolLiteral
    else if isName cs then some .identifier
    else if isDigits cs then some .intLiteral
    else if isReal cs then some .realLiteral
    else if isQuoted cs then some .strLiteral
    else none

end Fragment

end Pseudocode
