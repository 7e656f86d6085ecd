-- Fragments: the longest piece of text that can stand at a place of a line.
-- A fragment is found by the character it starts with and what follows it.
import Pseudocode.Diagnostic
import Pseudocode.Token.Classify

namespace Pseudocode

open Text

namespace Fragment

/-! ## Numbers -/

/-- Whether a digit comes next. -/
def digitNext : List Char → Bool
  | c :: _ => isDigit c
  | [] => false

/-- The point and the digits after it; a point without a digit is left alone. -/
def fraction : List Char → List Char
  | '.' :: cs => if digitNext cs then '.' :: cs.takeWhile isDigit else []
  | _ => []

/-- The sign in front, if there is one. -/
def signOf : List Char → List Char
  | '+' :: _ => ['+']
  | '-' :: _ => ['-']
  | _ => []

/-- The exponent mark, a sign or none, and the digits after it; a mark without
a digit is left alone. -/
def exponent : List Char → List Char
  | [] => []
  | e :: cs =>
    let sign := signOf cs
    let digits := (cs.drop sign.length).takeWhile isDigit
    if (e = 'e' || e = 'E') && !digits.isEmpty then e :: sign ++ digits else []

/-- The longest number in front. -/
def number (cs : List Char) : List Char :=
  let whole := cs.takeWhile isDigit
  let point := fraction (cs.drop whole.length)
  whole ++ point ++ exponent (cs.drop (whole.length + point.length))

/-! ## The fragment in front -/

/-- What is wrong with the text at some place of a line. -/
inductive Fault where
  | unknown (text : String)
  | unterminated
  | badNumber (text : String)
  deriving Repr, DecidableEq

/-- The fault as a finding about a line. -/
def Fault.onLine : Fault → Nat → Diagnostic
  | unknown text, line => .unknownToken text line
  | unterminated, line => .unterminatedString line
  | badNumber text, line => .invalidNumber text line

/-- The characters that may be joined to a `=` behind them. -/
def takesEqual (c : Char) : Bool := c = '=' || c = '!' || c = '<' || c = '>'

/-- A number must not run into a word. -/
def readNumber (cs : List Char) : Except Fault (List Char) :=
  let found := number cs
  let word := (cs.drop found.length).takeWhile isWordChar
  if word.isEmpty then .ok found else .error (.badNumber (String.ofList (found ++ word)))

/-- A string goes on to the next quote of its sort. -/
def readString (quote : Char) (cs : List Char) : Except Fault (List Char) :=
  let inner := cs.takeWhile (· ≠ quote)
  if inner.length < cs.length then .ok (quote :: inner ++ [quote]) else .error .unterminated

/-- The fragment that starts with the character `c` where `cs` follows. -/
def read (c : Char) (cs : List Char) : Except Fault (List Char) :=
  if isWordStart c then .ok (c :: cs.takeWhile isWordChar)
  else if isDigit c || (c = '.' && digitNext cs) then readNumber (c :: cs)
  else if c = '"' || c = '\'' then readString c cs
  else if takesEqual c && cs.head? = some '=' then .ok [c, '=']
  else .ok [c]

end Fragment

end Pseudocode
