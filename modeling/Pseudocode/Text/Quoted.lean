-- The quoted form of a text, in which every character that cannot be seen is
-- written by its code, so that the form stays on one line.
import Pseudocode.Text.Unprintable

namespace Pseudocode.Text

/-- Whether a character is written by its code: it has no look of its own, it
joins the character before it, or it is there to be ignored. -/
def isHidden (c : Char) : Bool :=
  if c.toNat < 0x80 then c.toNat < 0x20 || c.toNat = 0x7f
  else unprintableRanges.has c || joiningRanges.has c || ignorableRanges.has c

/-- A character by its code, in the fewest hexadecimal digits. -/
def byCode (c : Char) : List Char :=
  ['\\', 'u', '\x7b'] ++ Nat.toDigits 16 c.toNat ++ ['\x7d']

/-- A character inside double quotes. -/
def quotedChar (c : Char) : List Char :=
  if c = '"' then ['\\', '"']
  else if c = '\\' then ['\\', '\\']
  else if c = '\x00' then ['\\', '0']
  else if c = '\t' then ['\\', 't']
  else if c = '\r' then ['\\', 'r']
  else if c = '\n' then ['\\', 'n']
  else if isHidden c then byCode c
  else [c]

/-- A text in double quotes. -/
def quoted (text : String) : String :=
  String.ofList (['"'] ++ text.toList.flatMap quotedChar ++ ['"'])

end Pseudocode.Text
