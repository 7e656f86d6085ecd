-- The parser as an object with a state of its own: the cursor it takes tokens
-- from, the token at hand, and where in the program it stands. A parse that
-- fails leaves the state as it is at that point.
import Pseudocode.Program.Reading

namespace Pseudocode

/-! ## Open blocks -/

/-- The number of blocks of statements that are open. -/
def Spine.openBlocks (spine : Spine) : Nat :=
  spine.opened.countP fun (shape, _) =>
    match shape with
    | .tree .block => true
    | _ => false

/-- The tree as far as it is built when the agenda comes to a goal that takes
the token or that the token does not meet. -/
def Reading.reached : List Item → Spine → Token → Spine
  | [], spine, _ => spine
  | .build step :: agenda, spine, token => reached agenda (spine.step step) token
  | .await goal :: agenda, spine, token =>
    match goal.react token with
    | .leave steps => reached agenda (spine.steps steps) token
    | _ => spine

/-! ## The state -/

/-- A parser between calls. How deep it stands in blocks, in which subroutine,
and in how many loops and switches is what the rules of placement ask for. -/
structure Parser where
  cursor : Cursor
  current : Token
  nesting : Nat
  subroutine : Option Subroutine
  loops : Nat
  switches : Nat

namespace Parser

/-- A new parser on a cursor. -/
def ofCursor (cursor : Cursor) : Parser := ⟨cursor, .endOfInput 0, 0, none, 0, 0⟩

/-- The place that the parser takes itself to be at. -/
def context (parser : Parser) : Context :=
  ⟨true, 0 < parser.nesting, parser.subroutine, 0 < parser.loops, 0 < parser.switches⟩

/-- The reading of a whole program from the place where the parser is. -/
def reading (parser : Parser) : Reading := ⟨[.await (.program parser.context)], .empty⟩

/-- The start of the program, outside of everything. The token at hand is
replaced with the first request. -/
def reset (parser : Parser) : Parser :=
  { parser with
    cursor := parser.cursor.restart
    nesting := 0
    subroutine := none
    loops := 0
    switches := 0 }

/-! ## Reading -/

/-- The parser with a new token at hand, in the blocks that are open there. The
other counts are put back on every way out of a body, also after an error. -/
def arrived (parser : Parser) (reading : Reading) (token : Token) (next : Cursor) : Parser :=
  { parser with
    cursor := next
    current := token
    nesting := (Reading.reached reading.agenda reading.spine token).openBlocks }

/-- Reads on. An error leaves the parser where it has come to. -/
def read (reading : Reading) (parser : Parser) : Except Diagnostic Spine × Parser :=
  match _h : parser.cursor.advance with
  | (.error fault, next) => (.error fault, { parser with cursor := next })
  | (.ok token, next) =>
    match reading.feed token with
    | .error diagnostic => (.error diagnostic, parser.arrived reading token next)
    | .ok (.finished spine) => (.ok spine, parser.arrived reading token next)
    | .ok (.taken following) =>
      if _hkind : token.kind = .endOfInput then
        (.ok following.spine, parser.arrived reading token next)
      else read following (parser.arrived reading token next)
termination_by parser.cursor
decreasing_by exact Cursor.before_of_advance _h _hkind

/-- The tree of the program, and the parser after the call. -/
def parse (parser : Parser) : Except Diagnostic (Option Node) × Parser :=
  match read parser.reset.reading parser.reset with
  | (.ok spine, last) => (.ok (Program.ofSpine spine), last)
  | (.error diagnostic, last) => (.error diagnostic, last)

/-- What a number of calls give, one after the other on the same parser. -/
def parses (parser : Parser) : Nat → List (Except Diagnostic (Option Node))
  | 0 => []
  | times + 1 => parser.parse.1 :: parser.parse.2.parses times

end Parser

end Pseudocode
