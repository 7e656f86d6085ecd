-- Reading a program: an agenda of goals is worked off token by token, and the
-- tree grows with it. A token is looked at only when the one before it has
-- been taken, so the first thing that is wrong is what is reported.
import Pseudocode.Program.Goal
import Pseudocode.Text.Lines
import Pseudocode.Token.Cursor
import Pseudocode.Token.Stream

namespace Pseudocode

/-! ## One token -/

/-- What is still awaited and what has been built. -/
structure Reading where
  agenda : List Item
  spine : Spine

/-- What a token brings about: nothing more is awaited and the token is left,
or it is taken and reading goes on. -/
inductive Progress where
  | finished (spine : Spine)
  | taken (reading : Reading)

namespace Reading

/-- Works off the agenda until a goal takes the token. -/
def offer : List Item → Spine → Token → Except Diagnostic Progress
  | [], spine, _ => .ok (.finished spine)
  | .build step :: agenda, spine, token => offer agenda (spine.step step) token
  | .await goal :: agenda, spine, token =>
    match goal.react token with
    | .take items => .ok (.taken ⟨items ++ agenda, spine⟩)
    | .leave steps => offer agenda (spine.steps steps) token
    | .fail diagnostic => .error diagnostic

/-- Gives a token to a reading. -/
def feed (reading : Reading) (token : Token) : Except Diagnostic Progress :=
  offer reading.agenda reading.spine token

/-! ## Many tokens -/

/-- Reads tokens until nothing more is awaited, and gives what has been built
and the tokens left. No goal takes the end of the input. -/
def run (reading : Reading) : List Token → Ending → Except Diagnostic (Spine × List Token)
  | [], .fault diagnostic => .error diagnostic
  | [], .input line =>
    match reading.feed (.endOfInput line) with
    | .error diagnostic => .error diagnostic
    | .ok (.finished spine) => .ok (spine, [])
    | .ok (.taken next) => .ok (next.spine, [])
  | token :: tokens, ending =>
    match reading.feed token with
    | .error diagnostic => .error diagnostic
    | .ok (.finished spine) => .ok (spine, token :: tokens)
    | .ok (.taken next) => next.run tokens ending

/-- The reading of a whole program. -/
def ofProgram (enforced : Bool) : Reading := ⟨[.await (.program (.top enforced))], .empty⟩

/-- The reading of an expression of a level. -/
def ofExpression (level : Nat) : Reading := ⟨[.await (.expression level)], .empty⟩

end Reading

/-! ## Programs -/

namespace Program

/-- The tree of the statements that have been built, if there are any. -/
def ofSpine (spine : Spine) : Option Node :=
  match spine.nodes with
  | [] => none
  | node :: nodes => some (.tree .program (node :: nodes))

/-- The tree of a stream of tokens, with or without the rules of placement. -/
def ofStream (enforced : Bool) (stream : TokenStream) : Except Diagnostic (Option Node) :=
  match (Reading.ofProgram enforced).run stream.tokens stream.ending with
  | .ok (spine, _) => .ok (ofSpine spine)
  | .error diagnostic => .error diagnostic

/-- The tree of a program given by its lines; none if it has no statements. -/
def parse (lines : List String) : Except Diagnostic (Option Node) :=
  ofStream true (.ofLines lines)

/-- The tree of a program, read without the rules of placement. -/
def parseFreely (lines : List String) : Except Diagnostic (Option Node) :=
  ofStream false (.ofLines lines)

/-- The tree of a program given by its whole text. -/
def parseText (text : String) : Except Diagnostic (Option Node) := parse (Text.lines text)

end Program

/-! ## Reading from a cursor -/

namespace Cursor

/-- Reads on from a cursor, which hands out the tokens as they are needed. -/
def read (reading : Reading) (cursor : Cursor) : Except Diagnostic Spine × Cursor :=
  match _h : cursor.advance with
  | (.error fault, next) => (.error fault, next)
  | (.ok token, next) =>
    match reading.feed token with
    | .error diagnostic => (.error diagnostic, next)
    | .ok (.finished spine) => (.ok spine, next)
    | .ok (.taken following) =>
      if _hkind : token.kind = .endOfInput then (.ok following.spine, next)
      else read following next
termination_by cursor
decreasing_by exact before_of_advance _h _hkind

/-- The tree of the program that a cursor goes over, wherever the cursor is. -/
def parse (cursor : Cursor) : Except Diagnostic (Option Node) × Cursor :=
  match read (.ofProgram true) cursor.restart with
  | (.ok spine, last) => (.ok (Program.ofSpine spine), last)
  | (.error diagnostic, last) => (.error diagnostic, last)

end Cursor

end Pseudocode
