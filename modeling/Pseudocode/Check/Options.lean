-- The arguments of the command line: switches, of which each may come once,
-- and one path.

namespace Pseudocode

/-- What to check and what to show of it. -/
structure Options where
  path : String
  showTree : Bool
  render : Bool
  verbose : Bool
  timing : Bool
  deriving Repr, DecidableEq

/-- What a command line asks for. -/
inductive Invocation where
  | check (options : Options)
  | version
  | help
  | misuse
  deriving Repr, DecidableEq

/-! ## Switches -/

/-- The switches of the command line. -/
inductive Switch where
  | showTree
  | render
  | verbose
  | timing
  | version
  | help
  deriving Repr, DecidableEq

namespace Switch

/-- The switch with a long name. Names must be written out in full. -/
def ofLong? : String → Option Switch
  | "--show-ast" => some showTree
  | "--render" => some render
  | "--verbose" => some verbose
  | "--timing" => some timing
  | "--version" => some version
  | "--help" => some help
  | _ => none

/-- The switch with a name of one letter. -/
def ofShort? : Char → Option Switch
  | 'r' => some render
  | 'v' => some verbose
  | 't' => some timing
  | 'V' => some version
  | 'h' => some help
  | _ => none

end Switch

/-! ## Reading the arguments -/

/-- The switches and the path seen so far. -/
structure Arguments where
  path : Option String
  seen : List Switch
  deriving Repr, DecidableEq

namespace Arguments

/-- Nothing seen yet. -/
def empty : Arguments := ⟨none, []⟩

/-- The arguments with one more switch. Asking for the version or for help
settles what is asked for, and a switch that was there before is a mistake. -/
def withSwitch (arguments : Arguments) : Switch → Except Invocation Arguments
  | .version => .error .version
  | .help => .error .help
  | option =>
    if arguments.seen.contains option then .error .misuse
    else .ok { arguments with seen := option :: arguments.seen }

/-- The arguments with the letters of a cluster of switches. -/
def withLetters (arguments : Arguments) : List Char → Except Invocation Arguments
  | [] => .ok arguments
  | letter :: letters =>
    match Switch.ofShort? letter with
    | none => .error .misuse
    | some option => do
      let next ← arguments.withSwitch option
      next.withLetters letters

/-- The arguments with a path; there is room for one only. -/
def withPath (arguments : Arguments) (path : String) : Except Invocation Arguments :=
  if arguments.path = none then .ok { arguments with path := some path } else .error .misuse

/-- The arguments with one more word before the end of the switches. A lone
dash is a path. -/
def withWord (arguments : Arguments) (word : String) : Except Invocation Arguments :=
  match word.toList with
  | '-' :: '-' :: _ =>
    match Switch.ofLong? word with
    | none => .error .misuse
    | some option => arguments.withSwitch option
  | '-' :: letter :: letters => arguments.withLetters (letter :: letters)
  | _ => arguments.withPath word

/-- The arguments with more words. After two dashes every word is a path. -/
def withWords (arguments : Arguments) : List String → Except Invocation Arguments
  | [] => .ok arguments
  | word :: words =>
    if word = "--" then words.foldlM withPath arguments
    else do
      let next ← arguments.withWord word
      next.withWords words

/-- What the arguments ask for; without a path they are a mistake. -/
def invocation (arguments : Arguments) : Invocation :=
  match arguments.path with
  | none => .misuse
  | some path => .check ⟨path, arguments.seen.contains .showTree, arguments.seen.contains .render,
      arguments.seen.contains .verbose, arguments.seen.contains .timing⟩

end Arguments

/-- What the words of a command line ask for. They are read in order, and the
first one that settles the matter does. -/
def Invocation.ofWords (words : List String) : Invocation :=
  match Arguments.empty.withWords words with
  | .ok arguments => arguments.invocation
  | .error invocation => invocation

end Pseudocode
