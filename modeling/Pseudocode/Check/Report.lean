-- The check of one file: what is printed, what is said about a failure, and
-- the code the program ends with.
import Pseudocode.Check.Options
import Pseudocode.Program.Reading
import Pseudocode.Source.Entry
import Pseudocode.Source.Path
import Pseudocode.Tree.Canonical
import Pseudocode.Tree.Outline

namespace Pseudocode

/-! ## Durations -/

/-- How long the phases took, in thousandths of a second. -/
structure Durations where
  lexical : Nat
  parsing : Nat
  total : Nat
  deriving Repr, DecidableEq

namespace Durations

/-- A text brought to a width by blanks in front. -/
def padded (width : Nat) (text : String) : String :=
  String.ofList (List.replicate (width - text.length) ' ') ++ text

/-- A duration in seconds with three places. -/
def seconds (duration : Nat) : String :=
  let places := toString (duration % 1000)
  toString (duration / 1000) ++ "." ++ String.ofList (List.replicate (3 - places.length) '0') ++
    places

end Durations

/-! ## Outcome -/

/-- The code at the end, the lines printed, and the failure, if there was one. -/
structure Outcome where
  code : Nat
  printed : List String
  failure : Option String
  deriving Repr, DecidableEq

namespace Check

/-- Lines that are printed only on request. -/
def when (wanted : Bool) (lines : List String) : List String := if wanted then lines else []

/-- A check that ended with a finding. -/
def failed (printed : List String) (diagnostic : Diagnostic) : Outcome :=
  ⟨1, printed, some ("Error: " ++ diagnostic.report)⟩

/-- How many nodes a program has. -/
def nodeCount (tree : Option Node) : Nat :=
  match tree with
  | some tree => tree.count
  | none => 0

/-! ## What is printed -/

/-- After the file was read. -/
def readLog (options : Options) (lines : List String) : List String :=
  ["Read " ++ toString lines.length ++ " lines from " ++ options.path]

/-- After all tokens were found. -/
def tokenLog (durations : Durations) (tokens : List Token) : List String :=
  ["✓ Lexical analysis completed in " ++ Durations.seconds durations.lexical ++ "s",
    "  Generated " ++ toString tokens.length ++ " tokens"]

/-- After the tree was built. -/
def treeLog (durations : Durations) (tree : Option Node) : List String :=
  ["✓ Parsing completed in " ++ Durations.seconds durations.parsing ++ "s",
    "  Built " ++ toString (nodeCount tree) ++ " AST nodes"]

/-- The outline of the tree under a heading. -/
def treeLines (tree : Option Node) : List String :=
  ["", "Abstract Syntax Tree:"] ++
    match tree with
    | some tree => tree.outline 0
    | none => ["  (empty)"]

/-- The canonical source text. -/
def sourceLines (tree : Option Node) : List String :=
  match tree with
  | some tree => tree.render
  | none => []

/-- The statistics under a heading. -/
def statistics (durations : Durations) (lines : List String) (tokens : List Token)
    (tree : Option Node) : List String :=
  let duration (n : Nat) : String := Durations.padded 8 (Durations.seconds n) ++ "s"
  ["", "Statistics:",
    "  Lexical analysis: " ++ duration durations.lexical,
    "  Parsing:          " ++ duration durations.parsing,
    "  Total:            " ++ duration durations.total,
    "  Lines:            " ++ toString lines.length,
    "  Tokens:           " ++ toString tokens.length,
    "  AST nodes:        " ++ toString (nodeCount tree)]

/-! ## The check -/

/-- The outcome for the lines of a program, all of its tokens and its tree. A
lexical fault anywhere comes before any other finding. -/
def report (options : Options) (durations : Durations) (lines : List String)
    (scanned : Except Diagnostic (List Token)) (parsed : Except Diagnostic (Option Node)) :
    Outcome :=
  let afterReading := when options.verbose (readLog options lines)
  match scanned with
  | .error diagnostic => failed afterReading diagnostic
  | .ok tokens =>
    let afterScanning := afterReading ++ when options.verbose (tokenLog durations tokens)
    match parsed with
    | .error diagnostic => failed afterScanning diagnostic
    | .ok tree =>
      ⟨0, afterScanning ++ when options.verbose (treeLog durations tree) ++
        when options.showTree (treeLines tree) ++
        when options.render (sourceLines tree) ++
        when options.timing (statistics durations lines tokens tree) ++
        when options.verbose ["Syntax check successful!"], none⟩

/-- The outcome for the entry at the path. -/
def run (options : Options) (durations : Durations) (entry : Entry) : Outcome :=
  match entry.inputLines options.path with
  | .error diagnostic => failed [] diagnostic
  | .ok lines => report options durations lines (Token.scan lines) (Program.parse lines)

/-- Whether the path calls for a warning about its extension. It is given
before the file is looked at. -/
def warns (options : Options) : Bool := !Path.isSource options.path

/-- The warning about an extension. -/
def warning (options : Options) : String :=
  "WARN input file does not have a .psc or .txt extension path=" ++ options.path

/-- The line that tells the version. -/
def versionLine : String := "pseudoc 0.1.0"

/-- The lines that tell how the program is used. -/
def usage : List String := [
  "Syntax checker for structured pseudocode programs.",
  "",
  "Usage: pseudoc [OPTIONS] <PATH>",
  "",
  "Options:",
  "      --show-ast  Show the syntax tree",
  "  -r, --render    Print the canonical source text",
  "  -v, --verbose   Tell what is being done",
  "  -t, --timing    Show how long it took",
  "  -h, --help      Print help",
  "  -V, --version   Print version"]

end Check

end Pseudocode
