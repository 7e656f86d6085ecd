-- The command line program: it reads the file, prints what the check gives
-- and ends with its code.
import Pseudocode.Check.Report

namespace Pseudocode

namespace Main

/-- What stands at a path of the file system. A directory opens but does not
read, which has a code of its own. -/
def entryOf (path : String) : IO Entry := do
  try
    return .file (← IO.FS.readBinFile path)
  catch
    | .noFileOrDirectory _ _ _ => return .missing
    | .inappropriateType _ code _ => return if code = 21 then .directory else .throughFile
    | reason => return .unreadable (toString reason)

/-- Milliseconds between two moments that are given in nanoseconds. -/
def elapsed (start stop : Nat) : Nat := (stop - start) / 1000000

/-- Checks the lines of a file phase by phase. -/
def checkLines (options : Options) (start : Nat) (lines : List String) : IO Outcome := do
  let before ← IO.monoNanosNow
  let scanned ← IO.lazyPure fun _ => Token.scan lines
  let between ← IO.monoNanosNow
  let parsed ← IO.lazyPure fun _ => Program.parse lines
  let stop ← IO.monoNanosNow
  let durations : Durations :=
    ⟨elapsed before between, elapsed between stop, elapsed start stop⟩
  return Check.report options durations lines scanned parsed

/-- Checks the file that the options name. -/
def check (options : Options) : IO UInt32 := do
  if Check.warns options then IO.eprintln (Check.warning options)
  let start ← IO.monoNanosNow
  let outcome ←
    match (← entryOf options.path).inputLines options.path with
    | .error diagnostic => pure (Check.failed [] diagnostic)
    | .ok lines => checkLines options start lines
  outcome.printed.forM IO.println
  outcome.failure.forM IO.eprintln
  return outcome.code.toUInt32

/-- Does what the arguments ask for. -/
def run (words : List String) : IO UInt32 := do
  match Invocation.ofWords words with
  | .check options => check options
  | .version =>
    IO.println Check.versionLine
    return 0
  | .help =>
    Check.usage.forM IO.println
    return 0
  | .misuse =>
    Check.usage.forM IO.eprintln
    return 2

end Main

end Pseudocode

/-- The program. -/
def main (words : List String) : IO UInt32 := Pseudocode.Main.run words
