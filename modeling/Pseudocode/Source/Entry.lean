-- What stands at a path, and the lines of a program read from there.
import Pseudocode.Diagnostic
import Pseudocode.Text.Lines

namespace Pseudocode

/-- What a path leads to. It may also run through a file as if that were a
directory, or lead to something that cannot be read. -/
inductive Entry where
  | missing
  | throughFile
  | directory
  | file (bytes : ByteArray)
  | unreadable (reason : String)

namespace Entry

/-- Whether there is anything at the path. -/
def exists? : Entry → Bool
  | missing | throughFile => false
  | directory | file _ | unreadable _ => true

/-- The lines of the file at a path. -/
def readLines (path : String) : Entry → Except Diagnostic (List String)
  | missing => .error (.reading .notFound)
  | throughFile => .error (.reading .throughFile)
  | directory => .error (.file (.directory path))
  | unreadable reason => .error (.reading (.other reason))
  | file bytes =>
    match String.fromUTF8? bytes with
    | some text => .ok (Text.lines text)
    | none => .error (.reading .notUtf8)

/-- The lines of an input that has to be there. -/
def inputLines (path : String) (entry : Entry) : Except Diagnostic (List String) :=
  if entry.exists? then entry.readLines path else .error (.file (.missing path))

end Entry

end Pseudocode
