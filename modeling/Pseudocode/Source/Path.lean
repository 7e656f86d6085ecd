-- Paths with slashes, and the extensions that a program is expected to have.

namespace Pseudocode

namespace Path

/-- The names between the slashes of a path. -/
def names (path : String) : List String := path.splitOn "/"

/-- The name of the file that a path ends in. Slashes and dots that stand for
the same place at the end do not count, and the directory above has no name. -/
def fileName? (path : String) : Option String :=
  match (names path).reverse.dropWhile fun name => name = "" || name = "." with
  | [] => none
  | name :: _ => if name = ".." then none else some name

/-- What follows the last point of a name. A point at the very start begins no
extension. -/
def extension? (name : String) : Option String :=
  let reversed := name.toList.reverse
  let tail := reversed.takeWhile (· ≠ '.')
  if tail.length + 1 < reversed.length then some (String.ofList tail.reverse) else none

/-- The extensions of programs. -/
def sourceExtensions : List String := ["psc", "txt"]

/-- Whether a path has the extension of a program. -/
def isSource (path : String) : Bool :=
  match (fileName? path).bind extension? with
  | some extension => sourceExtensions.contains extension
  | none => false

end Path

end Pseudocode
