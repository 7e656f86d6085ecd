-- The contents of a directory at one moment, and what a path leads to from there.
-- The program itself is given the entry at its path and knows of no directory: a
-- snapshot stands in for the file system where the program is tested, and neither
-- the other modules nor the theory depend on it.
import Pseudocode.Source.Entry
import Pseudocode.Source.Path

namespace Pseudocode

/-- The files and the directories below some directory, each by the names that
lead to it. The directories on the way to one of them need not be listed. -/
structure Snapshot where
  files : List (List String × ByteArray)
  directories : List (List String)

namespace Snapshot

/-- Whether a directory stands at a place: the one looked from and those above
it, a listed one, or one on the way to something listed. -/
def isDirectory (snapshot : Snapshot) (place : List String) : Bool :=
  place.all (· = "..") ||
    snapshot.directories.any (place.isPrefixOf ·) ||
    snapshot.files.any fun entry => place.isPrefixOf entry.1 && place ≠ entry.1

/-- What stands at a place. -/
def entryAt (snapshot : Snapshot) (place : List String) : Entry :=
  match snapshot.files.lookup place with
  | some bytes => .file bytes
  | none => if snapshot.isDirectory place then .directory else .missing

/-- The place that a name leads to from a place. -/
def placeOf (place : List String) (name : String) : List String :=
  if name = "" || name = "." then place
  else if name = ".." && !place.all (· = "..") then place.dropLast
  else place ++ [name]

/-- What a row of names leads to from a place. Every name needs a directory to
start from, also one that stays in it. -/
def follow (snapshot : Snapshot) (place : List String) : List String → Entry
  | [] => snapshot.entryAt place
  | name :: names =>
    match snapshot.entryAt place with
    | .directory => snapshot.follow (placeOf place name) names
    | .file _ => .throughFile
    | entry => entry

/-- What a path leads to. A path that starts at the root of all files leads
out of the snapshot. -/
def find (snapshot : Snapshot) (path : String) : Entry :=
  match Path.names path with
  | "" :: _ :: _ => .missing
  | names => snapshot.follow [] names

end Snapshot

end Pseudocode
