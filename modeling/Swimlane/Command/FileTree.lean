import Swimlane.StableSort
import Swimlane.Text.Piece

/-!
# File trees

The files that a command sees. A path is a text; it is followed from the root or from the working
directory name by name, and a name can only follow a directory.

## Main definitions

* `FileTree.read?`, `FileTree.write?`: the content of a file, and the tree with a file written;
* `FileTree.discover?`: the source files that a path stands for.
-/

namespace Swimlane

/-- What a name in a directory stands for. -/
inductive Entry where
  | file (content : ByteArray)
  | directory

/-- Files and directories under their names from the root on, and the names of the working
directory. The directories that an entry lies in need no entry themselves. -/
structure FileTree where
  entries : List (List String × Entry) := []
  home : List String := []

namespace FileTree

/-- What names stand for. The root and the working directory are always there. -/
def lookup? (t : FileTree) (names : List String) : Option Entry :=
  (t.entries.lookup names).or
    (if names.isPrefixOf t.home || t.entries.any fun e => names.isPrefixOf e.1 then some .directory
    else none)

def isDirectory (t : FileTree) (names : List String) : Bool :=
  match t.lookup? names with
  | some .directory => true
  | _ => false

/-- The names of a path between its slashes. -/
def parts (path : String) : List String := (Text.splitOn '/' path.toList).map String.ofList

/-- Whether a path starts at the root. -/
def isAbsolute (path : String) : Bool := path.toList.head? = some '/'

/-- Where a path starts. -/
def start (t : FileTree) (path : String) : List String := if isAbsolute path then [] else t.home

/-- The place that a name leads to. An empty name and a point stay where they are, two points leave
a directory. -/
def move (place : List String) (name : String) : List String :=
  if name = "" || name = "." then place
  else if name = ".." then place.dropLast
  else place ++ [name]

/-- Follows names from a place in the tree. Names can only follow a directory. -/
def follow? (t : FileTree) (place : List String) : List String → Option (List String)
  | [] => some place
  | name :: names => if t.isDirectory place then t.follow? (move place name) names else none

/-- The place of a path. The empty path has none. -/
def place? (t : FileTree) (path : String) : Option (List String) :=
  if path = "" then none else t.follow? (t.start path) (parts path)

/-- What a path stands for. -/
def entry? (t : FileTree) (path : String) : Option Entry := (t.place? path).bind t.lookup?

/-- The content of a file. -/
def read? (t : FileTree) (path : String) : Option ByteArray :=
  match t.entry? path with
  | some (.file content) => some content
  | _ => none

/-- The content of a file as text, if it is UTF-8. -/
def readText? (t : FileTree) (path : String) : Option String :=
  (t.read? path).bind String.fromUTF8?

/-- The tree with a file written. The directory of the file must exist, and no directory may stand
in its place. -/
def write? (t : FileTree) (path : String) (content : ByteArray) : Option FileTree :=
  let names := parts path
  match names.getLast? with
  | none => none
  | some name =>
    match t.follow? (t.start path) names.dropLast with
    | none => none
    | some directory =>
      let place := move directory name
      if !t.isDirectory directory || t.isDirectory place then none
      else some { t with entries := (place, .file content) :: t.entries.filter (·.1 != place) }

/-- What stands behind the last point of a name, unless the name starts with it. -/
def extension? (name : String) : Option String :=
  let backwards := name.toList.reverse
  match backwards.dropWhile (· != '.') with
  | [] | [_] => none
  | _ => some (String.ofList (backwards.takeWhile (· != '.')).reverse)

/-- Whether a file of this name is a source. -/
def isSourceName (name : String) : Bool := (extension? name).any (·.toLower = "bpl")

/-- Whether names come before others, name by name. -/
def precedes (a b : List String) : Bool := !decide (b < a)

/-- The names of the source files below a place, in order. -/
def sourcesBelow (t : FileTree) (place : List String) : List (List String) :=
  let below := t.entries.filterMap fun e =>
    match e.2 with
    | .file _ =>
      if place.isPrefixOf e.1 && (e.1.getLast?.any isSourceName) then some (e.1.drop place.length)
      else none
    | .directory => none
  StableSort.sort precedes below

/-- A path with names behind it. -/
def join (root : String) (names : List String) : String :=
  let inner := String.intercalate "/" names
  if root.toList.getLast? = some '/' then root ++ inner else root ++ "/" ++ inner

/-- The paths of the sources that a path stands for: itself if it is a file, the source files below
it if it is a directory. -/
def discover? (t : FileTree) (root : String) : Option (List String) :=
  match t.place? root with
  | none => none
  | some place =>
    match t.lookup? place with
    | none => none
    | some (.file _) => some [root]
    | some .directory => some ((t.sourcesBelow place).map (join root))

end FileTree

/-- Whether a path stands for the standard input. -/
def isStandardInput (path : String) : Bool :=
  let names := FileTree.parts path
  names.head? = some "-" && (names.drop 1).all fun name => name = "" || name = "."

end Swimlane
