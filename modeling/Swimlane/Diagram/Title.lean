import Swimlane.Text.Alphanumeric

/-!
# Titles

The title of a diagram is a YAML scalar. It is written plain when it consists of letters, digits
and a few marks, and between double quotes otherwise.
-/

namespace Swimlane.Title

/-- The characters of a plain title. -/
def isPlainChar (c : Char) : Bool :=
  Text.isAlphanumeric c || c = ' ' || c = '-' || c = '_' || c = '.' || c = '(' || c = ')'

/-- Whether a title is written as it stands. -/
def isPlain (cs : List Char) : Bool :=
  cs.all isPlainChar && cs.head? != some '-' && cs.head? != some ' ' && cs.getLast? != some ' '

/-- A character between double quotes. -/
def escape (c : Char) : List Char := if c = '\\' || c = '"' then ['\\', c] else [c]

/-- A title between double quotes. -/
def quote (cs : List Char) : List Char := '"' :: cs.flatMap escape ++ ['"']

def write (cs : List Char) : List Char := if isPlain cs then cs else quote cs

end Swimlane.Title

namespace Swimlane

/-- A title as it is written. -/
def titleScalar (text : String) : String := String.ofList (Title.write text.toList)

end Swimlane
