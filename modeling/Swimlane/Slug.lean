/-!
# Slugs

Identifiers are made of slugs: the ASCII letters and digits of a text in lower case, with one
underscore for each stretch of other characters between two of them. A text without letter and digit
has the slug `unknown`.
-/

namespace Swimlane

namespace Slug

/-- Slug of the characters still to come. `started` says that the slug has characters already, `gap`
that other characters stand between its last one and here. -/
def chars (started gap : Bool) : List Char → List Char
  | [] => []
  | c :: cs =>
    if c.isAlphanum then
      (if started && gap then ['_'] else []) ++ c.toLower :: chars true false cs
    else chars started true cs

/-- The slug of a list of characters. -/
def ofChars (cs : List Char) : List Char :=
  match chars false false cs with
  | [] => "unknown".toList
  | slug => slug

end Slug

/-- The slug of a text. -/
def slug (text : String) : String := String.ofList (Slug.ofChars text.toList)

end Swimlane
