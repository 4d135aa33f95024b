import Swimlane.Text.Blank

/-!
# Arrows

A payload may name the other end of a connection behind an arrow: `label -> target` or
`label <- source`. The first arrow of the payload counts.

## Main definitions

* `firstArrow`: cuts a text at its first arrow;
* `splitInline`: the label of a line and the arrow behind it, if the arrow names something;
* `splitConnection`: the two sides of a connection line.
-/

namespace Swimlane

/-- Which way an arrow points: away from the label or towards it. -/
inductive ArrowDirection where
  | forward
  | backward
  deriving Repr, DecidableEq

/-- An arrow behind the label of a line and the text it points to or comes from. -/
structure Arrow where
  direction : ArrowDirection
  target : String
  deriving Repr, DecidableEq

namespace Arrow

/-- The text before the first arrow, its direction and the text behind it. -/
def firstArrow : List Char → Option (List Char × ArrowDirection × List Char)
  | [] => none
  | '-' :: '>' :: rest => some ([], .forward, rest)
  | '<' :: '-' :: rest => some ([], .backward, rest)
  | c :: cs => (firstArrow cs).map fun (left, direction, right) => (c :: left, direction, right)

/-- Label and arrow of a payload. An arrow that names nothing is dropped, and a payload without
arrow is the label as it stands. -/
def splitInline (payload : List Char) : String × Option Arrow :=
  match firstArrow payload with
  | none => (String.ofList payload, none)
  | some (left, direction, right) =>
    (String.ofList (Text.trim left),
      if (Text.trim right).isEmpty then none
      else some ⟨direction, String.ofList (Text.trim right)⟩)

/-- The two sides of a connection line, the right one trimmed; none when it has no arrow or nothing
behind it. -/
def splitConnection (payload : List Char) : Option (List Char × ArrowDirection × List Char) :=
  match firstArrow payload with
  | none => none
  | some (left, direction, right) =>
    if (Text.trim right).isEmpty then none else some (left, direction, Text.trim right)

end Arrow

end Swimlane
