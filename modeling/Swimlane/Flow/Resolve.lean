import Swimlane.Outline.Reference
import Swimlane.Process.Document
import Swimlane.Text.Blank

/-!
# Looking up elements by name

A text names an element of the flow by its label, by the text it is shown with, or by its id. A text
with a point may name the lane before it. Without lane, elements of the lane in which the text is
written are preferred.

## Main definitions

* `Element.isNamedBy`: whether a text names an element;
* `Document.resolve?`: the id of the element that a text names;
* `Document.endpoint`: the id of an end of a reference.
-/

namespace Swimlane

/-- Whether a text names an element. -/
def Element.isNamedBy (e : Element) (name : List Char) : Bool :=
  let s := slug (String.ofList name)
  slug e.label = s || slug e.display = s || e.id = String.ofList (Text.trim name)

namespace Document

/-- Whether an element can be referred to by a text. -/
def isTarget (name : List Char) (e : Element) : Bool := e.isFlowNode && e.isNamedBy name

/-- A reference text without the blanks around it and without the mark of a lane. -/
def bareName (text : String) : List Char :=
  match Text.trim text.toList with
  | '@' :: rest => Text.trim rest
  | name => name

/-- The element named `lane.name`: the first one of the lanes of that name. -/
def qualified? (d : Document) (name : List Char) : Option Element :=
  match name.dropWhile (· != '.') with
  | [] => none
  | _ :: inner =>
    let laneSlug := slug (String.ofList (name.takeWhile (· != '.')))
    ((d.lanes.filter fun lane => slug lane.name = laneSlug).flatMap (·.elements)).find?
      (isTarget inner)

/-- The first element of a name, if possible one of a lane. -/
def unqualified? (d : Document) (name : List Char) (lane : String) : Option Element :=
  let candidates := d.elements.filter (isTarget name)
  (candidates.find? (·.lane = lane)).or candidates.head?

/-- The id of the element that a text written in a lane names. -/
def resolve? (d : Document) (text lane : String) : Option String :=
  let name := bareName text
  if name.isEmpty then none
  else ((d.qualified? name).or (d.unqualified? name lane)).map (·.id)

/-- The id of an end of a reference, or the text that names nothing. -/
def endpoint (d : Document) (lane : String) : Endpoint → Except String String
  | .element id =>
    match d.findLast? id with
    | some e => .ok e.id
    | none => .error id
  | .named text =>
    match d.resolve? text lane with
    | some id => .ok id
    | none => .error text

end Document

end Swimlane
