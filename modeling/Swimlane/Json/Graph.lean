import Swimlane.Json.Value
import Swimlane.Process.Graph

/-!
# Process graphs as JSON

The published form of a result. Spans of elements are not published; absent names, labels and
associations are left out.
-/

namespace Swimlane

namespace Json

/-- A field that is left out when it has no value. -/
def optional (key : String) : Option String → List (String × Json)
  | none => []
  | some s => [(key, .string s)]

end Json

def Span.toJson (s : Span) : Json := .object [("start", .number s.start), ("end", .number s.stop)]

def Diagnostic.toJson (d : Diagnostic) : Json :=
  .object
    [("kind", .string d.kind.name), ("line", .number d.line), ("span", d.span.toJson),
     ("message", .string d.message)]

def Branch.toJson (b : Branch) : Json :=
  .object [("sign", .string b.sign.name), ("label", .string b.label), ("task", .string b.task)]

/-- The fields that only elements of a kind have. -/
def ElementKind.jsonFields : ElementKind → List (String × Json)
  | .task | .startEvent | .endEvent => []
  | .gateway branches => [("branches", .array (branches.map Branch.toJson))]
  | .message _ text => [("message", .string text)]
  | .dataObject associated => Json.optional "associated" associated
  | .note attachedTo => Json.optional "attachedTo" attachedTo

def Element.toJson (e : Element) : Json :=
  .object <|
    [("id", .string e.id), ("label", .string e.label), ("lane", .string e.lane),
     ("order", .number e.order), ("line", .number e.line), ("type", .string e.kind.name)] ++
      e.kind.jsonFields

def Lane.toJson (l : Lane) : Json :=
  .object
    [("id", .string l.id), ("name", .string l.name),
     ("elements", .array (l.elements.map Element.toJson))]

def Document.jsonFields (d : Document) : List (String × Json) :=
  Json.optional "processName" d.processName ++ [("lanes", .array (d.lanes.map Lane.toJson))]

def Document.toJson (d : Document) : Json := .object d.jsonFields

def Connection.toJson (c : Connection) : Json :=
  .object <|
    [("id", .string c.id), ("sourceRef", .string c.source), ("targetRef", .string c.target),
     ("kind", .string c.kind.name)] ++ Json.optional "label" c.label

def ProcessGraph.toJson (g : ProcessGraph) : Json :=
  .object <|
    g.document.jsonFields ++
      [("connections", .array (g.connections.map Connection.toJson)),
       ("diagnostics", .array (g.diagnostics.map Diagnostic.toJson))]

/-- The text that a graph is published as. It ends its last line. -/
def ProcessGraph.publish (layout : Json.Layout) (g : ProcessGraph) : String :=
  g.toJson.print layout ++ "\n"

end Swimlane
