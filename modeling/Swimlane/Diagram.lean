import Swimlane.Diagram.Title
import Swimlane.Options
import Swimlane.Process.Connection
import Swimlane.Process.Document

/-!
# Diagrams

A diagram is a Mermaid flowchart: a title, the style classes, a box for each lane with its
elements, the connections, the links of notes and the styles of the lanes. It is a list of
`DiagramLine`s, and each of them is one line of text.

## Main definitions

* `Diagram.lines`: the lines of the diagram of a document;
* `DiagramLine.text`: how a line is written;
* `Diagram.draw`: the text of the diagram.
-/

namespace Swimlane

/-- Text between the quotes of a label, where a quote itself cannot stand. -/
def escapeLabel (text : String) : String :=
  String.ofList (text.toList.flatMap fun c => if c = '"' then "#quot;".toList else [c])

/-- The outline of a node. -/
inductive Shape where
  | box
  | diamond
  | flag
  | circle
  | doubleCircle
  | slanted
  deriving Repr, DecidableEq

namespace Shape

/-- What stands in front of the label of a node. -/
def opening : Shape → String
  | .box => "["
  | .diamond => "\x7b"
  | .flag => ">"
  | .circle => "(("
  | .doubleCircle => "((("
  | .slanted => "[/"

/-- What stands behind the label of a node. -/
def closing : Shape → String
  | .box => "]"
  | .diamond => "\x7d"
  | .flag => "]"
  | .circle => "))"
  | .doubleCircle => ")))"
  | .slanted => "/]"

def ofKind : ElementKind → Shape
  | .task | .note _ => .box
  | .gateway _ => .diamond
  | .message .. => .flag
  | .startEvent => .circle
  | .endEvent => .doubleCircle
  | .dataObject _ => .slanted

end Shape

/-- One line of a diagram. -/
inductive DiagramLine where
  /-- The rule before and behind the title. -/
  | fence
  | title (name : String)
  | flowchart (direction : Direction)
  | classDef (name body : String)
  | laneStart (id name : String)
  | node (id : String) (shape : Shape) (label : String) (className : Option String)
  | laneEnd
  | edge (kind : ConnectionKind) (source target : String) (label : Option String)
  | noteLink (target note : String)
  | laneStyle (id body : String)
  deriving Repr, DecidableEq

namespace DiagramLine

/-- A label in its quotes. -/
def quoted (text : String) : String := "\"" ++ escapeLabel text ++ "\""

/-- The line between the two ends of a connection. Data associations show no label. -/
def link (kind : ConnectionKind) (label : Option String) : String :=
  match kind, label with
  | .sequenceFlow, none => "-->"
  | .sequenceFlow, some l => "-->|" ++ quoted l ++ "|"
  | .messageFlow, none => "-.->"
  | .messageFlow, some l => "-.->|" ++ quoted l ++ "|"
  | .dataAssociation, _ => "-.-"

def text : DiagramLine → String
  | .fence => "---"
  | .title name => "title: " ++ titleScalar name
  | .flowchart direction => "flowchart " ++ direction.code
  | .classDef name body => "  classDef " ++ name ++ " " ++ body
  | .laneStart id name => "  subgraph " ++ id ++ "[" ++ quoted name ++ "]"
  | .node id shape label className =>
    "    " ++ id ++ shape.opening ++ quoted label ++ shape.closing ++
      (className.map (":::" ++ ·)).getD ""
  | .laneEnd => "  end"
  | .edge kind source target label => "  " ++ source ++ " " ++ link kind label ++ " " ++ target
  | .noteLink target note => "  " ++ target ++ " -.- " ++ note
  | .laneStyle id body => "  style " ++ id ++ " " ++ body

end DiagramLine

namespace Diagram

/-- The style classes of elements. -/
def classes : List (String × String) :=
  [("event", "fill:#ffd,stroke:#33f,stroke-width:2px"),
   ("task", "fill:#bbf,stroke:#33f,stroke-width:2px"),
   ("message", "fill:#bfb,stroke:#070,stroke-width:2px"),
   ("gateway", "fill:#fcc,stroke:#f00,stroke-width:2px"),
   ("dataObject", "fill:#ececff,stroke:#9370db,stroke-width:1px"),
   ("annotation", "fill:#ffd,stroke:#bb0,stroke-width:1px,stroke-dasharray:5 5")]

/-- The style of the lane at a position; two styles alternate. -/
def laneBody (position : Nat) : String :=
  if position % 2 = 0 then "fill:#f9f9f9,stroke:#333,stroke-width:1px"
  else "fill:#e6f3ff,stroke:#333,stroke-width:1px"

def titleLines (options : DrawOptions) (doc : Document) : List DiagramLine :=
  match options.title, doc.processName with
  | true, some name => [.fence, .title name, .fence]
  | _, _ => []

def classLines (options : DrawOptions) : List DiagramLine :=
  if options.styles then classes.map fun c => .classDef c.1 c.2 else []

def nodeLine (options : DrawOptions) (e : Element) : DiagramLine :=
  .node e.id (.ofKind e.kind) e.display (if options.styles then some e.kind.className else none)

def laneLines (options : DrawOptions) (lane : Lane) : List DiagramLine :=
  .laneStart lane.id lane.name :: lane.elements.map (nodeLine options) ++ [.laneEnd]

def edgeLine (c : Connection) : DiagramLine := .edge c.kind c.source c.target c.label

def noteLine? (e : Element) : Option DiagramLine :=
  match e.kind with
  | .note (some target) => some (.noteLink target e.id)
  | _ => none

def styleLines (options : DrawOptions) (doc : Document) : List DiagramLine :=
  if options.styles then doc.lanes.mapIdx fun i lane => .laneStyle lane.id (laneBody i) else []

/-- The lines of a diagram. -/
def lines (options : DrawOptions) (doc : Document) (connections : List Connection) :
    List DiagramLine :=
  titleLines options doc ++ [.flowchart options.direction] ++ classLines options ++
    doc.lanes.flatMap (laneLines options) ++ connections.map edgeLine ++
    doc.elements.filterMap noteLine? ++ styleLines options doc

/-- The text of a diagram; every line ends in a newline. -/
def draw (options : DrawOptions) (doc : Document) (connections : List Connection) : String :=
  String.join ((lines options doc connections).map fun l => l.text ++ "\n")

end Diagram

end Swimlane
