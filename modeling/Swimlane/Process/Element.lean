import Swimlane.Process.Branch
import Swimlane.Process.Message
import Swimlane.Slug
import Swimlane.Span

/-!
# Elements

The nodes of a process graph. Tasks, gateways, messages and events take part in the sequence flow;
data objects and notes do not.
-/

namespace Swimlane

/-- What an element is, with what only such an element has. -/
inductive ElementKind where
  | task
  | gateway (branches : List Branch)
  | message (side : Side) (text : String)
  | startEvent
  | endEvent
  /-- A data object and the text that names the element it belongs to. -/
  | dataObject (associated : Option String)
  /-- A note and the id of the element it is attached to. -/
  | note (attachedTo : Option String)
  deriving Repr, DecidableEq

namespace ElementKind

def isFlowNode : ElementKind → Bool
  | .dataObject _ | .note _ => false
  | _ => true

def isNote : ElementKind → Bool
  | .note _ => true
  | _ => false

/-- Whether a lane may hold several elements of this kind under one label. -/
def isRepeatable : ElementKind → Bool
  | .startEvent | .endEvent | .note _ => true
  | _ => false

/-- The name of a kind in published results. -/
def name : ElementKind → String
  | .task => "task"
  | .gateway _ => "gateway"
  | .message .send _ => "sendEvent"
  | .message .receive _ => "receiveEvent"
  | .startEvent => "startEvent"
  | .endEvent => "endEvent"
  | .dataObject _ => "dataObject"
  | .note _ => "annotation"

/-- The style class of an element in the diagram. -/
def className : ElementKind → String
  | .task => "task"
  | .gateway _ => "gateway"
  | .message .. => "message"
  | .startEvent | .endEvent => "event"
  | .dataObject _ => "dataObject"
  | .note _ => "annotation"

/-- The text an element of this kind is shown with. -/
def display (kind : ElementKind) (label : String) : String :=
  match kind with
  | .message side text => side.display text
  | _ => label

/-- Number of characters of a note that go into its id. -/
def noteIdLength : Nat := 20

/-- What the id of an element is made from: the slug of its lane and the slug of its text. -/
def idBase (kind : ElementKind) (laneName label : String) : String :=
  slug laneName ++ "_" ++
    match kind with
    | .dataObject _ => "data_" ++ slug label
    | .note _ => "note_" ++ slug (String.ofList (label.toList.take noteIdLength))
    | kind => slug (kind.display label)

/-- Adds a branch to a gateway. -/
def addBranch (branch : Branch) : ElementKind → ElementKind
  | .gateway branches => .gateway (branches ++ [branch])
  | kind => kind

end ElementKind

/-- A node of the process graph. -/
structure Element where
  id : String
  /-- The label as written; the message of a send or receive event. -/
  label : String
  /-- The id of the lane that the element belongs to. -/
  lane : String
  /-- The position among the elements of all lanes. -/
  order : Nat
  line : Nat
  span : Span
  kind : ElementKind
  deriving Repr, DecidableEq

namespace Element

def isFlowNode (e : Element) : Bool := e.kind.isFlowNode

/-- The text shown in the diagram. -/
def display (e : Element) : String := e.kind.display e.label

def addBranch (branch : Branch) (e : Element) : Element :=
  { e with kind := e.kind.addBranch branch }

end Element

end Swimlane
