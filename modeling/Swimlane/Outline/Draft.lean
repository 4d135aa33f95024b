import Swimlane.Outline.Event
import Swimlane.Outline.Gateway
import Swimlane.Outline.Identifier
import Swimlane.Outline.Reference
import Swimlane.Outline.Statement
import Swimlane.Process.Document

/-!
# Drafts

A draft is a document while its lines are read. Elements stand in it in the order of their
declaration; the lane of an element is written on it. Beside the elements it keeps the log of flow
events, the references, the messages that wait for their other side, and the gateways that are open.

## Main definitions

* `Draft.declare`: adds an element;
* `Draft.perform`: carries out a statement;
* `Draft.consume`: takes a line.
-/

namespace Swimlane

/-- A send or receive whose other side has not been read. -/
structure WaitingMessage where
  label : String
  element : String
  side : Side
  order : Nat
  line : Nat
  span : Span
  deriving Repr, DecidableEq

/-- The warning about a message that has only one side. -/
def WaitingMessage.warning (m : WaitingMessage) : Diagnostic :=
  (Finding.unmatchedMessage m.side m.label).toDiagnostic m.line m.span

/-- A document while it is read. -/
structure Draft where
  processName : Option String := none
  /-- The lanes in the order they were opened. -/
  lanes : List LaneHeader := []
  /-- The lane that new elements go into. -/
  current : Option LaneHeader := none
  /-- The elements in the order of their declaration. -/
  elements : List Element := []
  /-- The identifiers that are taken. -/
  ids : List String := []
  /-- Lane id and id base of every element. -/
  bases : List (String × String) := []
  /-- The open gateways, innermost first. -/
  gateways : List OpenGateway := []
  /-- The messages that wait, in the order of their declaration. -/
  waiting : List WaitingMessage := []
  events : List Event := []
  references : List Reference := []
  diagnostics : List Diagnostic := []
  deriving Repr, DecidableEq

namespace Draft

/-! ## Records -/

def warn (d : Draft) (l : Line) (f : Finding) : Draft :=
  { d with diagnostics := d.diagnostics ++ [f.toDiagnostic l.number l.span] }

def log (d : Draft) (e : Event) : Draft := { d with events := d.events ++ [e] }

def addReference (d : Draft) (r : Reference) : Draft := { d with references := d.references ++ [r] }

/-- The last element that a note can be attached to. -/
def lastSubject? (d : Draft) : Option Element :=
  (d.elements.filter fun e => !e.kind.isNote).getLast?

/-- The last element of the flow. -/
def lastFlowNode? (d : Draft) : Option Element := (d.elements.filter (·.isFlowNode)).getLast?

/-! ## Lanes -/

/-- The lane of a name: the one opened under it, or a new one. -/
def laneNamed (d : Draft) (name : String) : LaneHeader :=
  (d.lanes.find? (·.name = name)).getD ⟨(Identifier.allocate d.ids ("lane_" ++ slug name)).1, name⟩

/-- Makes the lane of a name the current one. -/
def openLane (d : Draft) (name : String) : Draft :=
  match d.lanes.find? (·.name = name) with
  | some lane => { d with current := some lane }
  | none =>
    { d with
      lanes := d.lanes ++ [d.laneNamed name]
      ids := (Identifier.allocate d.ids ("lane_" ++ slug name)).2
      current := some (d.laneNamed name) }

/-- The lane that new elements go into; before any lane, the default one. -/
def lane (d : Draft) (defaultLane : String) : LaneHeader := d.current.getD (d.laneNamed defaultLane)

/-- Opens the default lane where no lane is open. -/
def enterLane (d : Draft) (defaultLane : String) : Draft :=
  if d.current.isSome then d else d.openLane defaultLane

/-! ## Elements -/

/-- The element that a line declares in a lane, with a free identifier. -/
def newElement (d : Draft) (lane : LaneHeader) (l : Line) (label : String) (kind : ElementKind) :
    Element :=
  { id := (Identifier.allocate d.ids (kind.idBase lane.name label)).1
    label, lane := lane.id, order := d.elements.length, line := l.number, span := l.span, kind }

/-- The warning about an element whose label its lane has already. -/
def duplicateWarning (d : Draft) (lane : LaneHeader) (e : Element) : List Diagnostic :=
  if (lane.id, e.kind.idBase lane.name e.label) ∈ d.bases && !e.kind.isRepeatable then
    [(Finding.duplicateLabel e.label lane.name).toDiagnostic e.line e.span]
  else []

/-- Adds an element to a lane. -/
def declare (d : Draft) (lane : LaneHeader) (e : Element) : Draft :=
  { d with
    elements := d.elements ++ [e]
    ids := (Identifier.allocate d.ids (e.kind.idBase lane.name e.label)).2
    bases := d.bases ++ [(lane.id, e.kind.idBase lane.name e.label)]
    diagnostics := d.diagnostics ++ d.duplicateWarning lane e }

/-- Logs an element of the flow: as the next one of the branch that is read, or outside of all
gateways. Nothing follows an end event. -/
def logFlow (d : Draft) (e : Element) : Draft :=
  match d.gateways with
  | [] => d.log (.declared e.id)
  | g :: outer =>
    match g.body with
    | none => d.log (.declared e.id)
    | some body =>
      { d.log (.branchStep body.tail e.id) with
        gateways := g.setTail (if e.kind = .endEvent then none else some e.id) :: outer }

/-- Records the arrow behind the label of an element. -/
def track (d : Draft) (lane : LaneHeader) (l : Line) (e : Element) : Draft :=
  match l.arrow with
  | none => d
  | some arrow =>
    let ends := arrow.direction.ends (.element e.id) (.named arrow.target)
    d.addReference
      { kind := .sequenceFlow, source := ends.1, target := ends.2, label := none, lane := lane.id
        line := l.number, span := l.span }

/-- Joins a side of a message to the first waiting one on the other side, or lets it wait. -/
def pair (d : Draft) (m : WaitingMessage) : Draft :=
  match d.waiting.find? fun w => w.label = m.label && w.side != m.side with
  | none => { d with waiting := d.waiting ++ [m] }
  | some w =>
    let joined := match m.side with
      | .send => Event.messagePaired m.element w.element m.label
      | .receive => Event.messagePaired w.element m.element m.label
    { d.log joined with waiting := d.waiting.erase w }

/-- What else an element of the flow starts: a gateway is opened, a message is joined. -/
def start (d : Draft) (l : Line) (e : Element) : Draft :=
  match e.kind with
  | .gateway _ =>
    { d with gateways := { id := e.id, slot := e.order, depth := l.depth } :: d.gateways }
  | .message side text => d.pair ⟨text, e.id, side, e.order, l.number, l.span⟩
  | _ => d

/-- Declares an element of the flow in a lane. -/
def addNode (d : Draft) (lane : LaneHeader) (l : Line) (label : String) (kind : ElementKind) :
    Draft :=
  let e := d.newElement lane l label kind
  (((d.declare lane e).logFlow e).track lane l e).start l e

/-! ## Branches -/

/-- Declares the task of a branch of the innermost open gateway. -/
def addBranch (d : Draft) (lane : LaneHeader) (l : Line) (g : OpenGateway)
    (outer : List OpenGateway) (sign : Sign) (label : Option String) (text : String) : Draft :=
  let e := d.newElement lane l text .task
  let branch : Branch := ⟨sign, label.getD sign.defaultLabel, e.id⟩
  let d := ((d.declare lane e).track lane l e).log (.branchOpened g.id e.id branch.label)
  { d with
    gateways := g.startBody sign e.id :: outer
    elements := d.elements.modify g.slot (·.addBranch branch) }

/-- Closes the innermost gateways for which `closes` holds. -/
def closeGateways (d : Draft) (closes : OpenGateway → Bool) : Draft :=
  match d.gateways with
  | [] => d
  | g :: outer =>
    let left := OpenGateway.unwind closes g outer
    { d with gateways := left.1, events := d.events ++ left.2.toList }

/-! ## Statements -/

/-- A branch hangs from the innermost open gateway; without one it is a task. -/
def performBranch (d : Draft) (defaultLane : String) (l : Line) (sign : Sign)
    (label : Option String) (text : String) : Draft :=
  match d.gateways with
  | [] =>
    let d := d.warn l (.orphanBranch text)
    (d.enterLane defaultLane).addNode (d.lane defaultLane) l text .task
  | g :: outer =>
    let d := if l.depth = g.depth then d.warn l (.branchDepth text) else d
    (d.enterLane defaultLane).addBranch (d.lane defaultLane) l g outer sign label text

/-- A connection starts at the element it names, or at the last one of the flow. -/
def performConnection (d : Draft) (defaultLane : String) (l : Line) (label source : Option String)
    (direction : ArrowDirection) (target : String) : Draft :=
  match (source.map Endpoint.named).or (d.lastFlowNode?.map fun e => .element e.id) with
  | none => d.warn l (.connectionSource l.text)
  | some near =>
    let ends := direction.ends near (.named target)
    (d.enterLane defaultLane).addReference
      { kind := .messageFlow, source := ends.1, target := ends.2, label
        lane := (d.lane defaultLane).id, line := l.number, span := l.span }

/-- Carries out what a line states. -/
def perform (d : Draft) (defaultLane : String) (l : Line) : Statement → Draft
  | .comment => d
  | .flowBreak => d.log .flowBreak
  | .empty => d.warn l (.emptyPayload l.kind)
  | .process name =>
    match d.processName with
    | some existing => d.warn l (.redefinedProcess existing name)
    | none => { d with processName := some name }
  | .lane name => d.openLane name
  | .node kind label => (d.enterLane defaultLane).addNode (d.lane defaultLane) l label kind
  | .branch sign label text => d.performBranch defaultLane l sign label text
  | .data name associated =>
    let lane := d.lane defaultLane
    let d := d.enterLane defaultLane
    d.declare lane (d.newElement lane l name (.dataObject associated))
  | .note text =>
    let lane := d.lane defaultLane
    let d := d.enterLane defaultLane
    d.declare lane (d.newElement lane l text (.note (d.lastSubject?.map (·.id))))
  | .connect label source direction target =>
    d.performConnection defaultLane l label source direction target
  | .badConnection => d.warn l (.connectionForm l.text)

/-- Takes a line: closes the gateways it does not belong to, then carries out what it states. -/
def consume (defaultLane : String) (d : Draft) (l : Line) : Draft :=
  (d.closeGateways (OpenGateway.closedBy l.kind l.depth)).perform defaultLane l (.ofLine l)

/-- The document so far. -/
def document (d : Draft) : Document :=
  { processName := d.processName
    lanes := d.lanes.map fun lane =>
      { toLaneHeader := lane, elements := d.elements.filter (·.lane = lane.id) } }

end Draft

end Swimlane
