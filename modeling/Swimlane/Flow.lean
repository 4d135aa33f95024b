import Swimlane.Flow.Resolve
import Swimlane.Flow.Thread
import Swimlane.Outline
import Swimlane.Process.Graph

/-!
# Flow

The connections of a document: those that the event log draws, then the associations of its data
objects, then its references. Each of these has an outcome, an edge or a warning. Of several
outcomes with the same edge the first counts.

## Main definitions

* `Flow.outcomes`: what events, data objects and references come to;
* `Flow.connections`, `Flow.diagnostics`: the numbered edges and the warnings among outcomes;
* `ProcessGraph.ofText`: from a text to its process graph.
-/

namespace Swimlane

/-- What an event, a data object or a reference comes to. -/
inductive Outcome where
  | edge (e : Edge)
  /-- A data object whose element is not declared. -/
  | looseData (element : Element) (associated : String)
  /-- A reference with an end that names nothing. -/
  | looseReference (reference : Reference) (missing : String)
  deriving Repr, DecidableEq

namespace Outcome

def edge? : Outcome → Option Edge
  | .edge e => some e
  | _ => none

def warning? : Outcome → Option Diagnostic
  | .edge _ => none
  | .looseData element associated =>
    some ((Finding.unresolvedData element.label associated).toDiagnostic element.line element.span)
  | .looseReference reference missing =>
    some ((Finding.unresolvedReference missing).toDiagnostic reference.line reference.span)

/-- The outcome of a data object that names an element. -/
def ofData? (doc : Document) (e : Element) : Option Outcome :=
  match e.kind with
  | .dataObject (some associated) =>
    match doc.resolve? associated e.lane with
    | some target => some (.edge { kind := .dataAssociation, source := e.id, target })
    | none => some (.looseData e associated)
  | _ => none

/-- The outcome of a reference. A source that names nothing is reported before such a target. -/
def ofReference (doc : Document) (r : Reference) : Outcome :=
  match doc.endpoint r.lane r.source, doc.endpoint r.lane r.target with
  | .ok source, .ok target => .edge { kind := r.kind, source, target, label := r.label }
  | .error missing, _ => .looseReference r missing
  | _, .error missing => .looseReference r missing

/-- Keeps the first outcome of each edge and all warnings. -/
def distinct (seen : List (ConnectionKind × String × String)) : List Outcome → List Outcome
  | [] => []
  | .edge e :: rest =>
    if e.key ∈ seen then distinct seen rest else .edge e :: distinct (e.key :: seen) rest
  | o :: rest => o :: distinct seen rest

end Outcome

namespace Flow

/-- What the events, data objects and references of a document come to, each edge once. -/
def outcomes (doc : Document) (events : List Event) (references : List Reference) : List Outcome :=
  Outcome.distinct [] <|
    (Threads.run doc {} events).map .edge ++
      doc.elements.filterMap (Outcome.ofData? doc) ++
      references.map (Outcome.ofReference doc)

/-- The connections among outcomes, numbered from one. -/
def connections (outcomes : List Outcome) : List Connection :=
  (outcomes.filterMap Outcome.edge?).mapIdx Edge.connection

/-- The warnings among outcomes. -/
def diagnostics (outcomes : List Outcome) : List Diagnostic := outcomes.filterMap Outcome.warning?

end Flow

namespace ProcessGraph

/-- The process graph of an outline. Diagnostics are in the order of their lines, and on one line in
the order they were raised. -/
def ofOutline (o : Outline) : ProcessGraph :=
  let outcomes := Flow.outcomes o.document o.events o.references
  { document := o.document
    connections := Flow.connections outcomes
    diagnostics := StableSort.byKey (·.line) (o.diagnostics ++ Flow.diagnostics outcomes) }

/-- The process graph of a text. -/
def ofText (options : ReadOptions) (text : String) : Except Failure ProcessGraph :=
  (Outline.ofText options text).map ofOutline

end ProcessGraph

end Swimlane
