import Swimlane.Flow.Edge
import Swimlane.Outline.Event
import Swimlane.Process.Document

/-!
# Threads

The sequence flow of the event log. Each lane has at most one thread, the element from which its
flow goes on; the cursor is the element that was last put on a thread. A new element of a lane
follows the thread of its lane, and in a lane without thread the cursor.

## Main definitions

* `Threads.step`: the threads after an event, and the edge it draws;
* `Threads.run`: the edges of a log.
-/

namespace Swimlane

/-- The open threads, by the ids of their lanes, and the cursor. -/
structure Threads where
  threads : List (String × String) := []
  cursor : Option String := none
  deriving Repr, DecidableEq

namespace Threads

def thread? (t : Threads) (lane : String) : Option String := t.threads.lookup lane

/-- Puts an element on the thread of a lane. -/
def advance (t : Threads) (lane id : String) : Threads :=
  ⟨(lane, id) :: t.threads.filter (·.1 != lane), some id⟩

/-- Ends the thread of a lane. -/
def finish (t : Threads) (lane : String) : Threads :=
  ⟨t.threads.filter (·.1 != lane), none⟩

/-- The element that a new element of a lane follows. -/
def before? (t : Threads) (doc : Document) (lane : String) : Option String :=
  (t.thread? lane).or
    (t.cursor.filter fun c => (doc.findLast? c).map (·.lane) != some lane)

/-- The edge to a new element. Nothing leads to a start event. -/
def edgeTo? (source : Option String) (e : Element) : Option Edge :=
  if e.kind = .startEvent then none
  else source.map fun s => { kind := .sequenceFlow, source := s, target := e.id }

/-- The threads after an element outside of all gateways. Nothing follows an end event. -/
def declare (t : Threads) (e : Element) : Threads :=
  if e.kind = .endEvent then t.finish e.lane else t.advance e.lane e.id

/-- The threads after an event, and the edge that it draws. Events about unknown elements are
passed over. -/
def step (doc : Document) (t : Threads) : Event → Threads × Option Edge
  | .declared id =>
    match doc.findLast? id with
    | none => (t, none)
    | some e => (t.declare e, edgeTo? (t.before? doc e.lane) e)
  | .branchOpened gateway task label =>
    (t, some { kind := .sequenceFlow, source := gateway, target := task, label := some label })
  | .branchStep after id => (t, (doc.findLast? id).bind (edgeTo? after))
  | .gatewayClosed gateway continuation =>
    match doc.findLast? gateway with
    | none => (t, none)
    | some g =>
      match continuation.bind doc.findLast? with
      | none => (t.finish g.lane, none)
      | some e => (t.advance g.lane e.id, none)
  | .messagePaired sender receiver label =>
    (t, some { kind := .messageFlow, source := sender, target := receiver, label := some label })
  | .flowBreak => ({}, none)

/-- The edges that events draw, in their order. -/
def run (doc : Document) (t : Threads) : List Event → List Edge
  | [] => []
  | e :: es => (t.step doc e).2.toList ++ run doc (t.step doc e).1 es

end Threads

end Swimlane
