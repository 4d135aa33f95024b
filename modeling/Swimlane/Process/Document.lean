import Swimlane.Process.Element
import Swimlane.StableSort

/-!
# Documents

A document is a process with its lanes, and a lane holds elements. Positions are given across all
lanes, so the elements of a document have an order of their own.
-/

namespace Swimlane

/-- A lane without what it holds. -/
structure LaneHeader where
  id : String
  name : String
  deriving Repr, DecidableEq

/-- A participant of the process and its elements. -/
structure Lane extends LaneHeader where
  elements : List Element
  deriving Repr, DecidableEq

/-- A process: its name, if it has one, and its lanes in the order they were opened. -/
structure Document where
  processName : Option String := none
  lanes : List Lane := []
  deriving Repr, DecidableEq

namespace Document

/-- The elements lane by lane. -/
def laneElements (d : Document) : List Element := d.lanes.flatMap (·.elements)

/-- The elements of all lanes by their position. -/
def elements (d : Document) : List Element := StableSort.byKey (·.order) d.laneElements

theorem mem_elements {d : Document} {e : Element} : e ∈ d.elements ↔ e ∈ d.laneElements :=
  (StableSort.perm_sort _ _).mem_iff

def size (d : Document) : Nat := d.laneElements.length

/-- The first element with an id, lane by lane. -/
def find? (d : Document) (id : String) : Option Element := d.laneElements.find? (·.id = id)

/-- The last element with an id, lane by lane. -/
def findLast? (d : Document) (id : String) : Option Element :=
  d.laneElements.reverse.find? (·.id = id)

end Document

end Swimlane
