import Swimlane.Outline.Event
import Swimlane.Process.Branch
import Swimlane.Source.Sigil

/-!
# Open gateways

While lines below a gateway are read, the gateway is open. The branch whose lines are read is its
body, and the last element of the body is the tail, from which the flow goes on. The first positive
branch decides where the flow goes on behind the gateway.

## Main definitions

* `OpenGateway.exit`: where the flow goes on behind a gateway;
* `OpenGateway.unwind`: closes gateways from the innermost outwards;
* `OpenGateway.closedBy`: which gateways a line closes.
-/

namespace Swimlane

/-- The branch whose lines are read. Its tail is absent after an end event. -/
structure BranchBody where
  sign : Sign
  tail : Option String
  deriving Repr, DecidableEq

/-- A gateway whose branches are read. -/
structure OpenGateway where
  id : String
  /-- The position of the gateway among the elements. -/
  slot : Nat
  depth : Nat
  /-- Number of branches so far. -/
  branches : Nat := 0
  body : Option BranchBody := none
  /-- The tail of the first positive branch, once that branch has ended. -/
  continuation : Option (Option String) := none
  deriving Repr, DecidableEq

namespace OpenGateway

/-- Ends the branch that is read. -/
def finishBody (g : OpenGateway) : OpenGateway :=
  match g.body, g.continuation with
  | some ⟨.positive, tail⟩, none => { g with body := none, continuation := some tail }
  | _, _ => { g with body := none }

/-- Starts a branch at a task. -/
def startBody (g : OpenGateway) (sign : Sign) (task : String) : OpenGateway :=
  { g.finishBody with branches := g.branches + 1, body := some ⟨sign, some task⟩ }

/-- Where the flow goes on behind the gateway: at the gateway itself if it has no branches. -/
def exit (g : OpenGateway) : Option String :=
  if g.branches = 0 then some g.id else g.finishBody.continuation.join

/-- Continues the branch that is read at another element. -/
def setTail (g : OpenGateway) (tail : Option String) : OpenGateway :=
  { g with body := g.body.map fun b => { b with tail } }

/-- Closes the gateway `g` and the ones around it as long as `closes` holds. The gateways left open
are returned, and the event of the last one if none is left. -/
def unwind (closes : OpenGateway → Bool) (g : OpenGateway) :
    List OpenGateway → List OpenGateway × Option Event
  | [] => if closes g then ([], some (.gatewayClosed g.id g.exit)) else ([g], none)
  | parent :: outer =>
    if closes g then unwind closes (parent.setTail g.exit) outer
    else (g :: parent :: outer, none)

/-- Whether a line of a kind and depth closes an open gateway. An element of the flow needs a
branch to stand in; a branch may stand at the depth of its gateway. -/
def closedBy (kind : Sigil) (depth : Nat) (g : OpenGateway) : Bool :=
  match kind with
  | .comment => false
  | .lane | .connectionBreak => true
  | .branch _ => depth < g.depth
  | kind => depth ≤ g.depth || (kind.declaresFlowNode && g.body.isNone)

end OpenGateway

end Swimlane
