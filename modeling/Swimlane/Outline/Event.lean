/-!
# Flow events

The log of what happened to the flow, in the order of the lines. It names elements by their ids.
-/

namespace Swimlane

inductive Event where
  /-- An element of the flow outside of all gateways. -/
  | declared (id : String)
  /-- A task that a gateway branches to. -/
  | branchOpened (gateway task label : String)
  /-- An element inside a branch and the one it follows, if that has not ended the branch. -/
  | branchStep (after : Option String) (id : String)
  /-- The end of an outermost gateway, and where its lane goes on. -/
  | gatewayClosed (gateway : String) (continuation : Option String)
  /-- The second side of a message. -/
  | messagePaired (sender receiver label : String)
  /-- A line that cuts all flow. -/
  | flowBreak
  deriving Repr, DecidableEq

end Swimlane
