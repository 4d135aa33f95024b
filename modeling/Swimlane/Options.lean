import Swimlane.Failure

/-!
# Options

Every option has a default. `ReadOptions` govern how a text is read, `DrawOptions` how its diagram
is drawn.
-/

namespace Swimlane

/-- The direction a flowchart grows in. -/
inductive Direction where
  | topDown
  | leftRight
  | bottomTop
  | rightLeft
  deriving Repr, DecidableEq

namespace Direction

def code : Direction → String
  | .topDown => "TD"
  | .leftRight => "LR"
  | .bottomTop => "BT"
  | .rightLeft => "RL"

/-- The direction with exactly this code. -/
def ofCode? (text : String) : Option Direction :=
  [topDown, leftRight, bottomTop, rightLeft].find? (·.code = text)

/-- Reads a direction in letters of either case; `TB` is another way to write `TD`. -/
def parse (text : String) : Except Fault Direction :=
  let upper := text.toUpper
  if upper = "TB" then .ok .topDown
  else match ofCode? upper with
    | some direction => .ok direction
    | none => .error (.unknownDirection upper)

end Direction

/-- How a text is read: how deep lines may be nested, and the lane of elements before any lane. -/
structure ReadOptions where
  maxDepth : Nat := 64
  defaultLane : String := "Default"
  deriving Repr, DecidableEq

/-- How a diagram is drawn. -/
structure DrawOptions where
  direction : Direction := .topDown
  /-- Write style classes. -/
  styles : Bool := true
  /-- Write the name of the process as a title. -/
  title : Bool := true
  deriving Repr, DecidableEq

structure Options where
  read : ReadOptions := {}
  draw : DrawOptions := {}
  deriving Repr, DecidableEq

end Swimlane
