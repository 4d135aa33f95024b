import Swimlane.Process.Connection
import Swimlane.Source.Arrow
import Swimlane.Span

/-!
# References

A connection that a line names outright. Its ends are looked up when the whole document is known.
-/

namespace Swimlane

/-- An end of a reference: an element known when the line was read, or a text that names one. -/
inductive Endpoint where
  | element (id : String)
  | named (text : String)
  deriving Repr, DecidableEq

/-- A connection whose ends are still to be looked up. -/
structure Reference where
  kind : ConnectionKind
  source : Endpoint
  target : Endpoint
  label : Option String
  /-- The id of the lane of the line; its elements are preferred. -/
  lane : String
  line : Nat
  span : Span
  deriving Repr, DecidableEq

/-- Source and target of an arrow between the end near it and the end it points to or from. -/
def ArrowDirection.ends (direction : ArrowDirection) (near far : Endpoint) : Endpoint × Endpoint :=
  match direction with
  | .forward => (near, far)
  | .backward => (far, near)

end Swimlane
