import Swimlane.Process.Connection

/-!
# Edges

An edge is a connection before it has an id. Edges of one kind between the same two elements are the
same edge, whatever their labels.
-/

namespace Swimlane

structure Edge where
  kind : ConnectionKind
  source : String
  target : String
  label : Option String := none
  deriving Repr, DecidableEq

/-- Keys of edges are compared part by part. -/
instance : LawfulBEq (ConnectionKind × String × String) := inferInstance

namespace Edge

/-- What makes an edge the one it is. -/
def key (e : Edge) : ConnectionKind × String × String := (e.kind, e.source, e.target)

/-- The connection of the edge at a position, counted from zero. -/
def connection (position : Nat) (e : Edge) : Connection :=
  { id := e.kind.idStem ++ "_" ++ toString (position + 1)
    source := e.source, target := e.target, kind := e.kind, label := e.label }

end Edge

end Swimlane
