import Swimlane.Diagram
import Swimlane.Flow

/-!
# Compiling

From a text to its process graph and diagram.
-/

namespace Swimlane

/-- The process graph of a text and its diagram. -/
structure Compiled where
  graph : ProcessGraph
  diagram : String
  deriving Repr, DecidableEq

/-- Compiles a text. -/
def compile (options : Options) (text : String) : Except Failure Compiled :=
  (ProcessGraph.ofText options.read text).map fun graph =>
    { graph, diagram := Diagram.draw options.draw graph.document graph.connections }

end Swimlane
