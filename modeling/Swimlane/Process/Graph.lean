import Swimlane.Diagnostic
import Swimlane.Process.Connection
import Swimlane.Process.Document

/-!
# Process graphs

The result of reading a text: the document, the connections between its elements and the
diagnostics in the order of their lines.
-/

namespace Swimlane

structure ProcessGraph where
  document : Document
  connections : List Connection
  diagnostics : List Diagnostic
  deriving Repr, DecidableEq

end Swimlane
