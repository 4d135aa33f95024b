/-!
# Connections
-/

namespace Swimlane

inductive ConnectionKind where
  | sequenceFlow
  | messageFlow
  | dataAssociation
  deriving Repr, DecidableEq

namespace ConnectionKind

/-- The name of a kind in published results. -/
def name : ConnectionKind → String
  | .sequenceFlow => "sequenceFlow"
  | .messageFlow => "messageFlow"
  | .dataAssociation => "dataAssociation"

/-- What the ids of connections of this kind start with. -/
def idStem : ConnectionKind → String
  | .sequenceFlow => "seq"
  | .messageFlow => "msg"
  | .dataAssociation => "data"

end ConnectionKind

/-- A directed edge between two elements, given by their ids. -/
structure Connection where
  id : String
  source : String
  target : String
  kind : ConnectionKind
  label : Option String
  deriving Repr, DecidableEq

end Swimlane
