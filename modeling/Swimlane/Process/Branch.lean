/-!
# Gateway branches
-/

namespace Swimlane

/-- The sign of a gateway branch. -/
inductive Sign where
  | positive
  | negative
  deriving Repr, DecidableEq

namespace Sign

def name : Sign → String
  | .positive => "positive"
  | .negative => "negative"

/-- Label of a branch that has none of its own. -/
def defaultLabel : Sign → String
  | .positive => "Yes"
  | .negative => "No"

end Sign

/-- One way out of a gateway: the label on it and the id of the task it leads to. -/
structure Branch where
  sign : Sign
  label : String
  task : String
  deriving Repr, DecidableEq

end Swimlane
