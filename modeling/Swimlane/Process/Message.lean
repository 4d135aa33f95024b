/-!
# The two sides of a message
-/

namespace Swimlane

/-- A message is sent and received. -/
inductive Side where
  | send
  | receive
  deriving Repr, DecidableEq

namespace Side

def word : Side → String
  | .send => "send"
  | .receive => "receive"

/-- How an element on this side of a message is shown. -/
def display (side : Side) (message : String) : String := side.word ++ ": " ++ message

end Side

end Swimlane
