import Swimlane.Process.Branch
import Swimlane.Process.Message
import Swimlane.Text.Blank

/-!
# Sigils

The first characters of a line say what the line is. What follows them, trimmed, is its payload. A
line that starts with no sigil is a task, and its payload is the whole line.

## Main definitions

* `Sigil`: the kinds of lines;
* `Sigil.split`: kind and payload of a trimmed line.
-/

namespace Swimlane

/-- What a line is. -/
inductive Sigil where
  | processName
  | lane
  | gateway
  | branch (sign : Sign)
  | message (side : Side)
  | note
  | connection
  | dataObject
  | startEvent
  | endEvent
  | connectionBreak
  | comment
  | task
  deriving Repr, DecidableEq

namespace Sigil

/-- The name of a kind of line in messages. -/
def name : Sigil → String
  | .processName => "ProcessName"
  | .lane => "Lane"
  | .gateway => "Gateway"
  | .branch .positive => "BranchPositive"
  | .branch .negative => "BranchNegative"
  | .message .send => "Send"
  | .message .receive => "Receive"
  | .note => "Annotation"
  | .connection => "ExplicitConnection"
  | .dataObject => "DataObject"
  | .startEvent => "StartEvent"
  | .endEvent => "EndEvent"
  | .connectionBreak => "ConnectionBreak"
  | .comment => "Comment"
  | .task => "PlainTask"

/-- Whether a line of this kind may end in an arrow. -/
def acceptsArrow : Sigil → Bool
  | .task | .message _ | .branch _ | .startEvent | .endEvent => true
  | _ => false

/-- Whether a line of this kind declares an element of the sequence flow by itself. A branch is
declared by its gateway. -/
def declaresFlowNode : Sigil → Bool
  | .task | .gateway | .message _ | .startEvent | .endEvent => true
  | _ => false

/-- The sigils of one character. The quote of a note is not among them, since it may be
closed by a second one. -/
def ofChar? : Char → Option Sigil
  | ':' => some .processName
  | '@' => some .lane
  | '?' => some .gateway
  | '+' => some (.branch .positive)
  | '-' => some (.branch .negative)
  | '^' => some .connection
  | '#' => some .dataObject
  | '!' => some .endEvent
  | _ => none

/-- The rest of a text behind a word it starts with. -/
def afterWord? (word : String) (cs : List Char) : Option (List Char) :=
  if word.toList.isPrefixOf cs then some (cs.drop word.length) else none

/-- A line of three or more dashes and nothing else. -/
def isRule (cs : List Char) : Bool := 3 ≤ cs.length && cs.all (· == '-')

/-- Drops the closing quote of a note. -/
def dropClosingQuote (cs : List Char) : List Char :=
  if cs.getLast? = some '"' then cs.dropLast else cs

/-- Kind and payload of a trimmed line that is neither a rule nor starts with a word. -/
def splitFirst : List Char → Sigil × List Char
  | [] => (.task, [])
  | '"' :: rest => (.note, Text.trim (dropClosingQuote (Text.trim rest)))
  | c :: rest =>
    match ofChar? c with
    | some kind => (kind, Text.trim rest)
    | none => (.task, c :: rest)

/-- Kind and payload of a trimmed line. -/
def split (cs : List Char) : Sigil × List Char :=
  if isRule cs then (.connectionBreak, [])
  else match afterWord? "//" cs, afterWord? "send:" cs, afterWord? "receive:" cs with
    | some rest, _, _ => (.comment, Text.trim rest)
    | _, some rest, _ => (.message .send, Text.trim rest)
    | _, _, some rest => (.message .receive, Text.trim rest)
    | none, none, none => splitFirst cs

/-- The printable ASCII characters that are neither letters, digits nor the space. -/
def isPunctuation (c : Char) : Bool :=
  0x21 ≤ c.toNat && c.toNat ≤ 0x7E && !c.isAlphanum

end Sigil

end Swimlane
