import Swimlane.Process.Element
import Swimlane.Source.Line

/-!
# Statements

What a line states, apart from where it stands: the payload of the line taken apart.
-/

namespace Swimlane

/-- What a line states. -/
inductive Statement where
  | comment
  | flowBreak
  /-- Nothing stands behind the sigil. -/
  | empty
  | process (name : String)
  | lane (name : String)
  /-- An element of the sequence flow. -/
  | node (kind : ElementKind) (label : String)
  | branch (sign : Sign) (label : Option String) (text : String)
  | data (name : String) (associated : Option String)
  | note (text : String)
  /-- A connection. Without source it starts at the element before it. -/
  | connect (label source : Option String) (direction : ArrowDirection) (target : String)
  /-- A connection line that names no target. -/
  | badConnection
  deriving Repr, DecidableEq

namespace Statement

/-- The text, unless it is empty. -/
def nonempty? (cs : List Char) : Option String :=
  if cs.isEmpty then none else some (String.ofList cs)

/-- The label between the bars at the start of a branch, and the text behind them. -/
def branchLabel? : List Char → Option (List Char × List Char)
  | '|' :: rest =>
    match rest.dropWhile (· != '|') with
    | [] => none
    | _ :: text => some (Text.trim (rest.takeWhile (· != '|')), Text.trim text)
  | _ => none

def ofBranch (sign : Sign) (text : String) : Statement :=
  match branchLabel? text.toList with
  | none => .branch sign none text
  | some (label, rest) =>
    if rest.isEmpty then .empty else .branch sign (nonempty? label) (String.ofList rest)

/-- A data object is named up to its first blank; what follows names the element it belongs to. -/
def ofData (text : String) : Statement :=
  match text.toList.dropWhile (!Text.isBlank ·) with
  | [] => .data text none
  | _ :: rest =>
    .data (String.ofList (text.toList.takeWhile (!Text.isBlank ·))) (nonempty? (Text.trim rest))

/-- The source of a connection starts at the first `@`; the label stands before it. -/
def ofConnection (text : String) : Statement :=
  match Arrow.splitConnection text.toList with
  | none => .badConnection
  | some (left, direction, right) =>
    let label := nonempty? (Text.trim (left.takeWhile (· != '@')))
    let source :=
      match left.dropWhile (· != '@') with
      | [] => none
      | source => some (String.ofList (Text.trim source))
    .connect label source direction (String.ofList right)

/-- What a kind of line states with a payload that is not empty. -/
def ofPayload (kind : Sigil) (text : String) : Statement :=
  match kind with
  | .comment => .comment
  | .connectionBreak => .flowBreak
  | .processName => .process text
  | .lane => .lane text
  | .gateway => .node (.gateway []) text
  | .branch sign => ofBranch sign text
  | .message side => .node (.message side text) text
  | .note => .note text
  | .connection => ofConnection text
  | .dataObject => ofData text
  | .startEvent => .node .startEvent text
  | .endEvent => .node .endEvent text
  | .task => .node .task text

/-- What a line states. Comments and breaks need no payload. -/
def ofLine (l : Line) : Statement :=
  match l.kind with
  | .comment => .comment
  | .connectionBreak => .flowBreak
  | kind => if l.text = "" then .empty else ofPayload kind l.text

end Statement

end Swimlane
