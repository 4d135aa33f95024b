import Mathlib.Data.List.Infix
import Swimlane.Outline.Statement

/-!
# Scripts

A script is a well-nested process as a tree: lanes, breaks and statements, where a gateway holds its
branches and a branch holds its statements. It is written down with one row for each lane, break,
statement and branch, indented by its depth in the tree. Its flow is told by recursion on the tree.

Elements are named by their positions in the order of their declaration.

## Main definitions

* `Script.Item`, `Script.Step`, `Script.Arm`: the trees;
* `Script.rows`, `Script.print`: how a script is written down;
* `Script.IsPlain`: labels that mean nothing but themselves;
* `Step.exit`, `Step.links`: where the flow goes on behind a statement, and the links inside it;
* `Script.flow`: the links of a script.
-/

namespace Swimlane.Script

/-! ## Trees -/

/-- A statement without parts. -/
inductive Leaf where
  | task (label : String)
  | message (side : Side) (text : String)
  | start (label : String)
  | finish (label : String)
  deriving Repr, DecidableEq

mutual

/-- A statement: a leaf, or a gateway with its branches. -/
inductive Step where
  | leaf (leaf : Leaf)
  | gateway (label : String) (arms : List Arm)

/-- A branch of a gateway: its sign, its label, its task and the statements behind the task. -/
inductive Arm where
  | mk (sign : Sign) (label : Option String) (task : String) (body : List Step)

end

/-- What stands at the top of a script. -/
inductive Item where
  | lane (name : String)
  | flowBreak
  | step (step : Step)

def Leaf.label : Leaf → String
  | .task label | .message _ label | .start label | .finish label => label

/-- The kind of element that a leaf declares. -/
def Leaf.kind : Leaf → ElementKind
  | .task _ => .task
  | .message side text => .message side text
  | .start _ => .startEvent
  | .finish _ => .endEvent

/-! ## Rows -/

/-- What one row of a script says. -/
inductive Entry where
  | lane (name : String)
  | flowBreak
  | leaf (leaf : Leaf)
  | gateway (label : String)
  | branch (sign : Sign) (label : Option String) (task : String)
  deriving Repr, DecidableEq

/-- An entry at a depth. -/
structure Row where
  depth : Nat
  entry : Entry
  deriving Repr, DecidableEq

mutual

/-- The rows of a statement at a depth. Branches stand one deeper, and what is in them two. -/
def Step.rows (depth : Nat) : Step → List Row
  | .leaf leaf => [⟨depth, .leaf leaf⟩]
  | .gateway label arms => ⟨depth, .gateway label⟩ :: armsRows depth arms

def armsRows (depth : Nat) : List Arm → List Row
  | [] => []
  | .mk sign label task body :: arms =>
    ⟨depth + 1, .branch sign label task⟩ :: bodyRows (depth + 2) body ++ armsRows depth arms

def bodyRows (depth : Nat) : List Step → List Row
  | [] => []
  | step :: steps => step.rows depth ++ bodyRows depth steps

end

def Item.rows : Item → List Row
  | .lane name => [⟨0, .lane name⟩]
  | .flowBreak => [⟨0, .flowBreak⟩]
  | .step s => s.rows 0

/-- The rows of a script. -/
def rows (script : List Item) : List Row := script.flatMap Item.rows

/-! ## Texts -/

def Leaf.chars : Leaf → List Char
  | .task label => label.toList
  | .message side text => (side.display text).toList
  | .start label | .finish label => '!' :: label.toList

/-- The sigil of a branch. -/
def signChar : Sign → Char
  | .positive => '+'
  | .negative => '-'

def Entry.chars : Entry → List Char
  | .lane name => '@' :: name.toList
  | .flowBreak => ['-', '-', '-']
  | .leaf l => l.chars
  | .gateway label => '?' :: label.toList
  | .branch sign none task => signChar sign :: task.toList
  | .branch sign (some label) task =>
    signChar sign :: '|' :: label.toList ++ '|' :: ' ' :: task.toList

/-- The characters of one level of indentation. -/
def unitChars : IndentUnit → List Char
  | .spaces width => List.replicate width ' '
  | .tab => ['\t']

/-- The text of a row, indented by its depth. -/
def Row.chars (unit : IndentUnit) (row : Row) : List Char :=
  (List.replicate row.depth (unitChars unit)).flatten ++ row.entry.chars

/-- The text of a script. -/
def print (unit : IndentUnit) (script : List Item) : String :=
  String.ofList (List.intercalate ['\n'] ((rows script).map (Row.chars unit)))

/-- A text that can be written behind a sigil: not empty, without blanks around it, on one line. -/
structure IsName (name : String) : Prop where
  ne_empty : name ≠ ""
  trimmed : Text.trim name.toList = name.toList
  oneLine : '\n' ∉ name.toList

/-- A label that means nothing but itself, wherever it is written: it has no arrow in it and starts
with no sigil. -/
structure IsPlain (label : String) : Prop extends IsName label where
  forward : ¬ ['-', '>'] <:+: label.toList
  backward : ¬ ['<', '-'] <:+: label.toList
  punctuation : ∀ c ∈ label.toList.head?, Sigil.isPunctuation c = false
  send : ¬ "send:".toList <+: label.toList
  receive : ¬ "receive:".toList <+: label.toList

/-- The labels of an entry are plain, start events are called so, and the label of a branch has no
bar in it. -/
def Entry.IsPlain : Entry → Prop
  | .lane name => IsName name
  | .flowBreak => True
  | .leaf (.task label) | .leaf (.message _ label) => Script.IsPlain label
  | .leaf (.start label) => Script.IsPlain label ∧ label.toLower = "start"
  | .leaf (.finish label) => Script.IsPlain label ∧ label.toLower ≠ "start"
  | .gateway label => Script.IsPlain label
  | .branch _ label task =>
    Script.IsPlain task ∧ ∀ l ∈ label, Script.IsPlain l ∧ '|' ∉ l.toList

instance (name : String) : Decidable (IsName name) :=
  decidable_of_iff (name ≠ "" ∧ Text.trim name.toList = name.toList ∧ '\n' ∉ name.toList)
    ⟨fun ⟨ne, trimmed, oneLine⟩ => ⟨ne, trimmed, oneLine⟩, fun h => ⟨h.1, h.2, h.3⟩⟩

instance (label : String) : Decidable (IsPlain label) :=
  decidable_of_iff
    (IsName label ∧ ¬ ['-', '>'] <:+: label.toList ∧ ¬ ['<', '-'] <:+: label.toList ∧
      label.toList.head?.all (!Sigil.isPunctuation ·) = true ∧
      ¬ "send:".toList <+: label.toList ∧ ¬ "receive:".toList <+: label.toList)
    ⟨fun ⟨name, fwd, bwd, first, send, receive⟩ =>
        ⟨name, fwd, bwd, by simpa [Option.all_eq_true] using first, send, receive⟩,
      fun h => ⟨h.1, h.2, h.3, by simpa [Option.all_eq_true] using h.4, h.5, h.6⟩⟩

instance : (entry : Entry) → Decidable entry.IsPlain
  | .lane name => inferInstanceAs (Decidable (IsName name))
  | .flowBreak => inferInstanceAs (Decidable True)
  | .leaf (.task label) | .leaf (.message _ label) =>
    inferInstanceAs (Decidable (Script.IsPlain label))
  | .leaf (.start label) =>
    inferInstanceAs (Decidable (Script.IsPlain label ∧ label.toLower = "start"))
  | .leaf (.finish label) =>
    inferInstanceAs (Decidable (Script.IsPlain label ∧ label.toLower ≠ "start"))
  | .gateway label => inferInstanceAs (Decidable (Script.IsPlain label))
  | .branch _ label task =>
    inferInstanceAs
      (Decidable (Script.IsPlain task ∧ ∀ l ∈ label, Script.IsPlain l ∧ '|' ∉ l.toList))

/-! ## Elements -/

/-- Kind and label of the element that an entry declares. -/
def Entry.node? : Entry → Option (String × String)
  | .lane _ | .flowBreak => none
  | .leaf l => some (l.kind.name, l.label)
  | .gateway label => some ((ElementKind.gateway []).name, label)
  | .branch _ _ task => some (ElementKind.task.name, task)

/-- Kinds and labels of the elements of a script, in the order of their declaration. -/
def nodes (script : List Item) : List (String × String) :=
  (rows script).filterMap (·.entry.node?)

mutual

/-- Number of elements of a statement. -/
def Step.size : Step → Nat
  | .leaf _ => 1
  | .gateway _ arms => 1 + armsSize arms

def armsSize : List Arm → Nat
  | [] => 0
  | .mk _ _ _ body :: arms => 1 + bodySize body + armsSize arms

def bodySize : List Step → Nat
  | [] => 0
  | step :: steps => step.size + bodySize steps

end

/-! ## Flow -/

/-- A link of the flow between two positions. -/
structure Link where
  source : Nat
  target : Nat
  label : Option String := none
  deriving Repr, DecidableEq

/-- The link to a position from the one before it in the flow, if there is one. -/
def linkFrom (before : Option Nat) (n : Nat) : List Link := before.toList.map fun m => ⟨m, n, none⟩

/-- Nothing follows an end event. -/
def Leaf.exit (n : Nat) : Leaf → Option Nat
  | .finish _ => none
  | _ => some n

/-- Nothing leads to a start event. -/
def Leaf.links (before : Option Nat) (n : Nat) : Leaf → List Link
  | .start _ => []
  | _ => linkFrom before n

mutual

/-- Where the flow goes on behind a statement at position `n`: behind a gateway, where it goes on
behind its first positive branch. A gateway without branches is passed like a task. -/
def Step.exit (n : Nat) : Step → Option Nat
  | .leaf leaf => leaf.exit n
  | .gateway _ [] => some n
  | .gateway _ (arm :: arms) => armsExit (n + 1) (arm :: arms)

def armsExit (n : Nat) : List Arm → Option Nat
  | [] => none
  | .mk .positive _ _ body :: _ => bodyExit (some n) (n + 1) body
  | .mk .negative _ _ body :: arms => armsExit (n + 1 + bodySize body) arms

def bodyExit (before : Option Nat) (n : Nat) : List Step → Option Nat
  | [] => before
  | step :: steps => bodyExit (step.exit n) (n + step.size) steps

end

mutual

/-- The links that a statement at position `n` brings with it: the one to it and those inside it.
A gateway is linked to the tasks of its branches. -/
def Step.links (before : Option Nat) (n : Nat) : Step → List Link
  | .leaf leaf => leaf.links before n
  | .gateway _ arms => linkFrom before n ++ armsLinks n (n + 1) arms

def armsLinks (gateway n : Nat) : List Arm → List Link
  | [] => []
  | .mk sign label _ body :: arms =>
    ⟨gateway, n, some (label.getD sign.defaultLabel)⟩ :: bodyLinks (some n) (n + 1) body ++
      armsLinks gateway (n + 1 + bodySize body) arms

def bodyLinks (before : Option Nat) (n : Nat) : List Step → List Link
  | [] => []
  | step :: steps => step.links before n ++ bodyLinks (step.exit n) (n + step.size) steps

end

/-- Where the flow may go on between the items of a script: the current lane, the thread of each
lane, and the last position that was put on a thread. -/
structure Frontier where
  lane : String
  thread : String → Option Nat := fun _ => none
  cursor : Option Nat := none

/-- A statement follows the thread of its lane; in a lane without thread it follows the cursor. -/
def Frontier.before (f : Frontier) : Option Nat := (f.thread f.lane).or f.cursor

/-- The frontier behind a statement of the current lane. -/
def Frontier.advance (f : Frontier) (exit : Option Nat) : Frontier :=
  { f with thread := fun lane => if lane = f.lane then exit else f.thread lane, cursor := exit }

/-- The links of items from a frontier and a position on. A lane only changes the current lane, and
a break cuts all threads. -/
def flowFrom (f : Frontier) (n : Nat) : List Item → List Link
  | [] => []
  | .lane name :: items => flowFrom { f with lane := name } n items
  | .flowBreak :: items => flowFrom { lane := f.lane } n items
  | .step step :: items =>
    step.links f.before n ++ flowFrom (f.advance (step.exit n)) (n + step.size) items

/-- The links of a script whose first statements belong to a default lane. -/
def flow (defaultLane : String) (script : List Item) : List Link :=
  flowFrom { lane := defaultLane } 0 script

example : flow "A" [.step (.gateway "ok" [.mk .positive none "y" [], .mk .negative none "n" []]),
    .step (.leaf (.task "z"))] =
    [⟨0, 1, some "Yes"⟩, ⟨0, 2, some "No"⟩, ⟨1, 3, none⟩] := by decide

end Swimlane.Script
