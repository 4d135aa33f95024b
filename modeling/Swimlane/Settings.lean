import Swimlane.Options
import Swimlane.Text.Blank
import Swimlane.Yaml.Node

/-!
# Settings

Options are read from a YAML mapping. Its keys `parse` and `render` hold mappings of options; what
is left out keeps its default. A key that is not known or occurs twice makes the settings invalid,
and so does a value of the wrong kind.

## Main definitions

* `Settings.options?`: the options that nodes describe;
* `Settings.parse`: the options of a text.
-/

namespace Swimlane.Settings

open Yaml

/-- The entries of a mapping under their keys. An empty scalar is an empty mapping. -/
def fields? (g : NodeGraph) : Node → Option (List (String × Node))
  | .mapping entries => entries.mapM fun entry =>
    match g.resolve entry.1 with
    | .scalar s => some (s.text, g.resolve entry.2)
    | _ => none
  | .scalar s => if s.style = .plain && s.text = "" then some [] else none
  | .alias _ => none

/-- Whether a scalar may stand for a value of the type that a tag names. -/
def isTyped (tag : String) (s : Scalar) : Bool :=
  s.style = .plain || (s.style = .literal && s.tag = some ("tag:yaml.org,2002:" ++ tag))

/-- The value of a digit in some base. -/
def digit? (base : Nat) (c : Char) : Option Nat :=
  let n :=
    if '0' ≤ c && c ≤ '9' then c.toNat - '0'.toNat
    else if 'a' ≤ c && c ≤ 'z' then c.toNat - 'a'.toNat + 10
    else if 'A' ≤ c && c ≤ 'Z' then c.toNat - 'A'.toNat + 10
    else base
  if n < base then some n else none

/-- The number that digits write, if it fits into 64 bits. A plus sign may stand before them. -/
def number? (base : Nat) (cs : List Char) : Option Nat :=
  let digits := if cs.head? = some '+' then cs.drop 1 else cs
  if digits.isEmpty then none
  else (digits.foldlM (fun n c => (digit? base c).map (base * n + ·)) 0).filter (· < UInt64.size)

/-- The number of digits behind the mark of a base. -/
def marked? (mark : String) (base : Nat) (cs : List Char) : Option Nat :=
  if mark.toList.isPrefixOf cs && (cs.drop 2).head? != some '+' then number? base (cs.drop 2)
  else none

/-- A number in base ten, or behind `0x`, `0o` and `0b` in base sixteen, eight and two. A number in
base ten has no zero in front. -/
def unsigned? (text : String) : Option Nat :=
  let cs := text.toList
  let cs := if cs.head? = some '+' then cs.drop 1 else cs
  let decimal :=
    if cs.head? = some '+' then none
    else if 2 ≤ cs.length && cs.head? = some '0' && cs.all Char.isDigit then none
    else number? 10 cs
  (marked? "0x" 16 cs).or ((marked? "0o" 8 cs).or ((marked? "0b" 2 cs).or decimal))

def natural? : Node → Option Nat
  | .scalar s => if isTyped "int" s then unsigned? s.text else none
  | _ => none

def boolean? : Node → Option Bool
  | .scalar s =>
    if !isTyped "bool" s then none
    else if ["true", "True", "TRUE"].contains s.text then some true
    else if ["false", "False", "FALSE"].contains s.text then some false
    else none
  | _ => none

/-- A text is any scalar, however it is written. -/
def text? : Node → Option String
  | .scalar s => some s.text
  | _ => none

/-- Whether a scalar stands for nothing. -/
def isNull (s : Scalar) : Bool :=
  s.style = .plain && ["", "~", "null", "Null", "NULL"].contains s.text

/-- A direction is given by its code, as a scalar or as the tag of nothing. -/
def direction? : Node → Option Direction
  | .mapping _ | .alias _ => none
  | .scalar s =>
    match s.tag.map String.toList with
    | some ('!' :: c :: cs) =>
      if isNull s then Direction.ofCode? (String.ofList (c :: cs)) else none
    | some ['!'] => none
    | _ => Direction.ofCode? s.text

def readField? (o : ReadOptions) (field : String × Node) : Option ReadOptions :=
  match field.1 with
  | "max_depth" => (natural? field.2).map fun n => { o with maxDepth := n }
  | "default_lane" => (text? field.2).map fun s => { o with defaultLane := s }
  | _ => none

def drawField? (o : DrawOptions) (field : String × Node) : Option DrawOptions :=
  match field.1 with
  | "direction" => (direction? field.2).map fun d => { o with direction := d }
  | "styles" => (boolean? field.2).map fun b => { o with styles := b }
  | "title" => (boolean? field.2).map fun b => { o with title := b }
  | _ => none

/-- Takes the fields of a mapping one by one into options. No key may occur twice. -/
def foldFields? {α : Type} (g : NodeGraph) (step : α → String × Node → Option α) (start : α)
    (n : Node) : Option α := do
  let fields ← fields? g n
  if (fields.map (·.1)).Nodup then fields.foldlM step start else none

def field? (g : NodeGraph) (o : Options) (field : String × Node) : Option Options :=
  match field.1 with
  | "parse" => (foldFields? g readField? {} field.2).map fun r => { o with read := r }
  | "render" => (foldFields? g drawField? {} field.2).map fun r => { o with draw := r }
  | _ => none

/-- The options that the nodes of a document describe. -/
def options? (g : NodeGraph) : Option Options :=
  match g.root with
  | none => some {}
  | some n => foldFields? g (field? g) {} n

/-- The options that a text describes. A blank text and one of comments describe the defaults. -/
def parse (text : String) : Except Fault Options :=
  if (Text.trim text.toList).isEmpty then .ok {}
  else match Yaml.parse? text with
    | none => .error (.invalidSettings "the text is not a mapping of options")
    | some g =>
      match options? g with
      | none => .error (.invalidSettings "a key or a value is not allowed")
      | some o => .ok o

end Swimlane.Settings
