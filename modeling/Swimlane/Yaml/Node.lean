import Swimlane.Yaml.Token

/-!
# YAML nodes

The structure of a YAML text of scalars and mappings. Nodes may have names, by which aliases stand
for them.

## Main definitions

* `Node`, `NodeGraph`: scalars, mappings and aliases, and the nodes that aliases stand for;
* `NodeGraph.ofTokens?`: the nodes of the document that tokens make up;
* `parse?`: the nodes of a text.
-/

namespace Swimlane.Yaml

/-- A scalar with the tag in front of it. -/
structure Scalar where
  style : Style
  text : String
  tag : Option String := none
  deriving Repr, DecidableEq

inductive Node where
  | scalar (s : Scalar)
  | mapping (entries : List (Node × Node))
  /-- The node with a number. -/
  | alias (number : Nat)
  deriving Repr

/-- What stands where nothing is written. -/
def Node.empty (tag : Option String) : Node := .scalar ⟨.plain, "", tag⟩

/-- The nodes of a document. A text of comments has no root. -/
structure NodeGraph where
  root : Option Node := none
  /-- The nodes that have names, in the order in which they start, under their numbers. -/
  named : List (Nat × Node) := []

/-- The node that a node stands for. Of the nodes with the same number the last counts. -/
def NodeGraph.resolve (g : NodeGraph) : Node → Node
  | .alias number => (g.named.reverse.lookup number).getD (.empty none)
  | n => n

/-- Tokens still to be read, what handles of tags are short for, and the nodes that have names. -/
structure Reader where
  tokens : List Token
  stems : Stems := knownStems
  /-- The numbers of the names. -/
  numbers : List (String × Nat) := []
  named : List (Nat × Node) := []

/-- What stands in front of a node. -/
structure Properties where
  anchor : Option String := none
  tag : Option Tag := none

namespace Reader

def skip (r : Reader) : Reader := { r with tokens := r.tokens.drop 1 }

/-- Reads the anchor and the tag in front of a node, in either order and each at most once. -/
def properties (r : Reader) : Properties × Reader :=
  match r.tokens with
  | .anchor a :: .tag t :: rest | .tag t :: .anchor a :: rest =>
    (⟨some a, some t⟩, { r with tokens := rest })
  | .anchor a :: rest => (⟨some a, none⟩, { r with tokens := rest })
  | .tag t :: rest => (⟨none, some t⟩, { r with tokens := rest })
  | _ => ({}, r)

/-- The text of a tag. A tag whose handle is not known makes the document invalid, and one that is
no text is as good as none. -/
def tagText? (r : Reader) : Option Tag → Option (Option String)
  | none => some none
  | some t => (t.bytes? r.stems).map fun bytes => String.fromUTF8? ⟨bytes.toArray⟩

/-- Gives a name to the node that starts here. Its number is the count of the names there are, so a
name that is given again shares its number with the next new name. -/
def giveName (r : Reader) : Option String → Reader
  | none => r
  | some name =>
    let number := r.numbers.length
    { r with
      numbers := (name, number) :: r.numbers.filter (·.1 != name)
      named := r.named ++ [(number, .empty none)] }

/-- Puts a node in its place among the nodes that have names. -/
def setNamed (r : Reader) (place : Nat) (n : Node) : Option String → Reader
  | none => r
  | some _ => { r with named := r.named.modify place fun entry => (entry.1, n) }

/-- Whether a key or value is left out, since one of these tokens comes next. -/
def isAbsent (ends : List Token) (r : Reader) : Bool := r.tokens.head?.any (ends.contains ·)

mutual

/-- Reads a node. Block mappings may only start outside of flow mappings. -/
def node (fuel : Nat) (block : Bool) (r : Reader) : Option (Node × Reader) :=
  match fuel with
  | 0 => none
  | fuel + 1 =>
    match r.tokens with
    | .alias name :: _ => (r.numbers.lookup name).map fun n => (.alias n, r.skip)
    | _ => do
      let (p, r) := r.properties
      let tag ← r.tagText? p.tag
      let place := r.named.length
      let r := r.giveName p.anchor
      let (n, r) ← match r.tokens with
        | .scalar style text :: _ => some (.scalar ⟨style, text, tag⟩, r.skip)
        | .flowMapping :: _ => do
          let (entries, r) ← flowEntries fuel true r.skip
          some (.mapping entries, r)
        | .blockMapping :: _ =>
          if block then do
            let (entries, r) ← blockEntries fuel r.skip
            some (.mapping entries, r)
          else none
        | _ => if p.anchor.isSome || p.tag.isSome then some (.empty tag, r) else none
      return (n, r.setNamed place n p.anchor)

/-- Reads a node unless one of the tokens `ends` comes next. -/
def optionalNode (fuel : Nat) (block : Bool) (ends : List Token) (r : Reader) :
    Option (Node × Reader) :=
  match fuel with
  | 0 => none
  | fuel + 1 => if isAbsent ends r then some (.empty none, r) else node fuel block r

/-- Reads the value behind a key, which may be left out with its colon. -/
def mappingValue (fuel : Nat) (block : Bool) (ends : List Token) (r : Reader) :
    Option (Node × Reader) :=
  match fuel with
  | 0 => none
  | fuel + 1 =>
    match r.tokens with
    | .value :: _ => optionalNode fuel block ends r.skip
    | _ => some (.empty none, r)

/-- Reads the entries of a block mapping up to its end. -/
def blockEntries (fuel : Nat) (r : Reader) : Option (List (Node × Node) × Reader) :=
  match fuel with
  | 0 => none
  | fuel + 1 =>
    match r.tokens with
    | .blockEnd :: _ => some ([], r.skip)
    | .key :: _ => do
      let (k, r) ← optionalNode fuel true [.key, .value, .blockEnd] r.skip
      let (v, r) ← mappingValue fuel true [.key, .value, .blockEnd] r
      let (rest, r) ← blockEntries fuel r
      return ((k, v) :: rest, r)
    | _ => none

/-- Reads the entries of a flow mapping up to its end. -/
def flowEntries (fuel : Nat) (first : Bool) (r : Reader) : Option (List (Node × Node) × Reader) :=
  match fuel with
  | 0 => none
  | fuel + 1 => do
    match r.tokens with
    | .flowEnd :: _ => some ([], r.skip)
    | _ =>
      let r ← match first, r.tokens with
        | true, _ => some r
        | false, .flowEntry :: _ => some r.skip
        | false, _ => none
      match r.tokens with
      | .flowEnd :: _ => some ([], r.skip)
      | .key :: _ =>
        let (k, r) ← optionalNode fuel false [.value, .flowEntry, .flowEnd] r.skip
        let (v, r) ← mappingValue fuel false [.flowEntry, .flowEnd] r
        let (rest, r) ← flowEntries fuel false r
        return ((k, v) :: rest, r)
      | _ =>
        let (k, r) ← node fuel false r
        let (rest, r) ← flowEntries fuel false r
        return ((k, .empty none) :: rest, r)

end

end Reader

/-- Takes the directives in front of a document. The version is given at most once, and each handle
too. -/
def takeDirectives (versioned : Bool) (stems : Stems) : List Token → Option (Stems × List Token)
  | .version major minor :: rest =>
    if versioned || major != 1 || (minor != 1 && minor != 2) then none
    else takeDirectives true stems rest
  | .stem handle bytes :: rest =>
    if stems.any (·.1 = handle) then none
    else takeDirectives versioned (stems ++ [(handle, bytes)]) rest
  | rest => some (stems, rest)

/-- Whether a document without content ends here. -/
def endsDocument : List Token → Bool
  | [] | .documentStart :: _ | .documentEnd :: _ | .version .. :: _ | .stem .. :: _ => true
  | _ => false

/-- The nodes of the one document that tokens make up. -/
def NodeGraph.ofTokens? (tokens : List Token) : Option NodeGraph := do
  let content (r : Reader) : Option (NodeGraph × List Token) :=
    (Reader.node (4 * tokens.length + 4) true r).map fun p => (⟨some p.1, p.2.named⟩, p.2.tokens)
  let (g, rest) ←
    if tokens.isEmpty then some ({}, [])
    else if !endsDocument tokens then content { tokens }
    else do
      let (stems, tokens) ← takeDirectives false [] tokens
      match tokens with
      | .documentStart :: rest =>
        if endsDocument rest then some (⟨some (.empty none), []⟩, rest)
        else content { tokens := rest, stems := stems ++ knownStems }
      | _ => none
  if rest.all (· = .documentEnd) then some g else none

/-- The nodes of the one document of a text, or nothing when the text is not YAML or holds a
sequence. -/
def parse? (text : String) : Option NodeGraph := (tokens? text.toList).bind NodeGraph.ofTokens?

end Swimlane.Yaml
