import Swimlane.Compile

/-!
# Log lines

What the compiler tells about its work, by level. Logging never changes a result: log entries are
made from the results.

## Main definitions

* `Log.Level`: how important an entry is;
* `Log.Entry.text`: an entry as a line;
* `Log.ofOutline`, `Log.ofOutcomes`, `Log.ofDiagram`, `Log.ofCompiled`: the entries about results.
-/

namespace Swimlane.Log

/-- The levels of log entries. -/
inductive Level where
  | error
  | warn
  | info
  | debug
  | trace
  deriving Repr, DecidableEq

namespace Level

/-- The rank of a level; less important levels have higher ranks. -/
def rank : Level → Nat
  | .error => 1
  | .warn => 2
  | .info => 3
  | .debug => 4
  | .trace => 5

/-- The name of a level, as wide as the widest. -/
def column : Level → String
  | .error => "ERROR"
  | .warn => " WARN"
  | .info => " INFO"
  | .debug => "DEBUG"
  | .trace => "TRACE"

/-- The level that the option for more output asks for. -/
def ofVerbosity : Nat → Level
  | 0 => .error
  | 1 => .debug
  | _ => .trace

end Level

/-- Which entries are written: those up to a rank. -/
abbrev Threshold := Nat

/-- Reads a threshold by the name or the rank of a level. Any other word
silences the log. -/
def thresholdOf (text : String) : Threshold :=
  match text.toLower with
  | "" | "error" | "1" => 1
  | "warn" | "2" => 2
  | "info" | "3" => 3
  | "debug" | "4" => 4
  | "trace" | "5" => 5
  | _ => 0

/-- An entry of the log. -/
structure Entry where
  level : Level
  /-- The part of the program that speaks. -/
  origin : String
  message : String
  fields : List (String × String) := []
  deriving Repr, DecidableEq

namespace Entry

/-- An entry as a line. -/
def text (e : Entry) : String :=
  e.level.column ++ " " ++ e.origin ++ ": " ++ e.message ++
    String.join (e.fields.map fun f => " " ++ f.1 ++ "=" ++ f.2)

end Entry

/-- The entries up to a threshold. Where none can pass they are not made. -/
def upTo (threshold : Threshold) (entries : Unit → List Entry) : List Entry :=
  if threshold < 2 then [] else (entries ()).filter fun e => e.level.rank ≤ threshold

/-- A count as a field. -/
def count (name : String) (n : Nat) : String × String := (name, toString n)

/-- A text in quotes as a field. -/
def quoted (name text : String) : String × String := (name, "\"" ++ text ++ "\"")

/-- The entry about the outline of a text. -/
def ofOutline (o : Outline) : Entry :=
  { level := .debug, origin := "bpmn_lite::syntax::parser", message := "parsed document"
    fields :=
      [count "lanes" o.document.lanes.length, count "elements" o.document.size,
       count "events" o.events.length, count "references" o.references.length,
       count "diagnostics" o.diagnostics.length] }

/-- The name of a kind of connection in the log. -/
def kindName : ConnectionKind → String
  | .sequenceFlow => "SequenceFlow"
  | .messageFlow => "MessageFlow"
  | .dataAssociation => "DataAssociation"

/-- The entry about one outcome. -/
def ofOutcome : Outcome → Entry
  | .edge e =>
    { level := .trace, origin := "bpmn_lite::inference", message := "edge"
      fields := [("kind", kindName e.kind), quoted "source" e.source, quoted "target" e.target] }
  | .looseData element associated =>
    { level := .warn, origin := "bpmn_lite::inference", message := "unresolved data association"
      fields := [("data", element.id), ("task", associated)] }
  | .looseReference reference missing =>
    { level := .warn, origin := "bpmn_lite::inference", message := "dropped unresolved reference"
      fields := [count "line" reference.line, ("reference", missing)] }

/-- The entries about the flow of a document. -/
def ofOutcomes (outcomes : List Outcome) : List Entry :=
  outcomes.map ofOutcome ++
    [{ level := .debug, origin := "bpmn_lite::inference", message := "inferred flow"
       fields :=
         [count "connections" (Flow.connections outcomes).length,
          count "diagnostics" (Flow.diagnostics outcomes).length] }]

/-- The entries about a text that is read. Of a text that fails nothing is told. -/
def ofText (options : ReadOptions) (text : String) : List Entry :=
  match Outline.ofText options text with
  | .error _ => []
  | .ok o => ofOutline o :: ofOutcomes (Flow.outcomes o.document o.events o.references)

/-- The entry about a diagram. -/
def ofDiagram (options : DrawOptions) (graph : ProcessGraph) : Entry :=
  { level := .debug, origin := "bpmn_lite::transpile", message := "rendered mermaid"
    fields :=
      [count "lines" (Diagram.lines options graph.document graph.connections).length,
       ("direction", options.direction.code)] }

/-- The entries about a text that is compiled. -/
def ofCompiled (options : Options) (text : String) (c : Compiled) : List Entry :=
  ofText options.read text ++
    [ofDiagram options.draw c.graph,
     { level := .debug, origin := "bpmn_lite::engine", message := "compiled document"
       fields :=
         [count "diagnostics" c.graph.diagnostics.length, count "bytes" c.diagram.utf8ByteSize] }]

/-- The entry about the sources that a check has found. -/
def ofSources (root : String) (sources : List String) : Entry :=
  { level := .debug, origin := "bpmn_lite::cli", message := "discovered sources"
    fields := [count "files" sources.length, ("root", root)] }

/-- The entry about a diagram that has been written to a file. -/
def ofWritten (path : String) : Entry :=
  { level := .info, origin := "bpmn_lite::cli", message := "wrote diagram"
    fields := [("output", path)] }

end Swimlane.Log
