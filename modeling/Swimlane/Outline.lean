import Swimlane.Options
import Swimlane.Outline.Draft

/-!
# Outlines

The outline of a text is what its lines say before the flow is known: the document, the log of flow
events, the references and the messages that have only one side.
-/

namespace Swimlane

structure Outline where
  document : Document
  events : List Event
  references : List Reference
  /-- The messages that have only one side, in the order of their declaration. -/
  unmatched : List WaitingMessage
  /-- The warnings in the order they were raised. -/
  diagnostics : List Diagnostic
  deriving Repr, DecidableEq

namespace Outline

/-- Ends a draft. The warnings raised while the lines were read come first, those about messages
last. -/
def ofDraft (warnings : List Diagnostic) (draft : Draft) : Outline :=
  let d := draft.closeGateways fun _ => true
  { document := d.document
    events := d.events
    references := d.references
    unmatched := d.waiting
    diagnostics := warnings ++ d.diagnostics ++ d.waiting.map (·.warning) }

/-- The draft of lines. -/
def draft (defaultLane : String) (lines : List Line) : Draft :=
  lines.foldl (Draft.consume defaultLane) {}

/-- The outline of a text. It fails only where a line is nested too deeply. -/
def ofText (options : ReadOptions) (text : String) : Except Failure Outline :=
  let s := scan options.maxDepth text
  match s.failure with
  | some failure => .error failure
  | none => .ok (ofDraft s.warnings (draft options.defaultLane s.lines))

end Outline

end Swimlane
