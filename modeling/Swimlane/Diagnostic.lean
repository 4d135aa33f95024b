import Swimlane.Source.Indentation
import Swimlane.Source.Sigil
import Swimlane.Span

/-!
# Diagnostics

A diagnostic is a problem that does not stop the compiler. It points at a line and is published with
its kind and its wording. What can go wrong is a `Finding`; its kind and its message are functions
of it.
-/

namespace Swimlane

/-- The published kinds of diagnostics. -/
inductive DiagnosticKind where
  | malformedIndentation
  | unknownSigil
  | unresolvedForwardReference
  | unmatchedMessage
  | duplicateLabel
  | orphanBranch
  | malformedConnection
  | unresolvedDataAssociation
  | emptyPayload
  | redefinedProcess
  deriving Repr, DecidableEq

namespace DiagnosticKind

/-- The name of a kind in published results. -/
def name : DiagnosticKind → String
  | .malformedIndentation => "malformedIndentation"
  | .unknownSigil => "unknownSigil"
  | .unresolvedForwardReference => "unresolvedForwardReference"
  | .unmatchedMessage => "unmatchedMessage"
  | .duplicateLabel => "duplicateLabel"
  | .orphanBranch => "orphanBranch"
  | .malformedConnection => "malformedConnection"
  | .unresolvedDataAssociation => "unresolvedDataAssociation"
  | .emptyPayload => "emptyPayload"
  | .redefinedProcess => "redefinedProcess"

/-- The code shown in reports. -/
def code : DiagnosticKind → String
  | .malformedIndentation => "bpmn_lite::malformed_indentation"
  | .unknownSigil => "bpmn_lite::unknown_sigil"
  | .unresolvedForwardReference => "bpmn_lite::unresolved_reference"
  | .unmatchedMessage => "bpmn_lite::unmatched_message"
  | .duplicateLabel => "bpmn_lite::duplicate_label"
  | .orphanBranch => "bpmn_lite::orphan_branch"
  | .malformedConnection => "bpmn_lite::malformed_connection"
  | .unresolvedDataAssociation => "bpmn_lite::unresolved_data"
  | .emptyPayload => "bpmn_lite::empty_payload"
  | .redefinedProcess => "bpmn_lite::redefined_process"

end DiagnosticKind

/-- A problem that the compiler recovers from. -/
structure Diagnostic where
  kind : DiagnosticKind
  line : Nat
  span : Span
  message : String
  deriving Repr, DecidableEq

/-- A span marked in a report. -/
structure Label where
  text : String
  offset : Nat
  length : Nat
  deriving Repr, DecidableEq

/-- The mark of a diagnostic. -/
def Diagnostic.label (d : Diagnostic) : Label := ⟨d.message, d.span.start, d.span.length⟩

/-- What was found wrong with a line. -/
inductive Finding where
  /-- The indentation fits no depth; the line takes the depth of the line before it. -/
  | indentation (misfit : Misfit) (depth : Nat)
  /-- A branch stands at the depth of its gateway. -/
  | branchDepth (text : String)
  | unknownSigil (char : Char)
  | unresolvedReference (text : String)
  | unmatchedMessage (side : Side) (label : String)
  | duplicateLabel (label lane : String)
  | orphanBranch (text : String)
  /-- A connection line without arrow, or with nothing behind it. -/
  | connectionForm (text : String)
  /-- A connection line that leaves its source to the element before it, where there is none. -/
  | connectionSource (text : String)
  | unresolvedData (label associated : String)
  | emptyPayload (kind : Sigil)
  | redefinedProcess (existing text : String)
  deriving Repr, DecidableEq

namespace Finding

def kind : Finding → DiagnosticKind
  | .indentation .. | .branchDepth _ => .malformedIndentation
  | .unknownSigil _ => .unknownSigil
  | .unresolvedReference _ => .unresolvedForwardReference
  | .unmatchedMessage .. => .unmatchedMessage
  | .duplicateLabel .. => .duplicateLabel
  | .orphanBranch _ => .orphanBranch
  | .connectionForm _ | .connectionSource _ => .malformedConnection
  | .unresolvedData .. => .unresolvedDataAssociation
  | .emptyPayload _ => .emptyPayload
  | .redefinedProcess .. => .redefinedProcess

def message : Finding → String
  | .indentation misfit depth => misfit.message ++ "; treated as depth " ++ toString depth
  | .branchDepth text => "branch `" ++ text ++ "` should be indented below its gateway"
  | .unknownSigil c => "unknown sigil `" ++ c.toString ++ "`; line treated as a plain task"
  | .unresolvedReference text => "`" ++ text ++ "` does not name any element"
  | .unmatchedMessage side label =>
    side.word ++ " of message `" ++ label ++ "` has no counterpart"
  | .duplicateLabel label lane =>
    "`" ++ label ++ "` is declared more than once in lane `" ++ lane ++ "`"
  | .orphanBranch text =>
    "branch `" ++ text ++ "` has no gateway above it; treated as a task"
  | .connectionForm text =>
    "`^" ++ text ++ "` needs the form `Label @Lane.source -> @Lane.target`"
  | .connectionSource text => "`^" ++ text ++ "` has no source and no element precedes it"
  | .unresolvedData label associated =>
    "data object `" ++ label ++ "` refers to `" ++ associated ++ "`, which is not declared"
  | .emptyPayload kind => kind.name ++ " line has nothing after its sigil; skipped"
  | .redefinedProcess existing text =>
    "process is already named `" ++ existing ++ "`; `" ++ text ++ "` is ignored"

/-- The diagnostic of a finding at a line. -/
def toDiagnostic (f : Finding) (line : Nat) (span : Span) : Diagnostic :=
  ⟨f.kind, line, span, f.message⟩

end Finding

end Swimlane
