import Swimlane.Diagnostic

/-!
# Failures

A failure stops the compiler: a text that is nested too deeply, a file that cannot be read or
written, or settings that cannot be used. It may point at a line and a span, carry the source it
points into, a hint and a cause. A failure labels its span only when it knows the source.
-/

namespace Swimlane

/-- The kinds of failures. -/
inductive FailureKind where
  | structural
  | io
  | config
  | serialize
  deriving Repr, DecidableEq

namespace FailureKind

def name : FailureKind → String
  | .structural => "Structural"
  | .io => "Io"
  | .config => "Config"
  | .serialize => "Serialize"

/-- What the text of a failure of this kind starts with. -/
def title : FailureKind → String
  | .structural => "Structural corruption"
  | .io => "I/O error"
  | .config => "Configuration error"
  | .serialize => "Serialization error"

/-- The code shown in reports. -/
def code : FailureKind → String
  | .structural => "bpmn_lite::structural_corruption"
  | .io => "bpmn_lite::io"
  | .config => "bpmn_lite::config"
  | .serialize => "bpmn_lite::serialize"

end FailureKind

/-- A text under the name it is reported with. -/
structure NamedText where
  name : String
  text : String
  deriving Repr, DecidableEq

/-- A problem that stops the compiler. -/
structure Failure where
  kind : FailureKind
  message : String
  source : Option NamedText := none
  span : Option Span := none
  line : Option Nat := none
  help : Option String := none
  cause : Option String := none
  deriving Repr, DecidableEq

namespace Failure

/-- A failure that points into a source without a name of its own. -/
def inSource (kind : FailureKind) (message text : String) (span : Span) (help : Option String) :
    Failure :=
  { kind, message, source := some ⟨"source", text⟩, span := some span, help }

def atLine (f : Failure) (line : Nat) : Failure := { f with line := some line }

def atSpan (f : Failure) (span : Span) : Failure := { f with span := some span }

def withSource (f : Failure) (name text : String) : Failure :=
  { f with source := some ⟨name, text⟩ }

def causedBy (f : Failure) (cause : String) : Failure := { f with cause := some cause }

/-- The text of a failure. -/
def text (f : Failure) : String := f.kind.title ++ ": " ++ f.message

/-- The labels of a report. Without source there is nothing to mark. -/
def labels (f : Failure) : Option (List Label) :=
  match f.source, f.span with
  | some _, some span => some [⟨f.message, span.start, span.length⟩]
  | _, _ => none

end Failure

/-- Why the compiler stops. -/
inductive Fault where
  /-- A line is nested deeper than the limit. -/
  | tooDeep (line depth limit : Nat)
  | unknownDirection (text : String)
  /-- The settings file cannot be read. -/
  | unreadableSettings (path : String)
  /-- The settings text does not describe options. -/
  | invalidSettings (reason : String)
  | unreadable (path : String)
  | missing (path : String)
  | unwritable (path : String)
  deriving Repr, DecidableEq

namespace Fault

def kind : Fault → FailureKind
  | .tooDeep .. => .structural
  | .unknownDirection _ | .unreadableSettings _ | .invalidSettings _ => .config
  | .unreadable _ | .missing _ | .unwritable _ => .io

def message : Fault → String
  | .tooDeep line depth limit =>
    "line " ++ toString line ++ " is nested " ++ toString depth ++
      " levels deep, the limit is " ++ toString limit
  | .unknownDirection text =>
    "unknown direction `" ++ text ++ "`, expected one of TD, LR, BT, RL"
  | .unreadableSettings path => "cannot read " ++ path
  | .invalidSettings reason => "invalid configuration: " ++ reason
  | .unreadable path => "cannot read " ++ path
  | .missing path => path ++ " does not exist"
  | .unwritable path => "cannot write " ++ path

def failure (f : Fault) : Failure := { kind := f.kind, message := f.message }

end Fault

end Swimlane
