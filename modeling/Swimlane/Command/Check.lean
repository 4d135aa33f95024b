/-!
# The outcome of a check

A check tells the status of each file on a line and sums them up. With colours, marks and totals are
painted by terminal escapes.

## Main definitions

* `FileStatus.line`: the line about a file;
* `CheckSummary.text`: the summary;
* `CheckSummary.passed`: whether a check has passed.
-/

namespace Swimlane

/-- The colours of the terminal that a check uses. -/
inductive Colour where
  | red
  | green
  | yellow
  deriving Repr, DecidableEq

namespace Colour

/-- Ends all painting. -/
def reset (paint : Bool) : String := if paint then "\x1b[0m" else ""

def code : Colour → String
  | .red => "\x1b[31m"
  | .green => "\x1b[32m"
  | .yellow => "\x1b[33m"

/-- Starts to paint. -/
def start (paint bold : Bool) (colour : Option Colour) : String :=
  if paint then
    "\x1b[0m" ++ (if bold then "\x1b[1m" else "") ++ (colour.map code).getD ""
  else ""

end Colour

/-- What a check has found about a file. -/
inductive FileStatus where
  | clean
  | warnings (count : Nat)
  | failed
  deriving Repr, DecidableEq

/-- The ending of a word that counts. -/
def plural (n : Nat) : String := if n = 1 then "" else "s"

namespace FileStatus

def mark : FileStatus → String
  | .clean => "✓"
  | .warnings _ => "!"
  | .failed => "✗"

def colour : FileStatus → Colour
  | .clean => .green
  | .warnings _ => .yellow
  | .failed => .red

def detail : FileStatus → String
  | .clean => ""
  | .warnings n => " (" ++ toString n ++ " warning" ++ plural n ++ ")"
  | .failed => " (error)"

/-- The line about a file. -/
def line (paint : Bool) (path : String) (s : FileStatus) : String :=
  Colour.start paint true (some s.colour) ++ s.mark ++ Colour.reset paint ++
    " " ++ path ++ s.detail ++ "\n"

end FileStatus

/-- The totals of a check: files, files without diagnostic, diagnostics, and files that failed. -/
structure CheckSummary where
  files : Nat := 0
  clean : Nat := 0
  warnings : Nat := 0
  failed : Nat := 0
  deriving Repr, DecidableEq

namespace CheckSummary

/-- Counts a file. -/
def add (s : CheckSummary) : FileStatus → CheckSummary
  | .clean => { s with files := s.files + 1, clean := s.clean + 1 }
  | .warnings n => { s with files := s.files + 1, warnings := s.warnings + n }
  | .failed => { s with files := s.files + 1, failed := s.failed + 1 }

def ofStatuses (statuses : List FileStatus) : CheckSummary := statuses.foldl add {}

/-- A check passes unless a file has failed, or has a diagnostic where none is allowed. -/
def passed (s : CheckSummary) (denyWarnings : Bool) : Bool :=
  s.failed = 0 && !(denyWarnings && 0 < s.warnings)

/-- A total, unless it is zero. -/
def total (paint : Bool) (colour : Colour) (name : String) (n : Nat) : String :=
  if n = 0 then "" else Colour.start paint false (some colour) ++ name ++ toString n ++ "\n"

/-- The summary below the lines about files. -/
def text (paint : Bool) (s : CheckSummary) : String :=
  Colour.start paint true none ++ "\nChecked " ++ toString s.files ++ " file" ++ plural s.files ++
    "\n" ++ Colour.reset paint ++ total paint .green "  clean:    " s.clean ++
    total paint .yellow "  warnings: " s.warnings ++ total paint .red "  failed:   " s.failed ++
    Colour.reset paint

end CheckSummary

end Swimlane
