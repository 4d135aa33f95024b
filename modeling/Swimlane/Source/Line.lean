import Swimlane.Diagnostic
import Swimlane.Failure
import Swimlane.Source.Arrow
import Swimlane.Source.Indentation
import Swimlane.Source.Sigil
import Swimlane.Text.Piece

/-!
# Lines of a source text

A source text is read piece by piece. What a piece says depends on the pieces before it only through
the unit of indentation and the depth of the last line, which a line with a bad indentation takes
over.

## Main definitions

* `Line`: a line that is not blank, with its kind, depth, payload and position;
* `Reader`: what is carried from line to line;
* `Reader.read`: reads one piece;
* `Reader.readAll`: reads pieces until one is nested too deeply.
-/

namespace Swimlane

/-- A line that has been read. -/
structure Line where
  kind : Sigil
  depth : Nat
  text : String
  arrow : Option Arrow
  number : Nat
  span : Span
  deriving Repr, DecidableEq

namespace Line

/-- Where the trimmed characters of a piece stand. -/
def spanOf (p : Text.Piece) : Span :=
  let start := p.offset + Text.byteLength (Text.indentation p.chars)
  ⟨start, start + Text.byteLength (Text.trim p.chars)⟩

/-- The kind of a line whose payload has been split: an end event called `start` is a start event.
-/
def finalKind (kind : Sigil) (text : String) : Sigil :=
  if kind = .endEvent ∧ text.toLower = "start" then .startEvent else kind

/-- The line at a depth that a piece holds. -/
def ofPiece (p : Text.Piece) (depth : Nat) : Line :=
  let (kind, payload) := Sigil.split (Text.trim p.chars)
  let (text, arrow) :=
    if kind.acceptsArrow then Arrow.splitInline payload else (String.ofList payload, none)
  { kind := finalKind kind text, depth, text, arrow, number := p.number, span := spanOf p }

/-- The warning about a line that starts with a punctuation character but no sigil. -/
def sigilWarning (p : Text.Piece) : List Diagnostic :=
  match Sigil.split (Text.trim p.chars) with
  | (.task, c :: _) =>
    if Sigil.isPunctuation c then [(Finding.unknownSigil c).toDiagnostic p.number (spanOf p)]
    else []
  | _ => []

end Line

/-- What is carried from line to line: the unit of indentation once it is fixed, and the depth of
the last line. -/
structure Reader where
  unit : Option IndentUnit := none
  depth : Nat := 0
  deriving Repr, DecidableEq

/-- What reading one piece gives: the reader after it, the warnings it raised, and the line, which
is absent for a blank piece. -/
structure Reading where
  reader : Reader
  warnings : List Diagnostic
  outcome : Except Failure (Option Line)

/-- What reading pieces gives. The lines are those before the failure, if there is one. -/
structure Scan where
  reader : Reader
  lines : List Line
  warnings : List Diagnostic
  failure : Option Failure

namespace Reader

/-- The depth of an indentation, and the warning when it is the depth of the line before. -/
def measure (r : Reader) (i : Indentation) (number : Nat) (span : Span) : Nat × List Diagnostic :=
  match i.depth r.unit with
  | .ok depth => (depth, [])
  | .error misfit =>
    (r.depth, [(Finding.indentation misfit r.depth).toDiagnostic number span])

/-- Reads one piece. A line deeper than `limit` fails; the unit it has fixed stays. -/
def read (limit : Nat) (r : Reader) (p : Text.Piece) : Reading :=
  if (Text.trim p.chars).isEmpty then ⟨r, [], .ok none⟩
  else
    let i := Indentation.ofChars (Text.indentation p.chars)
    let unit := r.unit.or i.unit?
    let (depth, warnings) := r.measure i p.number (Line.spanOf p)
    if limit < depth then
      let failure := (Fault.tooDeep p.number depth limit).failure
      ⟨⟨unit, r.depth⟩, warnings, .error ((failure.atLine p.number).atSpan (Line.spanOf p))⟩
    else ⟨⟨unit, depth⟩, warnings ++ Line.sigilWarning p, .ok (some (Line.ofPiece p depth))⟩

/-- Reads pieces in order, up to and including the first that fails. -/
def readAll (limit : Nat) (r : Reader) : List Text.Piece → Scan
  | [] => ⟨r, [], [], none⟩
  | p :: ps =>
    let first := r.read limit p
    match first.outcome with
    | .error failure => ⟨first.reader, [], first.warnings, some failure⟩
    | .ok line =>
      let rest := first.reader.readAll limit ps
      ⟨rest.reader, line.toList ++ rest.lines, first.warnings ++ rest.warnings, rest.failure⟩

end Reader

/-- Reads a whole text. -/
def scan (limit : Nat) (text : String) : Scan :=
  ({} : Reader).readAll limit (Text.pieces text.toList)

end Swimlane
