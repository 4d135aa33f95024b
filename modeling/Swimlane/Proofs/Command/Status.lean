import Swimlane.Command.Check
import Swimlane.Diagnostic
import Swimlane.Proofs.Source.Lines

/-!
# What a check prints

A check prints one line for each file, with a mark, the path and what is wrong with the file, and
below these lines how many files there are and every total that is not zero. On a terminal with
colours the marks, the number of files and the totals stand between escapes. The texts are written
out here once more, apart from the functions that print them.

## Main definitions

* `FileStatus.IsLine`: the line about a file in which something is found;
* `CheckSummary.IsTotal`, `CheckSummary.IsText`: a total, and the summary.

## Main statements

* `FileStatus.IsLine.newline_notMem`: the line about a file is one line;
* `FileStatus.exists_isLine`, `CheckSummary.isText_text`: these texts are printed.
-/

namespace Swimlane

/-- A text in a style, which ends behind it, or the text alone where nothing is painted. -/
def styled (paint : Bool) (style text : String) : String :=
  if paint then "\x1b[0m" ++ style ++ text ++ "\x1b[0m" else text

namespace FileStatus

/-- The status of a file with these diagnostics. -/
def ofDiagnostics? : Option (List Diagnostic) → FileStatus
  | none => .failed
  | some [] => .clean
  | some ds => .warnings ds.length

/-- The line about a file: a mark in bold and in its colour, the path, and in brackets that the file
has failed or how many diagnostics it has. -/
inductive IsLine (paint : Bool) (path : String) : Option (List Diagnostic) → String → Prop
  | failed : IsLine paint path none
      (styled paint "\x1b[1m\x1b[31m" "✗" ++ " " ++ path ++ " (error)")
  | clean : IsLine paint path (some [])
      (styled paint "\x1b[1m\x1b[32m" "✓" ++ " " ++ path)
  | warning (d : Diagnostic) : IsLine paint path (some [d])
      (styled paint "\x1b[1m\x1b[33m" "!" ++ " " ++ path ++ " (1 warning)")
  | warnings {ds : List Diagnostic} (several : 2 ≤ ds.length) : IsLine paint path (some ds)
      (styled paint "\x1b[1m\x1b[33m" "!" ++ " " ++ path ++
        " (" ++ toString ds.length ++ " warnings)")

variable {paint : Bool} {path : String} {found : Option (List Diagnostic)}

/-- The line about a file is one line, unless the path has a newline in it. -/
theorem IsLine.newline_notMem {line : String} (h : IsLine paint path found line)
    (oneLine : '\n' ∉ path.toList) : '\n' ∉ line.toList := by
  cases h with
  | failed | clean | warning => cases paint <;> simp [styled, oneLine]
  | @warnings ds =>
    have digits := Text.newline_notMem_toString ds.length
    simp only [String.toList_append, List.mem_append, not_or]
    refine ⟨⟨⟨⟨⟨?_, by decide⟩, oneLine⟩, by decide⟩, digits⟩, by decide⟩
    cases paint <;> decide

theorem line_eq_styled (paint : Bool) (path : String) (s : FileStatus) :
    s.line paint path =
      styled paint ("\x1b[1m" ++ s.colour.code) s.mark ++ " " ++ path ++ s.detail ++ "\n" := by
  rw [← String.toList_inj]
  cases paint <;> simp [line, styled, Colour.start, Colour.reset]

/-- What is printed about a file is its line. -/
theorem exists_isLine (paint : Bool) (path : String) (found : Option (List Diagnostic)) :
    ∃ line, IsLine paint path found line ∧
      (ofDiagnostics? found).line paint path = line ++ "\n" := by
  match found with
  | none => exact ⟨_, .failed, line_eq_styled ..⟩
  | some [] =>
    refine ⟨_, .clean, (line_eq_styled ..).trans ?_⟩
    simp [ofDiagnostics?, detail, mark, colour, Colour.code]
  | some [d] =>
    have one : detail (.warnings 1) = " (1 warning)" := rfl
    refine ⟨_, .warning d, (line_eq_styled ..).trans ?_⟩
    simp [ofDiagnostics?, one, mark, colour, Colour.code]
  | some (d :: e :: ds) =>
    refine ⟨_, .warnings (by simp), (line_eq_styled ..).trans ?_⟩
    simp [ofDiagnostics?, detail, mark, colour, Colour.code, plural, String.append_assoc]

end FileStatus

namespace CheckSummary

/-- A total on a line of its own, which is left out if the total is zero. -/
inductive IsTotal (paint : Bool) (colour name : String) : Nat → String → Prop
  | absent : IsTotal paint colour name 0 ""
  | present {n : Nat} (positive : 0 < n) : IsTotal paint colour name n
      ((if paint then "\x1b[0m" ++ colour else "") ++ name ++ toString n ++ "\n")

/-- The summary: an empty line, the number of files, and the totals. -/
def IsText (paint : Bool) (s : CheckSummary) (text : String) : Prop :=
  ∃ clean warnings failed, IsTotal paint "\x1b[32m" "  clean:    " s.clean clean ∧
    IsTotal paint "\x1b[33m" "  warnings: " s.warnings warnings ∧
    IsTotal paint "\x1b[31m" "  failed:   " s.failed failed ∧
    text = styled paint "\x1b[1m"
        ("\nChecked " ++ toString s.files ++ (if s.files = 1 then " file\n" else " files\n")) ++
      clean ++ warnings ++ failed ++ (if paint then "\x1b[0m" else "")

theorem isTotal_total (paint : Bool) (colour : Colour) (name : String) (n : Nat) :
    IsTotal paint colour.code name n (total paint colour name n) := by
  unfold total
  split
  · next zero => exact zero ▸ .absent
  · next ne =>
    have start : Colour.start paint false (some colour) =
        if paint then "\x1b[0m" ++ colour.code else "" := by
      cases paint <;> simp [Colour.start]
    rw [start]
    exact .present (Nat.pos_of_ne_zero ne)

/-- What is printed below the lines about files is the summary. -/
theorem isText_text (paint : Bool) (s : CheckSummary) : IsText paint s (s.text paint) := by
  refine ⟨_, _, _, isTotal_total paint .green _ _, isTotal_total paint .yellow _ _,
    isTotal_total paint .red _ _, ?_⟩
  rw [← String.toList_inj]
  cases paint <;> by_cases one : s.files = 1 <;>
    simp [text, styled, plural, Colour.start, Colour.reset, one]

end CheckSummary

end Swimlane
