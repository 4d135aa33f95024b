import Mathlib.Algebra.GroupWithZero.Nat
import Mathlib.Data.List.Forall2
import Mathlib.Data.List.Induction
import Swimlane.Command.Run
import Swimlane.Proofs.Command.FileTree
import Swimlane.Proofs.Command.Status

/-!
# The verdict of a check

A check goes through the sources of a path, whatever it finds in them, tells the status of each on a
line and sums them up. What it finds in a file depends on that file only: the diagnostics of its
text, if there is a text that is not rejected.

## Main definitions

* `World.diagnostics?`: what is found in a file;
* `CheckSummary.Sums`: the totals of what is found;
* `Transcript.Prints`: the lines about files and the summary below them;
* `Transcript.Checks`: what a check of files prints and how it ends.

## Main statements

* `CheckSummary.sums_ofStatuses`, `CheckSummary.Sums.passed_iff`: counting files one by one;
* `Command.run_check_verdict`: a check of a path.
-/

namespace Swimlane

/-- The diagnostics of a file, if it is a text that can be read and is not rejected. -/
def World.diagnostics? (w : World) (options : ReadOptions) (path : String) :
    Option (List Diagnostic) :=
  (w.files.readText? path).bind fun text =>
    (ProcessGraph.ofText options text).toOption.map (·.diagnostics)

theorem World.diagnostics?_eq_some_iff {w : World} {path : String} {options : ReadOptions}
    {ds : List Diagnostic} :
    w.diagnostics? options path = some ds ↔ ∃ text graph, w.files.readText? path = some text ∧
      ProcessGraph.ofText options text = .ok graph ∧ graph.diagnostics = ds := by
  have accepted (text : String) (graph : ProcessGraph) :
      (ProcessGraph.ofText options text).toOption = some graph ↔
        ProcessGraph.ofText options text = .ok graph := by
    cases ProcessGraph.ofText options text <;> simp [Except.toOption]
  simp [diagnostics?, Option.bind_eq_some_iff, accepted]

namespace CheckSummary

/-- The totals of what is found in files: a file is clean, has diagnostics or has failed, and the
diagnostics of all files are counted together. -/
structure Sums (s : CheckSummary) (found : List (Option (List Diagnostic))) : Prop where
  files : s.files = found.length
  clean : s.clean = found.count (some [])
  failed : s.failed = found.count none
  warnings : s.warnings = ((found.filterMap id).map List.length).sum
  partition : s.files = s.clean + found.countP (·.any (· ≠ [])) + s.failed

theorem Sums.add {s : CheckSummary} {found : List (Option (List Diagnostic))} (h : s.Sums found)
    (ds : Option (List Diagnostic)) :
    (s.add (FileStatus.ofDiagnostics? ds)).Sums (found ++ [ds]) := by
  obtain ⟨files, clean, failed, warnings, partition⟩ := h
  match ds with
  | none | some [] | some (_ :: _) =>
    constructor <;> simp_all [CheckSummary.add, FileStatus.ofDiagnostics?]
    omega

/-- Counting file by file gives the totals. -/
theorem sums_ofStatuses (found : List (Option (List Diagnostic))) :
    (ofStatuses (found.map FileStatus.ofDiagnostics?)).Sums found := by
  induction found using List.reverseRecOn with
  | nil => constructor <;> rfl
  | append_singleton found ds ih => simpa [ofStatuses] using ih.add ds

theorem Sums.passed_iff {s : CheckSummary} {found : List (Option (List Diagnostic))}
    (h : s.Sums found) (denyWarnings : Bool) :
    s.passed denyWarnings = true ↔
      ∀ ds ∈ found, ∃ ds', ds = some ds' ∧ (denyWarnings = true → ds' = []) := by
  have failed : s.failed = 0 ↔ none ∉ found := by
    rw [h.failed, List.count_eq_zero]
  have warnings : s.warnings = 0 ↔ ∀ ds, some ds ∈ found → ds = [] := by
    rw [h.warnings, List.sum_eq_zero_iff_forall_eq_nat]
    simp
  have passed : s.passed denyWarnings = true ↔
      s.failed = 0 ∧ (denyWarnings = true → s.warnings = 0) := by
    cases denyWarnings <;> simp [passed]
  rw [passed, failed, warnings]
  constructor
  · rintro ⟨failed, warnings⟩ ds mem
    cases ds with
    | none => exact absurd mem failed
    | some ds => exact ⟨ds, rfl, fun deny => warnings deny ds mem⟩
  · intro all
    refine ⟨fun mem => ?_, fun deny ds mem => ?_⟩
    · obtain ⟨_, impossible, -⟩ := all none mem
      cases impossible
    · obtain ⟨_, same, clean⟩ := all (some ds) mem
      obtain rfl := Option.some.inj same
      exact clean deny

end CheckSummary

/-- What a check of files prints: a line about each file in turn, then the summary. -/
structure Transcript.Prints (t : Transcript) (w : World) (options : ReadOptions)
    (paths : List String) (s : CheckSummary) (lines : List String) (summary : String) : Prop where
  files : List.Forall₂
    (fun path => FileStatus.IsLine w.paint path (w.diagnostics? options path)) paths lines
  totals : s.IsText w.paint summary
  output : t.output = String.join (lines.map (· ++ "\n")) ++ summary
  oneLine : (∀ path ∈ paths, '\n' ∉ path.toList) →
    Text.lines t.output = lines.map String.toList ++ Text.lines summary

theorem Transcript.exists_prints {t : Transcript} {w : World} {options : ReadOptions}
    {paths : List String} {s : CheckSummary}
    (h : t.output = String.join (paths.map fun path =>
      (FileStatus.ofDiagnostics? (w.diagnostics? options path)).line w.paint path) ++
        s.text w.paint) :
    ∃ lines summary, t.Prints w options paths s lines summary := by
  choose line isLine printed using fun path =>
    FileStatus.exists_isLine w.paint path (w.diagnostics? options path)
  have output : t.output = String.join ((paths.map line).map (· ++ "\n")) ++ s.text w.paint := by
    simpa only [printed, List.map_map, Function.comp_def] using h
  refine ⟨paths.map line, s.text w.paint, ?_, CheckSummary.isText_text .., output, ?_⟩
  · rw [List.forall₂_map_right_iff, List.forall₂_same]
    exact fun path _ => isLine path
  · intro oneLine
    have newline : ∀ l ∈ (paths.map line).map String.toList, '\n' ∉ l := by
      simp only [List.forall_mem_map]
      exact fun path mem => (isLine path).newline_notMem (oneLine path mem)
    rw [Text.lines, Text.lines, ← Text.splitOn_terminated_append newline, output]
    simp [String.toList_join, List.flatMap_map]

/-- What a check of files prints and how it ends. It succeeds if every file is a text that can be
read and is not rejected, and has no diagnostic where none is allowed. -/
structure Transcript.Checks (t : Transcript) (w : World) (options : ReadOptions)
    (denyWarnings : Bool) (paths : List String) (s : CheckSummary) : Prop where
  output : ∃ lines summary, t.Prints w options paths s lines summary
  totals : s.Sums (paths.map (w.diagnostics? options))
  exitCode : t.exitCode = 0 ↔ ∀ path ∈ paths, ∃ text graph,
    w.files.readText? path = some text ∧ ProcessGraph.ofText options text = .ok graph ∧
      (denyWarnings = true → graph.diagnostics = [])

namespace Command

variable {w : World} {path : String}

theorem status_checkFile (other : isStandardInput path = false) (threshold : Log.Threshold)
    (options : ReadOptions) :
    (checkFile w threshold options path).status =
      FileStatus.ofDiagnostics? (w.diagnostics? options path) := by
  rw [checkFile, World.source, if_neg (by simp [other]), World.diagnostics?]
  cases w.files.readText? path with
  | none => rfl
  | some text =>
    simp only [Option.bind_some]
    cases ProcessGraph.ofText options text with
    | error f => rfl
    | ok graph =>
      obtain ⟨process, connections, diagnostics⟩ := graph
      cases diagnostics <;> rfl

/-- A check counts what it finds in the sources of a path. -/
theorem run_check_eq {config : Option String} {options : Options} {paths : List String}
    (configured : w.options config = .ok options) (discovered : w.files.discover? path = some paths)
    (others : ∀ path ∈ paths, isStandardInput path = false) (threshold : Log.Threshold)
    (denyWarnings : Bool) :
    ∃ summary : CheckSummary, summary.Sums (paths.map (w.diagnostics? options.read)) ∧
      (run w threshold (.check path denyWarnings config)).output =
        String.join (paths.map fun path =>
          (FileStatus.ofDiagnostics? (w.diagnostics? options.read path)).line w.paint path) ++
        summary.text w.paint ∧
      (run w threshold (.check path denyWarnings config)).exitCode =
        if summary.passed denyWarnings then 0 else 1 := by
  have status : ∀ path ∈ paths, (checkFile w threshold options.read path).status =
      FileStatus.ofDiagnostics? (w.diagnostics? options.read path) :=
    fun path mem => status_checkFile (others path mem) threshold options.read
  have statuses : (paths.map (checkFile w threshold options.read)).map (·.status) =
      (paths.map (w.diagnostics? options.read)).map FileStatus.ofDiagnostics? := by
    simpa only [List.map_map, List.map_inj_left, Function.comp_apply] using status
  have lines : List.zipWith (fun path c => FileStatus.line w.paint path c.status) paths
        (paths.map (checkFile w threshold options.read)) =
      paths.map fun path =>
        (FileStatus.ofDiagnostics? (w.diagnostics? options.read path)).line w.paint path := by
    rw [List.zipWith_map_right, List.zipWith_self, List.map_inj_left]
    intro path mem
    rw [status path mem]
  refine ⟨_, CheckSummary.sums_ofStatuses _, ?_, ?_⟩
  · simp only [run, runCheck, configured, discovered, lines, statuses]
  · simp only [run, runCheck, configured, discovered, statuses]

/-- A check of an existing path goes through its sources. -/
theorem run_check_verdict {config : Option String} {options : Options} {entry : Entry}
    (tree : w.files.IsTree) (other : isStandardInput path = false)
    (found : w.files.entry? path = some entry) (configured : w.options config = .ok options)
    (threshold : Log.Threshold) (denyWarnings : Bool) :
    ∃ paths summary, w.files.AreSources path paths ∧
      (run w threshold (.check path denyWarnings config)).Checks w options.read denyWarnings paths
        summary := by
  obtain ⟨paths, discovered, sources⟩ := tree.discover?_areSources found
  obtain ⟨summary, totals, output, exitCode⟩ := run_check_eq configured discovered
    (fun _ mem => sources.isStandardInput_eq_false found other mem) threshold denyWarnings
  refine ⟨paths, summary, sources, Transcript.exists_prints output, totals, ?_⟩
  have passed : (run w threshold (.check path denyWarnings config)).exitCode = 0 ↔
      summary.passed denyWarnings = true := by
    rw [exitCode]
    split <;> simp_all
  rw [passed, totals.passed_iff]
  simp only [List.forall_mem_map, World.diagnostics?_eq_some_iff]
  constructor
  · intro all path mem
    obtain ⟨_, ⟨text, graph, read, accepted, rfl⟩, clean⟩ := all path mem
    exact ⟨text, graph, read, accepted, clean⟩
  · intro all path mem
    obtain ⟨text, graph, read, accepted, clean⟩ := all path mem
    exact ⟨_, ⟨text, graph, read, accepted, rfl⟩, clean⟩

/-- Three sources in a directory and below it, one clean, one with a diagnostic and one that is no
text, beside two files that are no sources. -/
def mixedSources : FileTree where
  entries := [(["w", "b.BPL"], .file "Review".toUTF8), (["w", "b", "a.bpl"], .file ⟨#[255]⟩),
    (["w", "c.bpl"], .file "send: Lost".toUTF8), (["w", ".bpl"], .file .empty),
    (["w", "notes.txt"], .file .empty)]
  home := ["w"]

theorem isTree_mixedSources : mixedSources.IsTree := by
  refine ⟨by decide, by decide, ?_⟩
  intro place content mem
  have listed : place ∈ mixedSources.entries.map (·.1) := List.mem_map_of_mem mem
  clear mem
  revert place
  decide

/-- A directory is checked although one of its sources cannot be read. -/
theorem run_check_verdict_mixedSources : mixedSources.IsTree ∧ isStandardInput "." = false ∧
    mixedSources.entry? "." = some .directory ∧
    mixedSources.AreSources "." ["./b/a.bpl", "./b.BPL", "./c.bpl"] ∧
    (run { files := mixedSources } 0 (.check "." false none)).output =
      "✗ ./b/a.bpl (error)\n✓ ./b.BPL\n! ./c.bpl (1 warning)\n\nChecked 3 files\n" ++
      "  clean:    1\n  warnings: 1\n  failed:   1\n" ∧
    (run { files := mixedSources } 0 (.check "." false none)).exitCode = 1 ∧
    (run { files := mixedSources } 0 (.check "." false none)).Checks { files := mixedSources } {}
      false ["./b/a.bpl", "./b.BPL", "./c.bpl"] ⟨3, 1, 1, 1⟩ := by
  have other : isStandardInput "." = false := by decide
  have found : mixedSources.entry? "." = some .directory := rfl
  obtain ⟨paths, summary, sources, checks⟩ := @run_check_verdict { files := mixedSources } "." none
    {} .directory isTree_mixedSources other found rfl 0 false
  obtain rfl : paths = ["./b/a.bpl", "./b.BPL", "./c.bpl"] := by
    obtain ⟨paths', discovered, sources'⟩ := isTree_mixedSources.discover?_areSources found
    obtain rfl := sources.unique found sources'
    have listed : mixedSources.discover? "." = some ["./b/a.bpl", "./b.BPL", "./c.bpl"] := by
      decide +kernel
    exact Option.some.inj (discovered.symm.trans listed)
  obtain rfl : summary = ⟨3, 1, 1, 1⟩ := by
    obtain ⟨files, clean, failed, warnings, -⟩ := checks.totals
    have clean : summary.clean = 1 := clean.trans (by decide +kernel)
    have warnings : summary.warnings = 1 := warnings.trans (by decide +kernel)
    have failed : summary.failed = 1 := failed.trans (by decide +kernel)
    cases summary
    simp_all
  exact ⟨isTree_mixedSources, other, found, sources, by decide +kernel, by decide +kernel, checks⟩

end Command

end Swimlane
