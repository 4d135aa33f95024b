import Swimlane.Proofs.Prefix
import Swimlane.Proofs.Renumber
import Swimlane.Proofs.Script.Reading
import Swimlane.Proofs.Source.TwoPass

/-!
# Indentation

A text is read line by line, and the unit of its indentation is found out on the way. What it comes
to can still be told from the text as a whole: from the unit that its first indented line shows.

What counts is the depth of a line, not the unit: rows that are indented by their depths are read as
the same graph, whatever the unit is.

## Main definitions

* `Text.indented`: rows that are indented by a unit.

## Main statements

* `ProcessGraph.ofText_twoPass`: every text is read as it is told in two passes;
* `ProcessGraph.ofText_indented`: all units are read alike.
-/

namespace Swimlane

open Text (written unit? pieces)

namespace ProcessGraph

variable {options : ReadOptions} {text : String}

theorem ofText_eq_error {f : Failure} :
    ofText options text = .error f ↔ (scan options.maxDepth text).failure = some f := by
  rw [← Outline.ofText_eq_error, ofText]
  cases Outline.ofText options text <;> simp [Except.map]

theorem exists_ofText_eq_ok :
    (∃ g, ofText options text = .ok g) ↔ (scan options.maxDepth text).failure = none := by
  rw [← Outline.exists_ofText_eq_ok, ofText]
  cases Outline.ofText options text <;> simp [Except.map]

/-- What a text comes to, told from its written lines and their unit. Reading fails exactly where a
line is indented well and too deeply, and the first such line is reported. Where it does not fail,
every line is read at its depth, or, with one warning, at the depth of the line before it if it is
indented badly. No line is deeper than the limit, and no width is divided by zero: the unit that is
known behind some pieces, by which the last of them has been measured, is never one of no spaces. -/
structure IsTwoPass (options : ReadOptions) (text : String) (ps : List Text.Piece)
    (unit : Option IndentUnit) : Prop where
  fails : (∃ f, ofText options text = .error f) ↔
    ∃ p ∈ ps, ∃ depth, p.depth? unit = some depth ∧ options.maxDepth < depth
  failure : ∀ before p after depth, ps = before ++ p :: after → p.depth? unit = some depth →
    options.maxDepth < depth →
    (∀ q ∈ before, ∀ d, q.depth? unit = some d → d ≤ options.maxDepth) →
      ofText options text = .error (p.tooDeep options.maxDepth depth)
  lines : ∀ g, ofText options text = .ok g → (scan options.maxDepth text).lines =
    List.zipWith Line.ofPiece ps (Line.inherit 0 (ps.map (·.depth? unit)))
  depths : ∀ g, ofText options text = .ok g → (scan options.maxDepth text).lines.map (·.depth) =
    Line.inherit 0 (ps.map (·.depth? unit))
  misfits : ∀ g, ofText options text = .ok g →
    ((scan options.maxDepth text).warnings.filter (·.kind = .malformedIndentation)).map
        (fun x => (x.line, x.span)) =
      (ps.filter fun p => p.depth? unit = none).map fun p => (p.number, Line.spanOf p)
  bounded : ∀ l ∈ (scan options.maxDepth text).lines, l.depth ≤ options.maxDepth
  divisor : ∀ qs, qs <+: pieces text.toList → ∀ width,
    (({} : Reader).readAll options.maxDepth qs).reader.unit = some (.spaces width) → 0 < width

/-- Every text is read as it is told in two passes. -/
theorem ofText_twoPass (options : ReadOptions) (text : String) :
    IsTwoPass options text (written (pieces text.toList))
      (unit? (written (pieces text.toList))) := by
  have two := scan_isTwoPass options.maxDepth text
  generalize written (pieces text.toList) = ps at *
  generalize unit? ps = unit at *
  have read {g : ProcessGraph} (h : ofText options text = .ok g) :
      (scan options.maxDepth text).failure = none := exists_ofText_eq_ok.1 ⟨g, h⟩
  refine
    { fails := ?_
      failure := ?_
      lines := fun g h => two.lines (read h)
      depths := fun g h => two.map_depth_lines (read h)
      misfits := fun g h => two.misfits (read h)
      bounded := two.bounded
      divisor := ?_ }
  · simp only [ofText_eq_error, two.failure, ← Option.isSome_iff_exists, List.isSome_findSome?,
      List.any_eq_true]
    simp only [Option.isSome_iff_exists, Text.Piece.failure?_eq_some]
    grind
  · intro before p after depth split measured deep first
    have passed : before.findSome? (Text.Piece.failure? options.maxDepth unit) = none :=
      List.findSome?_eq_none_iff.2 fun q hq => Text.Piece.failure?_eq_none.2 (first q hq)
    have fails : p.failure? options.maxDepth unit = some (p.tooDeep options.maxDepth depth) :=
      Text.Piece.failure?_eq_some.2 ⟨depth, measured, deep, rfl⟩
    rw [ofText_eq_error, two.failure, split, List.findSome?_append, passed, Option.none_or,
      List.findSome?_cons, fails]
  · intro qs _ width known
    refine Nat.pos_of_ne_zero fun zero => ?_
    exact Reader.unit_readAll_ne options.maxDepth (by simp) qs (zero ▸ known)

end ProcessGraph

/-! ## Units -/

namespace Script

variable {unit : IndentUnit}

/-- One unit of indentation shows the unit. -/
theorem shownBy?_indent_one (hu : unit ≠ .spaces 0) :
    IndentUnit.shownBy? (indent unit 1) = some unit := by
  rw [← Indentation.unit?_ofChars, ofChars_indent hu]
  cases unit <;> simp [indentation, Indentation.unit?]

/-- Under its unit an indentation has the depth that it was written with. -/
theorem depth?_indent (hu : unit ≠ .spaces 0) (depth : Nat) :
    IndentUnit.depth? (some unit) (indent unit depth) = some depth := by
  have measured := depth_indentation hu (r := ⟨some unit, depth⟩) (.inl rfl) (Nat.le_succ depth)
  have told := Indentation.toOption_depth (some unit) (indent unit depth)
  rw [ofChars_indent hu, measured] at told
  exact told.symm

/-- Depths of which the first one that is not zero is one show the unit, or are all zero. -/
theorem unit_of_first (hu : unit ≠ .spaces 0) {depths : List Nat}
    (first : ∀ d, depths.find? (· ≠ 0) = some d → d = 1) :
    depths.findSome? (fun d => IndentUnit.shownBy? (indent unit d)) = some unit ∨
      ∀ d ∈ depths, d = 0 := by
  cases found : depths.find? (· ≠ 0) with
  | none => exact .inr (by simpa using found)
  | some d =>
    obtain rfl := first d found
    obtain ⟨-, before, after, rfl, zero⟩ := List.find?_eq_some_iff_append.1 found
    have passed : before.findSome? (fun d => IndentUnit.shownBy? (indent unit d)) = none := by
      refine List.findSome?_eq_none_iff.2 fun d hd => ?_
      obtain rfl : d = 0 := by simpa using zero d hd
      rfl
    left
    rw [List.findSome?_append, passed, Option.none_or, List.findSome?_cons, shownBy?_indent_one hu]

end Script

namespace Text

/-- The characters of a row, which is a depth and what stands at it. -/
def rowChars (unit : IndentUnit) (row : Nat × String) : List Char :=
  Script.indent unit row.1 ++ row.2.toList

/-- Rows that are indented by a unit, one below the other. -/
def indented (unit : IndentUnit) (rows : List (Nat × String)) : String :=
  "\n".intercalate (rows.map fun row => String.ofList (rowChars unit row))

variable {unit : IndentUnit} {row : Nat × String}

theorem trim_rowChars (unit : IndentUnit) (h : Script.IsName row.2) :
    trim (rowChars unit row) = row.2.toList :=
  trim_append Script.isBlank_of_mem_indent h.isTrimmed

theorem indentation_rowChars (unit : IndentUnit) (h : Script.IsName row.2) :
    indentation (rowChars unit row) = Script.indent unit row.1 :=
  indentation_append Script.isBlank_of_mem_indent h.isTrimmed

theorem newline_notMem_rowChars (unit : IndentUnit) (h : Script.IsName row.2) :
    '\n' ∉ rowChars unit row := by
  intro newline
  rcases List.mem_append.1 newline with inside | inside
  · rcases Script.eq_of_mem_indent inside with eq | eq
    · exact absurd eq (by decide)
    · exact absurd eq (by decide)
  · exact h.oneLine inside

/-- The pieces of rows that are indented by a unit. -/
def rowPieces (unit : IndentUnit) (number offset : Nat) (rows : List (Nat × String)) :
    List Piece :=
  numberPieces number offset (rows.map (rowChars unit))

theorem length_rowPieces (unit : IndentUnit) (number offset : Nat) (rows : List (Nat × String)) :
    (rowPieces unit number offset rows).length = rows.length := by
  have chars := congrArg List.length
    (map_chars_numberPieces number offset (rows.map (rowChars unit)))
  simpa [rowPieces] using chars

section

variable {rows : List (Nat × String)} (names : ∀ row ∈ rows, Script.IsName row.2)

include names

theorem scan_indented (unit : IndentUnit) (limit : Nat) :
    scan limit (indented unit rows) = ({} : Reader).readAll limit (rowPieces unit 1 0 rows) := by
  have oneLine : ∀ l ∈ rows.map (fun row => String.ofList (rowChars unit row)),
      '\n' ∉ l.toList := by
    intro l hl
    obtain ⟨row, hrow, rfl⟩ := List.mem_map.1 hl
    simpa using newline_notMem_rowChars unit (names row hrow)
  rw [indented, scan_intercalate limit oneLine, List.map_map]
  simp [rowPieces, Function.comp_def]

theorem written_rowPieces (unit : IndentUnit) (number offset : Nat) :
    written (rowPieces unit number offset rows) = rowPieces unit number offset rows := by
  refine List.filter_eq_self.2 fun p hp => ?_
  have chars : p.chars ∈ rows.map (rowChars unit) := by
    rw [← map_chars_numberPieces number offset (rows.map (rowChars unit))]
    exact List.mem_map_of_mem hp
  obtain ⟨row, hrow, eq⟩ := List.mem_map.1 chars
  have name := names row hrow
  simpa [Piece.isWritten, ← eq, trim_rowChars unit name] using name.ne_empty

theorem map_indentation_rowPieces (unit : IndentUnit) (number offset : Nat) :
    (rowPieces unit number offset rows).map (indentation ·.chars) =
      (rows.map (·.1)).map (Script.indent unit) := by
  have chars := map_chars_numberPieces number offset (rows.map (rowChars unit))
  rw [← Function.comp_def, ← List.map_map, rowPieces, chars, List.map_map, List.map_map]
  exact List.map_congr_left fun row hrow => indentation_rowChars unit (names row hrow)

/-- Two units show the same texts. -/
theorem sameTexts_rowPieces (u v : IndentUnit) (number offset offset' : Nat) :
    SameTexts id (rowPieces u number offset rows) (rowPieces v number offset' rows) := by
  induction rows generalizing number offset offset' with
  | nil => exact .nil
  | cons row rows ih =>
    have name := names row (by simp)
    refine .cons ⟨rfl, ?_⟩ (ih (fun row hrow => names row (by simp [hrow])) _ _ _)
    exact (trim_rowChars u name).trans (trim_rowChars v name).symm

/-- Every row is found at its depth. -/
theorem map_depth?_rowPieces (hu : unit ≠ .spaces 0) (number offset : Nat)
    (first : ∀ d, (rows.map (·.1)).find? (· ≠ 0) = some d → d = 1) :
    (rowPieces unit number offset rows).map
        (·.depth? (unit? (rowPieces unit number offset rows))) =
      (rows.map (·.1)).map some := by
  have indents := map_indentation_rowPieces names unit number offset
  generalize rowPieces unit number offset rows = ps at *
  have shown := congrArg (List.findSome? IndentUnit.shownBy?) indents
  rw [List.findSome?_map, List.findSome?_map] at shown
  have depths := congrArg (List.map (IndentUnit.depth? (unit? ps))) indents
  rw [List.map_map, List.map_map (f := Script.indent unit)] at depths
  refine depths.trans ?_
  refine List.map_congr_left fun d hd => ?_
  rcases Script.unit_of_first hu first with known | zero
  · have known : unit? ps = some unit := shown.trans known
    rw [known]
    exact Script.depth?_indent hu d
  · rw [zero d hd]
    rfl

end

end Text

theorem Line.inherit_map_some (before : Nat) (depths : List Nat) :
    inherit before (depths.map some) = depths := by
  induction depths generalizing before with
  | nil => rfl
  | cons d ds ih => simp [inherit, ih]

/-- What is read of rows that are indented by a unit. -/
theorem scan_of_indented {unit : IndentUnit} (hu : unit ≠ .spaces 0) {limit : Nat}
    {rows : List (Nat × String)} (names : ∀ row ∈ rows, Script.IsName row.2)
    (shallow : ∀ row ∈ rows, row.1 ≤ limit)
    (first : ∀ d, (rows.map (·.1)).find? (· ≠ 0) = some d → d = 1) :
    let s := scan limit (Text.indented unit rows)
    let ps := Text.rowPieces unit 1 0 rows
    s.failure = none ∧ s.lines = List.zipWith Line.ofPiece ps (rows.map (·.1)) ∧
      s.warnings = ps.flatMap Line.sigilWarning := by
  intro s ps
  have depths := Text.map_depth?_rowPieces names hu 1 0 first
  have two : s.IsTwoPass limit (unit? ps) 0 ps := by
    have two := Reader.isTwoPass_readAll ps {} (Nat.zero_le limit)
    rw [Text.written_rowPieces names] at two
    simpa [s, Text.scan_indented names] using two
  have depth_of {p : Text.Piece} (hp : p ∈ ps) :
      ∃ row ∈ rows, p.depth? (unit? ps) = some row.1 := by
    have mem := depths ▸ List.mem_map_of_mem hp
    simpa [eq_comm] using mem
  have read : s.failure = none := by
    rw [two.failure]
    refine List.findSome?_eq_none_iff.2 fun p hp => Text.Piece.failure?_eq_none.2 fun d hd => ?_
    obtain ⟨row, hrow, measured⟩ := depth_of hp
    obtain rfl : row.1 = d := by simpa [measured] using hd
    exact shallow row hrow
  have fits : s.warnings.filter (·.kind = .malformedIndentation) = [] := by
    have fitting : ps.filter (fun p => p.depth? (unit? ps) = none) = [] := by
      refine List.filter_eq_nil_iff.2 fun p hp => ?_
      obtain ⟨row, -, measured⟩ := depth_of hp
      simp [measured]
    have misfits := two.misfits read
    rw [fitting] at misfits
    exact List.map_eq_nil_iff.1 misfits
  refine ⟨read, ?_, ?_⟩
  · rw [two.lines read, depths, Line.inherit_map_some]
  · rw [← two.others read]
    refine (List.filter_eq_self.2 fun x hx => ?_).symm
    simpa using List.filter_eq_nil_iff.1 fits x hx

namespace ProcessGraph

/-- Rows that are indented by their depths are read at their depths, whatever the unit is, and they
are read as the same graph but for the spans. The first row that is indented is indented by one
unit; those behind it may be any number of units deeper than the row before them. -/
theorem ofText_indented (options : ReadOptions) (rows : List (Nat × String))
    (names : ∀ row ∈ rows, Script.IsName row.2) (shallow : ∀ row ∈ rows, row.1 ≤ options.maxDepth)
    (first : ∀ d, (rows.map (·.1)).find? (· ≠ 0) = some d → d = 1) (u v : IndentUnit)
    (hu : u ≠ .spaces 0) (hv : v ≠ .spaces 0) :
    ∃ g g', ofText options (Text.indented u rows) = .ok g ∧
      ofText options (Text.indented v rows) = .ok g' ∧ g.renumber id = g'.renumber id ∧
      ∀ w ∈ [u, v],
        (scan options.maxDepth (Text.indented w rows)).lines.map (·.depth) = rows.map (·.1) ∧
        ∀ x ∈ (scan options.maxDepth (Text.indented w rows)).warnings,
          x.kind ≠ .malformedIndentation := by
  obtain ⟨read, lines, warnings⟩ := scan_of_indented hu names shallow first
  obtain ⟨read', lines', warnings'⟩ := scan_of_indented hv names shallow first
  obtain ⟨g, hg⟩ := exists_ofText_eq_ok.2 read
  obtain ⟨g', hg'⟩ := exists_ofText_eq_ok.2 read'
  have same := Text.sameTexts_rowPieces names u v 1 0 0
  refine ⟨g, g', hg, hg', ofText_renumber strictMono_id hg hg' ?_ ?_, ?_⟩
  · rw [lines, lines']
    exact same.lines _
  · rw [warnings, warnings']
    exact same.sigilWarnings
  · intro w hw
    have unit : w ≠ .spaces 0 := by
      rcases List.mem_pair.1 hw with rfl | rfl
      · exact hu
      · exact hv
    obtain ⟨-, lines, warnings⟩ := scan_of_indented unit names shallow first
    constructor
    · rw [lines]
      exact Line.map_depth_zipWith (by simp [Text.length_rowPieces])
    · intro x hx
      rw [warnings] at hx
      obtain ⟨p, -, hx⟩ := List.mem_flatMap.1 hx
      simp [Line.kind_of_mem_sigilWarning hx]

/-- A gateway whose branches are indented by three spaces or by tabs. One row is three units deeper
than the row before it, and the last one starts with no known sigil. -/
theorem ofText_indented_gateway :
    let rows := [(0, "@ Shop"), (0, "? in stock"), (1, "+|Sure| pack -> ship"), (4, "weigh"),
      (2, "send: parcel"), (1, "- reorder"), (0, "% ship")]
    ∃ g g', ofText {} (Text.indented (.spaces 3) rows) = .ok g ∧
      ofText {} (Text.indented .tab rows) = .ok g' ∧ g.renumber id = g'.renumber id ∧
      ∀ w ∈ [IndentUnit.spaces 3, .tab],
        (scan 64 (Text.indented w rows)).lines.map (·.depth) = rows.map (·.1) ∧
        ∀ x ∈ (scan 64 (Text.indented w rows)).warnings, x.kind ≠ .malformedIndentation :=
  ofText_indented {} _ (by decide) (by decide) (by decide) _ _ (by decide) (by decide)

end ProcessGraph

end Swimlane
