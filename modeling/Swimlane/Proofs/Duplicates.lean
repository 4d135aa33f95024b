import Swimlane.Proofs.Outline.Repetition
import Swimlane.Proofs.Positions

/-!
# Duplicate labels

A graph warns of every element whose lane has an earlier one with the same id base, and of nothing
else. Start events, end events and notes may be repeated.

## Main definitions

* `Lane.Repeats`: an element of a lane that should not be there again;
* `ProcessGraph.ReportsDuplicates`: a graph that warns of repeated elements, and only of these.

## Main statements

* `ProcessGraph.reported_of_statement`: warnings about statements are those of the draft;
* `ProcessGraph.ofText_reportsDuplicates`: every text is warned about in this way.
-/

namespace Swimlane

/-- An element of a lane that is no start event, end event or note, and an earlier element with the
same id base. -/
def Lane.Repeats (lane : Lane) (e : Element) : Prop :=
  (e.kind ≠ .startEvent ∧ e.kind ≠ .endEvent ∧ e.kind.isNote = false) ∧
    ∃ x ∈ lane.elements, x.order < e.order ∧ lane.base x = lane.base e

instance (lane : Lane) (e : Element) : Decidable (lane.Repeats e) :=
  inferInstanceAs (Decidable (_ ∧ ∃ x ∈ lane.elements, _))

theorem ElementKind.isRepeatable_eq_false {kind : ElementKind} :
    kind.isRepeatable = false ↔
      kind ≠ .startEvent ∧ kind ≠ .endEvent ∧ kind.isNote = false := by
  cases kind <;> simp [isRepeatable, isNote]

/-! ## Repetitions in a document -/

namespace Draft

variable {d : Draft} {lane : Lane} {e : Element}

theorem mem_elements_lane (hl : lane ∈ d.document.lanes) :
    e ∈ lane.elements ↔ e ∈ d.elements ∧ e.lane = lane.id := by
  obtain ⟨header, -, rfl⟩ := List.mem_map.1 hl
  simp

theorem laneOf_document (h : d.Registered) (hl : lane ∈ d.document.lanes)
    (own : e.lane = lane.id) : LaneHeader.laneOf d.lanes e = lane.toLaneHeader := by
  obtain ⟨header, hh, rfl⟩ := List.mem_map.1 hl
  exact LaneHeader.laneOf_eq h.laneIds_nodup hh own

theorem base_document (h : d.Registered) (hl : lane ∈ d.document.lanes) (own : e.lane = lane.id) :
    d.base e = lane.base e := by
  rw [base, laneOf_document h hl own]

theorem repeats_iff_lane (h : d.Registered) (hl : lane ∈ d.document.lanes)
    (own : e.lane = lane.id) : d.Repeats e ↔ lane.Repeats e := by
  rw [Repeats, Lane.Repeats, ElementKind.isRepeatable_eq_false, base_document h hl own]
  refine and_congr_right fun _ => exists_congr fun x => ?_
  rw [mem_elements_lane hl, own]
  have same (here : x.lane = lane.id) := base_document h hl here
  grind

/-- Warnings about repetitions stand on the lines of what is repeated. -/
theorem filter_line_repetitions (d : Draft) (es : List Element) (n : Nat) :
    (es.filterMap d.repetition?).filter (·.line = n) =
      (es.filter (·.line = n)).filterMap d.repetition? := by
  have places (e : Element) (x : Diagnostic) (h : d.repetition? e = some x) :
      x.line = e.line ∧ x.kind = .duplicateLabel := by
    unfold repetition? at h
    split at h
    · exact Option.some.inj h ▸ ⟨rfl, rfl⟩
    · cases h
  rw [← filter_line_filterMap places es n]
  refine List.filter_congr fun x hx => ?_
  obtain ⟨e, -, warned⟩ := List.mem_filterMap.1 hx
  simp [(places e x warned).2]

end Draft

namespace ProcessGraph

variable {options : ReadOptions} {text : String} {o : Outline}

/-- The warnings about statements on a line are those of the draft. -/
theorem reported_of_statement (h : Outline.ofText options text = .ok o) {kind : DiagnosticKind}
    (statement : kind ∈ DiagnosticKind.ofStatements) (n : Nat) :
    (ofOutline o).reported kind n =
      ((Outline.finished options.defaultLane (scan options.maxDepth text).lines).diagnostics.filter
        (·.kind = kind)).filter (·.line = n) := by
  let d := Outline.finished options.defaultLane (scan options.maxDepth text).lines
  have filtered {xs : List Diagnostic} (other : ∀ x ∈ xs, x.kind ∉ DiagnosticKind.ofStatements) :
      xs.filter (·.kind = kind) = [] := by
    refine List.filter_eq_nil_iff.2 fun x hx same => other x hx ?_
    rw [of_decide_eq_true same]
    exact statement
  have reading : (scan options.maxDepth text).warnings.filter (·.kind = kind) = [] :=
    filtered fun x hx => scan_kind_notMem_ofStatements (Outline.exists_ofText_eq_ok.1 ⟨o, h⟩) hx
  have waiting : (d.waiting.map (·.warning)).filter (·.kind = kind) = [] := by
    refine filtered fun x hx => DiagnosticKind.notMem_ofStatements_of_isLate ?_
    obtain ⟨m, -, rfl⟩ := List.mem_map.1 hx
    rfl
  have connecting (outcomes : List Outcome) :
      (Flow.diagnostics outcomes).filter (·.kind = kind) = [] :=
    filtered fun x hx =>
      DiagnosticKind.notMem_ofStatements_of_isLate (Flow.isLate_of_mem_diagnostics hx)
  have raised : (Outline.raised options text).filter (·.kind = kind) =
      d.diagnostics.filter (·.kind = kind) := by
    simp only [Outline.raised, List.filter_append]
    rw [reading, waiting, connecting, List.nil_append, List.append_nil, List.append_nil]
  have sorted := StableSort.filter_key_byKey (·.line) (Outline.raised options text) n
  rw [← raised, List.filter_filter, reported, diagnostics_eq_byKey_raised h]
  simp only [Bool.and_comm (decide (_ = n)), ← List.filter_filter, sorted]

/-- A graph warns of the elements that are repeated, once each, and of no others. An element has its
id base for an id when no lane and no earlier element has it. -/
structure ReportsDuplicates (g : ProcessGraph) : Prop where
  reported : ∀ lane ∈ g.document.lanes, ∀ e ∈ lane.elements,
    g.reported .duplicateLabel e.line =
      if lane.Repeats e then
        [(Finding.duplicateLabel e.label lane.name).toDiagnostic e.line e.span]
      else []
  others : ∀ x ∈ g.diagnostics, x.kind = .duplicateLabel →
    ∃ lane ∈ g.document.lanes, ∃ e ∈ lane.elements, e.line = x.line
  ids : ∀ lane ∈ g.document.lanes, ∀ e ∈ lane.elements,
    lane.base e ∉ g.document.lanes.map (·.id) →
      (∀ x ∈ g.document.laneElements, x.order < e.order → x.id ≠ lane.base e) →
        e.id = lane.base e

/-- Every text is warned about the elements that are repeated, and only about these. -/
theorem ofText_reportsDuplicates (options : ReadOptions) (text : String) (g : ProcessGraph)
    (h : ofText options text = .ok g) : g.ReportsDuplicates := by
  obtain ⟨o, ho, rfl⟩ := ofText_eq_ok h
  have single (e : Element) := Outline.filter_elements (e := e) ho
  have report (n : Nat) : (ofOutline o).reported .duplicateLabel n = _ :=
    reported_of_statement ho (by decide) n
  have document : (ofOutline o).document = _ := (Outline.ofText_eq_ok ho).1
  have registered := Outline.registered_finished options.defaultLane
    (scan options.maxDepth text).lines
  have tallied := Outline.tallied_finished options.defaultLane (scan options.maxDepth text).lines
  generalize Outline.finished options.defaultLane (scan options.maxDepth text).lines = d at *
  have elements : o.document.elements = d.elements := by
    rw [← Draft.document_elements registered, ← document]
    rfl
  rw [elements] at single
  simp only [tallied.warnings] at report
  refine ⟨?_, ?_, ?_⟩ <;> rw [document]
  · intro lane hl e he
    obtain ⟨mem, own⟩ := (Draft.mem_elements_lane hl).1 he
    rw [report, Draft.filter_line_repetitions, single e mem]
    simp only [List.filterMap_cons, List.filterMap_nil, Draft.repetition?,
      Draft.laneOf_document registered hl own, Draft.repeats_iff_lane registered hl own]
    grind
  · intro x hx kind
    have here : x ∈ (ofOutline o).reported .duplicateLabel x.line :=
      List.mem_filter.2 ⟨hx, by simpa using kind⟩
    rw [report, Draft.filter_line_repetitions] at here
    obtain ⟨e, he, -⟩ := List.mem_filterMap.1 here
    obtain ⟨he, line⟩ := List.mem_filter.1 he
    obtain ⟨lane, hl, he⟩ := List.mem_flatMap.1 ((Draft.mem_laneElements registered).2 he)
    exact ⟨lane, hl, e, he, by simpa using line⟩
  · intro lane hl e he free first
    obtain ⟨mem, own⟩ := (Draft.mem_elements_lane hl).1 he
    have ids : d.document.lanes.map (·.id) = d.lanes.map (·.id) := by
      rw [← Draft.map_toLaneHeader_document d, List.map_map]
      rfl
    rw [← Draft.base_document registered hl own] at free first ⊢
    exact tallied.ids e mem (ids ▸ free) fun x hx =>
      first x ((Draft.mem_laneElements registered).2 hx)

/-- A gateway repeats a task, and a task repeats a data object. End events and notes repeat nothing,
and another lane does not matter. -/
theorem ofText_reportsDuplicates_mixed :
    ∃ g, ofText {} "a\n?a\n#a\n!x\n!x\n#a\ndata a\n\"a\n\"a\n@B\na" = .ok g ∧
      g.diagnostics.map (fun x => (x.kind, x.line)) =
        [(.duplicateLabel, 2), (.duplicateLabel, 6), (.duplicateLabel, 7)] ∧
      g.ReportsDuplicates := by
  have read : ofText {} "a\n?a\n#a\n!x\n!x\n#a\ndata a\n\"a\n\"a\n@B\na" = .ok _ := rfl
  exact ⟨_, read, by decide +kernel, ofText_reportsDuplicates _ _ _ read⟩

end ProcessGraph

end Swimlane
