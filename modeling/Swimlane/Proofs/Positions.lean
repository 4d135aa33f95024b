import Swimlane.Proofs.Indentation
import Swimlane.Proofs.Outline.Declaration
import Swimlane.Proofs.References
import Swimlane.Proofs.Source.Position

/-!
# Positions are exact

Elements, warnings and failures point at a line of the text and at its bytes. A position is made
when a line is read, and from there on it is only copied: into the element that the line declares,
into a reference or a waiting message, and from these into warnings that are given much later.

## Main definitions

* `Text.IsPlace`: the line number and the span of a written line;
* `Draft.Pinned`: a draft whose records all stand at places;
* `Outline.raised`: the warnings of a text in the order they are raised;
* `ProcessGraph.IsPositioned`: a result whose positions are exact.

## Main statements

* `StableSort.filter_key_byKey`: sorting keeps the order of what has the same key;
* `Draft.Prepares.pinned`, `Draft.Declares.pinned`: changes copy positions;
* `ProcessGraph.ofText_isPositioned`: the positions in the result of every text are exact.
-/

namespace Swimlane

namespace StableSort

variable {α : Type} (key : α → Nat)

theorem filter_key_insert (a : α) (l : List α) (n : Nat) :
    (insert (fun x y => key x ≤ key y) a l).filter (key · = n) = (a :: l).filter (key · = n) := by
  induction l with
  | nil => rfl
  | cons b bs ih =>
    unfold insert
    split
    · rfl
    · next below =>
      -- The two have different keys, so one of them is not kept.
      have other : key b ≠ key a := by
        intro same
        simp [same] at below
      rw [List.filter_cons, ih]
      by_cases ha : key a = n
      · have hb : ¬ key b = n := fun hb => other (hb.trans ha.symm)
        simp [ha, hb]
      · simp [List.filter_cons, ha]

/-- Sorting keeps the order of what has the same key. -/
theorem filter_key_byKey (l : List α) (n : Nat) :
    (byKey key l).filter (key · = n) = l.filter (key · = n) := by
  unfold byKey
  induction l with
  | nil => rfl
  | cons a l ih => rw [sort, filter_key_insert, List.filter_cons, ih, List.filter_cons]

end StableSort

/-! ## Drafts -/

namespace Draft

variable {P : Nat → Span → Prop} {l : Line} {d d' : Draft}

/-- The records of a draft stand at places of a kind. -/
structure Pinned (P : Nat → Span → Prop) (d : Draft) : Prop where
  elements : ∀ e ∈ d.elements, P e.line e.span
  references : ∀ r ∈ d.references, P r.line r.span
  waiting : ∀ m ∈ d.waiting, P m.line m.span
  diagnostics : ∀ x ∈ d.diagnostics, P x.line x.span

theorem pinned_empty : Pinned P {} where
  elements := by simp
  references := by simp
  waiting := by simp
  diagnostics := by simp

theorem Closes.pinned (h : Closes d d') (hd : d.Pinned P) : d'.Pinned P := by
  cases h <;> exact { hd with }

theorem Prepares.pinned (h : Prepares l d d') (here : P l.number l.span) (hd : d.Pinned P) :
    d'.Pinned P := by
  cases h with
  | named | broken => exact { hd with }
  | closed h => exact h.pinned hd
  | warned f =>
    refine { hd with diagnostics := fun x hx => ?_ }
    rcases List.mem_append.1 hx with old | new
    · exact hd.diagnostics x old
    · exact List.mem_singleton.1 new ▸ here
  | entered name =>
    exact
      { elements := openLane_elements d name ▸ hd.elements
        references := openLane_references d name ▸ hd.references
        waiting := openLane_waiting d name ▸ hd.waiting
        diagnostics := openLane_diagnostics d name ▸ hd.diagnostics }
  | connected =>
    refine { hd with references := fun r hr => ?_ }
    rcases List.mem_append.1 hr with old | new
    · exact hd.references r old
    · exact List.mem_singleton.1 new ▸ here

theorem place_of_mem_duplicateWarning {lane : LaneHeader} {e : Element} {x : Diagnostic}
    (h : x ∈ d.duplicateWarning lane e) : x.line = e.line ∧ x.span = e.span := by
  unfold duplicateWarning at h
  split at h
  · exact List.mem_singleton.1 h ▸ ⟨rfl, rfl⟩
  · cases h

theorem Declares.pinned (h : Declares l d d') (here : P l.number l.span) (hd : d.Pinned P) :
    d'.Pinned P := by
  obtain ⟨lane, e, books⟩ := h.exists_books
  have own : P e.line e.span := by rwa [books.line, books.span]
  refine ⟨?_, fun r hr => ?_, fun m hm => ?_, fun x hx => ?_⟩
  · refine (books.forall_mem_elements fun x x' grows => ?_).2 ⟨hd.elements, own⟩
    rw [grows.line, grows.span]
  · obtain ⟨arrows, references, places⟩ := books.references
    rw [references] at hr
    rcases List.mem_append.1 hr with old | new
    · exact hd.references r old
    · obtain ⟨-, line, span⟩ := places r new
      rwa [line, span]
  · rcases books.waiting m hm with old | ⟨line, span⟩
    · exact hd.waiting m old
    · rwa [line, span]
  · rw [books.diagnostics] at hx
    rcases List.mem_append.1 hx with old | new
    · exact hd.diagnostics x old
    · obtain ⟨line, span⟩ := place_of_mem_duplicateWarning new
      rwa [line, span]

/-! ## Warnings are added at the end -/

theorem Closes.diagnostics_prefix (h : Closes d d') : d.diagnostics <+: d'.diagnostics := by
  cases h <;> exact List.prefix_refl _

theorem Prepares.diagnostics_prefix (h : Prepares l d d') : d.diagnostics <+: d'.diagnostics := by
  cases h with
  | named | broken | connected => exact List.prefix_refl _
  | closed h => exact h.diagnostics_prefix
  | warned f => exact List.prefix_append _ _
  | entered name => rw [openLane_diagnostics]

theorem Declares.diagnostics_prefix (h : Declares l d d') : d.diagnostics <+: d'.diagnostics := by
  obtain ⟨lane, e, books⟩ := h.exists_books
  rw [books.diagnostics]
  exact List.prefix_append _ _

end Draft

namespace Outline

open Draft

theorem pinned_finished {P : Nat → Span → Prop} (defaultLane : String) {lines : List Line}
    (h : ∀ l ∈ lines, P l.number l.span) : (finished defaultLane lines).Pinned P :=
  finished_invariant defaultLane (fun _ _ h => h.pinned) <|
    draft_invariant defaultLane pinned_empty (fun l hl _ _ change => change.pinned (h l hl))
      fun l hl _ _ change => change.pinned (h l hl)

/-- The warnings about the first lines come first. -/
theorem diagnostics_prefix_finished (defaultLane : String) (ls rest : List Line) :
    (draft defaultLane ls).diagnostics <+: (finished defaultLane (ls ++ rest)).diagnostics := by
  refine finished_invariant (P := fun d => (draft defaultLane ls).diagnostics <+: d.diagnostics)
    defaultLane (fun _ _ h earlier => earlier.trans h.diagnostics_prefix) ?_
  rw [draft_append_run]
  exact run_invariant (P := fun d => (draft defaultLane ls).diagnostics <+: d.diagnostics)
    defaultLane (anchored_draft defaultLane ls) rest (List.prefix_refl _)
    (fun _ _ _ _ h earlier => earlier.trans h.diagnostics_prefix)
    fun _ _ _ _ h earlier => earlier.trans h.diagnostics_prefix

/-- Elements with increasing positions stand on later lines. -/
theorem pairwise_order_line_finished (options : ReadOptions) (text : String) :
    (finished options.defaultLane (scan options.maxDepth text).lines).elements.Pairwise
      fun x y => x.order < y.order ∧ x.line < y.line := by
  refine (pairwise_order (registered_finished _ _)).and (List.pairwise_map.1 ?_)
  rw [finished_elements]
  exact (scan_numbers_pairwise options.maxDepth text).sublist (lines_sublist _ _)

/-- The warnings of a text in the order they are raised: when the text is read, when its lines are
taken, when the messages without another side are known, and when elements are connected. -/
def raised (options : ReadOptions) (text : String) : List Diagnostic :=
  let s := scan options.maxDepth text
  let d := finished options.defaultLane s.lines
  s.warnings ++ d.diagnostics ++ d.waiting.map (·.warning) ++
    Flow.diagnostics (Flow.outcomes d.document d.events d.references)

end Outline

/-! ## Texts -/

/-- Where a written line of a text stands. -/
def Text.IsPlace (text : String) (number : Nat) (s : Span) : Prop :=
  ∃ p ∈ Text.pieces text.toList, p.isWritten = true ∧ number = p.number ∧ s = Line.spanOf p

namespace Text.IsPlace

variable {text : String} {number number' : Nat} {s s' : Span}

theorem standsAt (h : IsPlace text number s) : StandsAt text number s := by
  obtain ⟨p, hp, written, rfl, rfl⟩ := h
  exact standsAt_spanOf hp written

theorem stop_lt_start (h : IsPlace text number s) (h' : IsPlace text number' s')
    (lt : number < number') : s.stop < s'.start := by
  obtain ⟨p, hp, -, rfl, rfl⟩ := h
  obtain ⟨q, hq, -, rfl, rfl⟩ := h'
  exact spanOf_stop_lt_start hp hq lt

end Text.IsPlace

open Text (IsPlace)

theorem Line.place_of_mem_sigilWarning {p : Text.Piece} {x : Diagnostic}
    (h : x ∈ sigilWarning p) : x.line = p.number ∧ x.span = spanOf p := by
  unfold sigilWarning at h
  split at h
  · split at h
    · exact List.mem_singleton.1 h ▸ ⟨rfl, rfl⟩
    · cases h
  · cases h

section scan

variable {limit : Nat} {text : String}

theorem isPlace_of_mem_written {p : Text.Piece}
    (h : p ∈ Text.written (Text.pieces text.toList)) : IsPlace text p.number (Line.spanOf p) :=
  ⟨p, (List.mem_filter.1 h).1, (List.mem_filter.1 h).2, rfl, rfl⟩

variable (read : (scan limit text).failure = none)

include read

theorem isPlace_of_mem_lines {l : Line} (hl : l ∈ (scan limit text).lines) :
    IsPlace text l.number l.span := by
  obtain ⟨p, hp, line⟩ := (scan_isTwoPass limit text).exists_piece read hl
  rw [line]
  exact isPlace_of_mem_written hp

theorem isPlace_of_mem_warnings {x : Diagnostic} (hx : x ∈ (scan limit text).warnings) :
    IsPlace text x.line x.span := by
  have two := scan_isTwoPass limit text
  by_cases kind : x.kind = .malformedIndentation
  · have mem : (x.line, x.span) ∈ ((scan limit text).warnings.filter
        (·.kind = .malformedIndentation)).map fun x => (x.line, x.span) :=
      List.mem_map_of_mem (List.mem_filter.2 ⟨hx, by simpa using kind⟩)
    rw [two.misfits read] at mem
    obtain ⟨p, hp, same⟩ := List.mem_map.1 mem
    obtain ⟨line, span⟩ := Prod.mk.inj same
    rw [← line, ← span]
    exact isPlace_of_mem_written (List.mem_filter.1 hp).1
  · have mem : x ∈ (scan limit text).warnings.filter (·.kind ≠ .malformedIndentation) :=
      List.mem_filter.2 ⟨hx, by simpa using kind⟩
    rw [two.others read] at mem
    obtain ⟨p, hp, own⟩ := List.mem_flatMap.1 mem
    obtain ⟨line, span⟩ := Line.place_of_mem_sigilWarning own
    rw [line, span]
    exact isPlace_of_mem_written hp

end scan

/-- A text that is not read fails at the place of a line. -/
theorem isPlace_of_failure {limit : Nat} {text : String} {f : Failure}
    (h : (scan limit text).failure = some f) :
    ∃ number s, f.line = some number ∧ f.span = some s ∧ IsPlace text number s := by
  rw [(scan_isTwoPass limit text).failure] at h
  obtain ⟨p, hp, fails⟩ := List.exists_of_findSome?_eq_some h
  obtain ⟨depth, -, -, rfl⟩ := Text.Piece.failure?_eq_some.1 fails
  exact ⟨_, _, rfl, rfl, isPlace_of_mem_written hp⟩

/-- Warnings about connections stand where the data objects and references stand. -/
theorem Flow.place_of_mem_diagnostics {P : Nat → Span → Prop} {doc : Document}
    {events : List Event} {references : List Reference}
    (elements : ∀ e ∈ doc.elements, P e.line e.span)
    (written : ∀ r ∈ references, P r.line r.span) {x : Diagnostic}
    (h : x ∈ diagnostics (outcomes doc events references)) : P x.line x.span := by
  rw [diagnostics_outcomes] at h
  rcases List.mem_append.1 h with data | reference
  · obtain ⟨e, he, warned⟩ := List.mem_filterMap.1 data
    have place : x.line = e.line ∧ x.span = e.span := by
      unfold dataWarning? Outcome.ofData? at warned
      grind [Outcome.warning?, Finding.toDiagnostic]
    rw [place.1, place.2]
    exact elements e he
  · obtain ⟨r, hr, warned⟩ := List.mem_filterMap.1 reference
    have place : x.line = r.line ∧ x.span = r.span := by
      unfold referenceWarning? Outcome.ofReference at warned
      grind [Outcome.warning?, Finding.toDiagnostic]
    rw [place.1, place.2]
    exact written r hr

namespace ProcessGraph

variable {options : ReadOptions} {text : String}

/-- A graph points into its text. Elements and warnings stand at lines, and elements stand in the
order of their declaration, without overlap. Warnings are in the order of their lines, and on one
line in the order they were raised. -/
structure PointsInto (g : ProcessGraph) (options : ReadOptions) (text : String) : Prop where
  elements : ∀ e ∈ g.document.laneElements, Text.StandsAt text e.line e.span
  increasing : ∀ e ∈ g.document.laneElements, ∀ e' ∈ g.document.laneElements,
    e.order < e'.order → e.span.stop < e'.span.start
  diagnostics : ∀ x ∈ g.diagnostics, Text.StandsAt text x.line x.span
  sorted : g.diagnostics.Pairwise fun x y => x.line ≤ y.line
  ties : ∀ n, g.diagnostics.filter (·.line = n) =
    (Outline.raised options text).filter (·.line = n)
  chronological : ∀ ls rest, (scan options.maxDepth text).lines = ls ++ rest →
    (Outline.draft options.defaultLane ls).diagnostics <+:
      (Outline.finished options.defaultLane (ls ++ rest)).diagnostics

/-- The result of reading a text has exact positions: a graph points into the text, and a failure
stands at a line. -/
def IsPositioned (options : ReadOptions) (text : String) : Except Failure ProcessGraph → Prop
  | .ok g => g.PointsInto options text
  | .error f => ∃ number s, f.line = some number ∧ f.span = some s ∧ Text.StandsAt text number s

theorem diagnostics_eq_byKey_raised {o : Outline} (h : Outline.ofText options text = .ok o) :
    (ofOutline o).diagnostics = StableSort.byKey (·.line) (Outline.raised options text) := by
  rw [Outline.eq_ofDraft_of_ofText h]
  rfl

/-- The positions in the result of every text are exact. -/
theorem ofText_isPositioned (options : ReadOptions) (text : String) :
    IsPositioned options text (ofText options text) := by
  cases result : ofText options text with
  | error f =>
    obtain ⟨number, s, line, span, place⟩ := isPlace_of_failure (ofText_eq_error.1 result)
    exact ⟨number, s, line, span, place.standsAt⟩
  | ok g =>
    have read := exists_ofText_eq_ok.1 ⟨g, result⟩
    obtain ⟨o, ho, rfl⟩ := ofText_eq_ok result
    have document := (Outline.ofText_eq_ok ho).1
    have registered := Outline.registered_finished options.defaultLane
      (scan options.maxDepth text).lines
    have pinned := Outline.pinned_finished (P := IsPlace text) options.defaultLane
      fun l hl => isPlace_of_mem_lines read hl
    have mem {e : Element} (he : e ∈ o.document.laneElements) :=
      (Draft.mem_laneElements registered).1 (document ▸ he)
    have raised : ∀ x ∈ Outline.raised options text, IsPlace text x.line x.span := by
      intro x hx
      simp only [Outline.raised, List.mem_append] at hx
      rcases hx with ((reading | taking) | waiting) | connecting
      · exact isPlace_of_mem_warnings read reading
      · exact pinned.diagnostics x taking
      · obtain ⟨m, hm, rfl⟩ := List.mem_map.1 waiting
        exact pinned.waiting m hm
      · refine Flow.place_of_mem_diagnostics (fun e he => ?_) pinned.references connecting
        rw [Draft.document_elements registered] at he
        exact pinned.elements e he
    have diagnostics := diagnostics_eq_byKey_raised ho
    refine ⟨fun e he => (pinned.elements e (mem he)).standsAt, fun e he e' he' lt => ?_,
      fun x hx => ?_, ?_, fun n => ?_,
      fun ls rest _ => Outline.diagnostics_prefix_finished _ ls rest⟩
    · have lines := Outline.pairwise_order_line_finished options text
      exact (pinned.elements e (mem he)).stop_lt_start (pinned.elements e' (mem he'))
        (rel_of_key_lt lines (mem he) (mem he') lt)
    · rw [diagnostics] at hx
      exact (raised x ((StableSort.perm_sort _ _).mem_iff.1 hx)).standsAt
    · rw [diagnostics]
      exact StableSort.pairwise_byKey _ _
    · rw [diagnostics]
      exact StableSort.filter_key_byKey _ _ n

end ProcessGraph

end Swimlane
