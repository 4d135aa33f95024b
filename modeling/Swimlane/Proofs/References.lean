import Swimlane.Proofs.Coverage
import Swimlane.Proofs.Flow.Numbered
import Swimlane.Proofs.Integrity
import Swimlane.Proofs.Messages

/-!
# References are answered

A reference whose two ends are found becomes a connection. If an end is not found, one warning on
its line says which. The same holds of a data object and the element it names. No connection comes
from anywhere else than an event of the log, a data object or a reference. A line leaves at most one
element and one reference, so the warnings can be told by their lines.

## Main definitions

* `ProcessGraph.between`, `ProcessGraph.reported`: connections by their key, warnings by their line;
* `ProcessGraph.Answers`: a graph that answers the references and data objects of an outline.

## Main statements

* `Outcome.warnings_distinct`: no warning is lost when edges are dropped;
* `Outline.filter_references`, `Outline.filter_elements`: a line has one reference and one element;
* `ProcessGraph.between_of_stems`: an edge that comes up is one connection;
* `ProcessGraph.ofText_answers`: the graph of every text answers its references.
-/

namespace Swimlane

/-! ## One record a line -/

theorem eq_singleton_of_mem {α : Type} {a : α} {as : List α} (h : a ∈ as)
    (short : as.length ≤ 1) : as = [a] := by
  match as, h, short with
  | [b], h, _ => rw [List.mem_singleton.1 h]

/-- A line leaves at most one element and at most one reference. -/
theorem Draft.Account.length_le {l : Line} {named : Option String} {events : List Event}
    {s : Statement} {y : Records} (h : Account l named events s y) :
    y.ids.length ≤ 1 ∧ y.references.length ≤ 1 := by
  cases h <;> simp [arrowOf, Option.length_toList_le]

namespace Outline

variable {options : ReadOptions} {text : String} {o : Outline}

theorem exists_holds (h : ofText options text = .ok o) (n : Nat) :
    ∃ y, o.Holds n y ∧ y.ids.length ≤ 1 ∧ y.references.length ≤ 1 := by
  by_cases line : ∃ l ∈ (scan options.maxDepth text).lines, l.number = n
  · obtain ⟨l, hl, rfl⟩ := line
    obtain ⟨named, y, account, holds, -⟩ := account_of_mem h hl
    exact ⟨y, holds, account.length_le⟩
  · exact ⟨{}, holds_empty h fun l hl number => line ⟨l, hl, number⟩, by simp⟩

theorem filter_references (h : ofText options text = .ok o) {r : Reference}
    (hr : r ∈ o.references) : o.references.filter (·.line = r.line) = [r] := by
  obtain ⟨y, holds, -, short⟩ := exists_holds h r.line
  have here : r ∈ o.references.filter (·.line = r.line) := by simp [hr]
  rw [← holds.references] at short
  exact eq_singleton_of_mem here short

theorem filter_elements (h : ofText options text = .ok o) {e : Element}
    (he : e ∈ o.document.elements) : o.document.elements.filter (·.line = e.line) = [e] := by
  obtain ⟨y, holds, short, -⟩ := exists_holds h e.line
  have here : e ∈ o.document.elements.filter (·.line = e.line) := by simp [he]
  rw [← holds.ids, List.length_map] at short
  exact eq_singleton_of_mem here short

end Outline

/-! ## Warnings -/

theorem Outcome.warnings_distinct (seen : List (ConnectionKind × String × String))
    (outcomes : List Outcome) :
    (distinct seen outcomes).filterMap warning? = outcomes.filterMap warning? := by
  fun_induction distinct seen outcomes with
  | case1 => rfl
  | case2 seen e rest known ih => exact ih
  | case3 seen e rest new ih => exact ih
  | case4 seen o rest other ih => simp [List.filterMap_cons, ih]

/-- The warning about an end of a reference that names nothing. -/
def Reference.warning (r : Reference) (missing : String) : Diagnostic :=
  ⟨.unresolvedForwardReference, r.line, r.span, "`" ++ missing ++ "` does not name any element"⟩

/-- The warning about a data object whose element is not declared. -/
def Element.looseWarning (e : Element) (associated : String) : Diagnostic :=
  ⟨.unresolvedDataAssociation, e.line, e.span,
    "data object `" ++ e.label ++ "` refers to `" ++ associated ++ "`, which is not declared"⟩

namespace Flow

variable {doc : Document}

/-- The warning about a data object, if its element is not declared. -/
def dataWarning? (doc : Document) (e : Element) : Option Diagnostic :=
  (Outcome.ofData? doc e).bind Outcome.warning?

/-- The warning about a reference, if one of its ends names nothing. -/
def referenceWarning? (doc : Document) (r : Reference) : Option Diagnostic :=
  (Outcome.ofReference doc r).warning?

theorem diagnostics_outcomes (doc : Document) (events : List Event) (references : List Reference) :
    diagnostics (outcomes doc events references) =
      doc.elements.filterMap (dataWarning? doc) ++
        references.filterMap (referenceWarning? doc) := by
  have drawn : ((Threads.run doc {} events).map Outcome.edge).filterMap Outcome.warning? = [] := by
    simp [Outcome.warning?]
  rw [diagnostics, outcomes, Outcome.warnings_distinct, List.filterMap_append,
    List.filterMap_append, drawn, List.filterMap_filterMap, List.filterMap_map]
  rfl

theorem dataWarning?_eq_some {e : Element} {x : Diagnostic} (h : dataWarning? doc e = some x) :
    x.line = e.line ∧ x.kind = .unresolvedDataAssociation := by
  unfold dataWarning? Outcome.ofData? at h
  grind [Outcome.warning?, Finding.toDiagnostic, Finding.kind]

theorem referenceWarning?_eq_some {r : Reference} {x : Diagnostic}
    (h : referenceWarning? doc r = some x) :
    x.line = r.line ∧ x.kind = .unresolvedForwardReference := by
  unfold referenceWarning? Outcome.ofReference at h
  grind [Outcome.warning?, Finding.toDiagnostic, Finding.kind]

section

variable {r : Reference} {source target missing : String}

theorem referenceWarning?_of_ok (source_ok : doc.endpoint r.lane r.source = .ok source)
    (target_ok : doc.endpoint r.lane r.target = .ok target) : referenceWarning? doc r = none := by
  simp [referenceWarning?, Outcome.ofReference, source_ok, target_ok, Outcome.warning?]

/-- A source that is not found is reported, whatever the target is. -/
theorem referenceWarning?_of_source (lost : doc.endpoint r.lane r.source = .error missing) :
    referenceWarning? doc r = some (r.warning missing) := by
  simp only [referenceWarning?, Outcome.ofReference, lost]
  rfl

theorem referenceWarning?_of_target (source_ok : doc.endpoint r.lane r.source = .ok source)
    (lost : doc.endpoint r.lane r.target = .error missing) :
    referenceWarning? doc r = some (r.warning missing) := by
  simp only [referenceWarning?, Outcome.ofReference, source_ok, lost]
  rfl

end

section

variable {e : Element} {name target : String} (kind : e.kind = .dataObject (some name))

include kind

theorem dataWarning?_of_found (found : doc.resolve? name e.lane = some target) :
    dataWarning? doc e = none := by
  simp [dataWarning?, Outcome.ofData?, kind, found, Outcome.warning?]

theorem dataWarning?_of_lost (lost : doc.resolve? name e.lane = none) :
    dataWarning? doc e = some (e.looseWarning name) := by
  simp only [dataWarning?, Outcome.ofData?, kind, lost]
  rfl

end

end Flow

/-- Warnings that stand on the lines of what they are about, and are all of one kind. -/
theorem filter_line_filterMap {α : Type} {f : α → Option Diagnostic} {line : α → Nat}
    {kind : DiagnosticKind} (h : ∀ a x, f a = some x → x.line = line a ∧ x.kind = kind)
    (as : List α) (n : Nat) :
    (as.filterMap f).filter (fun x => x.line = n && x.kind = kind) =
      (as.filter (line · = n)).filterMap f := by
  induction as with
  | nil => rfl
  | cons a as ih => grind

namespace ProcessGraph

/-- The connections of a kind from one element to another. -/
def between (g : ProcessGraph) (kind : ConnectionKind) (source target : String) : List Connection :=
  g.connections.filter fun c => c.kind = kind && c.source = source && c.target = target

/-- The associations of a data object. -/
def associations (g : ProcessGraph) (id : String) : List Connection :=
  g.connections.filter fun c => c.kind = .dataAssociation && c.source = id

/-- The warnings of a kind on a line. -/
def reported (g : ProcessGraph) (kind : DiagnosticKind) (line : Nat) : List Diagnostic :=
  g.diagnostics.filter fun x => x.line = line && x.kind = kind

variable {options : ReadOptions} {text : String} {o : Outline}

/-- The warnings about references or data objects on a line are those among the outcomes, where
there is at most one. -/
theorem reported_ofOutline (h : Outline.ofText options text = .ok o) {kind : DiagnosticKind}
    (late : kind.isLate = true) (other : kind ≠ .unmatchedMessage) {n : Nat}
    {found : List Diagnostic} (short : found.length ≤ 1)
    (raised : (Flow.diagnostics (Flow.outcomes o.document o.events o.references)).filter
      (fun x => x.line = n && x.kind = kind) = found) :
    (ofOutline o).reported kind n = found := by
  have messages : (o.unmatched.map (·.warning)).filter (·.kind = kind) = [] := by
    refine List.filter_eq_nil_iff.2 fun x hx => ?_
    obtain ⟨m, -, rfl⟩ := List.mem_map.1 hx
    exact fun same => other (of_decide_eq_true same).symm
  have all : (o.diagnostics ++ Flow.diagnostics (Flow.outcomes o.document o.events
      o.references)).filter (fun x => x.line = n && x.kind = kind) = found := by
    rw [List.filter_append, raised, ← List.filter_filter, Outline.filter_diagnostics h late,
      messages, List.filter_nil, List.nil_append]
  -- At most one warning is left, so sorting by lines does not move it.
  rw [reported, ofOutline, StableSort.filter_byKey, all]
  rw [all]
  cases found with
  | nil => exact .nil
  | cons x rest =>
    obtain rfl : rest = [] := by simpa using short
    exact List.pairwise_singleton _ x

theorem reported_reference (h : Outline.ofText options text = .ok o) {r : Reference}
    (hr : r ∈ o.references) :
    (ofOutline o).reported .unresolvedForwardReference r.line =
      (Flow.referenceWarning? o.document r).toList := by
  apply reported_ofOutline h rfl (by decide) Option.length_toList_le
  have others : (o.document.elements.filterMap (Flow.dataWarning? o.document)).filter
      (fun x => x.line = r.line && x.kind = .unresolvedForwardReference) = [] := by
    refine List.filter_eq_nil_iff.2 fun x hx => ?_
    obtain ⟨e, -, own⟩ := List.mem_filterMap.1 hx
    simp [(Flow.dataWarning?_eq_some own).2]
  rw [Flow.diagnostics_outcomes, List.filter_append, others, List.nil_append,
    filter_line_filterMap (fun r x => Flow.referenceWarning?_eq_some),
    Outline.filter_references h hr]
  cases warning : Flow.referenceWarning? o.document r <;> simp [warning]

theorem reported_data (h : Outline.ofText options text = .ok o) {e : Element}
    (he : e ∈ o.document.elements) :
    (ofOutline o).reported .unresolvedDataAssociation e.line =
      (Flow.dataWarning? o.document e).toList := by
  apply reported_ofOutline h rfl (by decide) Option.length_toList_le
  have others : (o.references.filterMap (Flow.referenceWarning? o.document)).filter
      (fun x => x.line = e.line && x.kind = .unresolvedDataAssociation) = [] := by
    refine List.filter_eq_nil_iff.2 fun x hx => ?_
    obtain ⟨r, -, own⟩ := List.mem_filterMap.1 hx
    simp [(Flow.referenceWarning?_eq_some own).2]
  rw [Flow.diagnostics_outcomes, List.filter_append, others, List.append_nil,
    filter_line_filterMap (fun e x => Flow.dataWarning?_eq_some), Outline.filter_elements h he]
  cases warning : Flow.dataWarning? o.document e <;> simp [warning]

end ProcessGraph

/-! ## Edges -/

namespace ProcessGraph

variable {o : Outline}

/-- An edge that comes up is one connection. -/
theorem between_of_stems {e : Edge} (h : o.Stems e) :
    ∃ c, (ofOutline o).between e.kind e.source e.target = [c] := by
  obtain ⟨first, found⟩ : ∃ first, (Flow.emitted o.document o.events o.references).find?
      (·.key = e.key) = some first :=
    Option.isSome_iff_exists.1 (List.find?_isSome.2 ⟨e, Outline.mem_emitted_iff.2 h, by simp⟩)
  obtain ⟨c, only, -⟩ := Flow.exists_connection _ _ _ found
  exact ⟨c, only⟩

end ProcessGraph

/-- An association leads from a data object to the element that it names. -/
theorem Outline.Stems.resolve?_eq {o : Outline} (ids : (o.document.elements.map (·.id)).Nodup)
    (references : ∀ r ∈ o.references, r.kind ≠ .dataAssociation) {e : Element}
    (he : e ∈ o.document.elements) {name : String} (kind : e.kind = .dataObject (some name))
    {edge : Edge} (h : o.Stems edge) (association : edge.kind = .dataAssociation)
    (source : edge.source = e.id) : o.document.resolve? name e.lane = some edge.target := by
  cases h with
  | event start drawn =>
    exact absurd association (Flow.kind_of_mem_run _ _ (Threads.mem_run_of_step start drawn))
  | @data x name' target mem kind' found =>
    obtain rfl := List.inj_on_of_nodup_map ids mem he source
    obtain rfl : name' = name := by simpa [kind'] using kind
    exact found
  | reference mem => exact absurd association (references _ mem)

namespace ProcessGraph

variable {o : Outline}

theorem resolve?_of_mem_associations (ids : (o.document.elements.map (·.id)).Nodup)
    (references : ∀ r ∈ o.references, r.kind ≠ .dataAssociation) {e : Element}
    (he : e ∈ o.document.elements) {name : String} (kind : e.kind = .dataObject (some name))
    {c : Connection} (hc : c ∈ (ofOutline o).associations e.id) :
    o.document.resolve? name e.lane = some c.target := by
  obtain ⟨hc, association, source⟩ : c ∈ (ofOutline o).connections ∧
      c.kind = .dataAssociation ∧ c.source = e.id := by simpa [associations] using hc
  exact (stems_of_mem_connections hc).resolve?_eq ids references he kind association source

/-- A data object whose element is found has one association. -/
theorem associations_of_found (ids : (o.document.elements.map (·.id)).Nodup)
    (references : ∀ r ∈ o.references, r.kind ≠ .dataAssociation) {e : Element}
    (he : e ∈ o.document.elements) {name target : String} (kind : e.kind = .dataObject (some name))
    (found : o.document.resolve? name e.lane = some target) :
    ∃ c, (ofOutline o).associations e.id = [c] ∧ c.target = target := by
  obtain ⟨c, one⟩ := between_of_stems (.data he kind found)
  have only : (ofOutline o).associations e.id = [c] := by
    rw [← one, associations, between]
    -- The target need not be asked for: every association of the data object leads to it.
    apply List.filter_congr
    intro x hx
    by_cases own : x.kind = .dataAssociation ∧ x.source = e.id
    · have mem : x ∈ (ofOutline o).associations e.id := by simp [associations, hx, own]
      have same := resolve?_of_mem_associations ids references he kind mem
      simp [own, Option.some.inj (same.symm.trans found)]
    · grind
  have mem : c ∈ (ofOutline o).associations e.id := by simp [only]
  have same := resolve?_of_mem_associations ids references he kind mem
  exact ⟨c, only, Option.some.inj (same.symm.trans found)⟩

end ProcessGraph

/-! ## Ends -/

/-- An element that is known is found again by its id. -/
theorem Document.endpoint_element {doc : Document} {id : String} (h : doc.HasFlowNode id)
    (lane : String) : doc.endpoint lane (.element id) = .ok id := by
  obtain ⟨x, hx, own, -⟩ := h
  obtain ⟨e, found⟩ : ∃ e, doc.findLast? id = some e :=
    Option.isSome_iff_exists.1 (List.find?_isSome.2 ⟨x, by simpa using hx, by simpa using own⟩)
  simp [endpoint, found, Threads.id_of_findLast? found]

/-- The text that names nothing is that of the end. -/
theorem Document.eq_of_endpoint_eq_error {doc : Document} {lane missing : String} {p : Endpoint}
    (h : doc.endpoint lane p = .error missing)
    (known : ∀ id, p = .element id → doc.HasFlowNode id) : p = .named missing := by
  cases p with
  | element id => simp [endpoint_element (known id rfl)] at h
  | named text =>
    cases found : doc.resolve? text lane <;> simp_all [endpoint]

namespace ProcessGraph

/-- A graph answers the references and data objects of an outline. The ends of a reference that are
known elements are found. If both ends are found there is one connection of the kind of the
reference between them and no warning about ends on its line; if not, there is one such warning,
about the source if that is not found. A data object that names an element has one association, with
the element of the flow it names, and no warning, or it has a warning and no association. Every
connection stems from an event, from such a data object or from such a reference. -/
structure Answers (g : ProcessGraph) (o : Outline) : Prop where
  known : ∀ r ∈ o.references, ∀ id, r.source = .element id ∨ r.target = .element id →
    o.document.HasFlowNode id ∧ o.document.endpoint r.lane (.element id) = .ok id
  connected : ∀ r ∈ o.references, ∀ source target,
    o.document.endpoint r.lane r.source = .ok source →
    o.document.endpoint r.lane r.target = .ok target →
    (∃ c, g.between r.kind source target = [c]) ∧ g.reported .unresolvedForwardReference r.line = []
  sourceless : ∀ r ∈ o.references, ∀ missing,
    o.document.endpoint r.lane r.source = .error missing →
    r.source = .named missing ∧ g.reported .unresolvedForwardReference r.line = [r.warning missing]
  targetless : ∀ r ∈ o.references, ∀ source missing,
    o.document.endpoint r.lane r.source = .ok source →
    o.document.endpoint r.lane r.target = .error missing →
    r.target = .named missing ∧ g.reported .unresolvedForwardReference r.line = [r.warning missing]
  associated : ∀ e ∈ o.document.elements, ∀ name target, e.kind = .dataObject (some name) →
    o.document.resolve? name e.lane = some target →
    (∃ c, g.associations e.id = [c] ∧ c.target = target) ∧ o.document.HasFlowNode target ∧
    g.reported .unresolvedDataAssociation e.line = []
  loose : ∀ e ∈ o.document.elements, ∀ name, e.kind = .dataObject (some name) →
    o.document.resolve? name e.lane = none →
    g.associations e.id = [] ∧
    g.reported .unresolvedDataAssociation e.line = [e.looseWarning name]
  stems : ∀ c ∈ g.connections, o.Stems c.edge

/-- The graph of every text answers its references. -/
theorem ofText_answers (options : ReadOptions) (text : String) (o : Outline)
    (h : Outline.ofText options text = .ok o) :
    ∃ g, ofText options text = .ok g ∧ g.Answers o := by
  refine ⟨ofOutline o, by rw [ofText, h]; rfl, ?_⟩
  obtain ⟨document, -, references⟩ := Outline.ofText_eq_ok h
  have registered := Outline.registered_finished options.defaultLane
    (scan options.maxDepth text).lines
  have grounded := Outline.grounded_finished options.defaultLane
    (scan options.maxDepth text).lines
  have kinds : ∀ r ∈ o.references, r.kind ≠ .dataAssociation := fun r hr =>
    (grounded.references r (references ▸ hr)).1
  have known : ∀ r ∈ o.references, ∀ id, r.source = .element id ∨ r.target = .element id →
      o.document.HasFlowNode id := fun r hr id own => by
    rw [document, Draft.hasFlowNode_document registered]
    exact (grounded.references r (references ▸ hr)).2 id own
  have ids : (o.document.elements.map (·.id)).Nodup := by
    rw [document, Draft.document_elements registered]
    exact registered.elementIds_nodup
  refine ⟨fun r hr id own => ⟨known r hr id own, Document.endpoint_element (known r hr id own) _⟩,
    fun r hr source target source_ok target_ok => ⟨?_, ?_⟩,
    fun r hr missing lost => ⟨?_, ?_⟩, fun r hr source missing source_ok lost => ⟨?_, ?_⟩,
    fun e he name target kind found => ⟨?_, Document.hasFlowNode_of_resolve? found, ?_⟩,
    fun e he name kind lost => ⟨?_, ?_⟩, fun c => stems_of_mem_connections⟩
  · exact between_of_stems (.reference hr source_ok target_ok)
  · rw [reported_reference h hr, Flow.referenceWarning?_of_ok source_ok target_ok]
    rfl
  · exact Document.eq_of_endpoint_eq_error lost fun id own => known r hr id (.inl own)
  · rw [reported_reference h hr, Flow.referenceWarning?_of_source lost]
    rfl
  · exact Document.eq_of_endpoint_eq_error lost fun id own => known r hr id (.inr own)
  · rw [reported_reference h hr, Flow.referenceWarning?_of_target source_ok lost]
    rfl
  · exact associations_of_found ids kinds he kind found
  · rw [reported_data h he, Flow.dataWarning?_of_found kind found]
    rfl
  · apply List.eq_nil_iff_forall_not_mem.2
    intro c hc
    simpa [lost] using resolve?_of_mem_associations ids kinds he kind hc
  · rw [reported_data h he, Flow.dataWarning?_of_lost kind lost]
    rfl

/-- References of all kinds: one that the log draws as well, one forward, and two with ends that
name nothing; and two data objects, of which one finds its element. -/
theorem ofText_answers_mixed :
    ∃ o g, Outline.ofText {} "@S\na -> c\nb <- x\n#d a\n#f z\nc <- b\n^ m @q -> r" = .ok o ∧
      ofText {} "@S\na -> c\nb <- x\n#d a\n#f z\nc <- b\n^ m @q -> r" = .ok g ∧
      o.references.map (·.line) = [2, 3, 6, 7] ∧
      g.connections.map (fun c => (c.source, c.target)) =
        [("s_a", "s_b"), ("s_b", "s_c"), ("s_data_d", "s_a"), ("s_a", "s_c")] ∧
      g.diagnostics.map (fun x => (x.line, x.message)) =
        [(3, "`x` does not name any element"),
          (5, "data object `f` refers to `z`, which is not declared"),
          (7, "`@q` does not name any element")] ∧ g.Answers o := by
  have read : Outline.ofText {} "@S\na -> c\nb <- x\n#d a\n#f z\nc <- b\n^ m @q -> r" = .ok _ := rfl
  obtain ⟨g, compiled, answers⟩ := ofText_answers {} _ _ read
  obtain rfl : ofOutline _ = g := Except.ok.inj compiled
  exact ⟨_, _, read, compiled, by decide +kernel, by decide +kernel, by decide +kernel, answers⟩

end ProcessGraph

end Swimlane
