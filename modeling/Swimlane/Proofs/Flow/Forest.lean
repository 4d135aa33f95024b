import Swimlane.Proofs.Integrity
import Swimlane.Proofs.Outline.Context
import Swimlane.Proofs.Outline.Log

/-!
# The flow of the log is a forest

Every edge of the sequence flow that the event log draws leads to the element that the event
introduces, from one that was introduced before it. So edges go forward in the order of declaration,
no two lead to the same element, and there are no cycles. Nothing leads to a start event or away
from an end event.

## Main definitions

* `Document.IsForest`: edges that form a forest in the order of declaration;
* `ProcessGraph.Flows`: the sequence flow of a process graph.

## Main statements

* `Threads.targets_sublist`: the log leads to what it introduces, in the same order;
* `Draft.Chronicled.ascends`: what was introduced before was declared before;
* `ProcessGraph.ofText_flow_forest`: the flow of every text.
-/

namespace Swimlane

open Relation (TransGen)

/-- Edges go forward in the order of declaration, no two lead to the same element, none to a start
event and none away from an end event. -/
structure Document.IsForest (doc : Document) (edges : List Edge) : Prop where
  targets : (edges.map (·.target)).Nodup
  ascends : ∀ edge ∈ edges, ∃ x ∈ doc.elements, ∃ y ∈ doc.elements,
    x.id = edge.source ∧ y.id = edge.target ∧ x.order < y.order ∧
      x.kind ≠ .endEvent ∧ y.kind ≠ .startEvent

/-- Sequence flow leads from an element to another. -/
def ProcessGraph.Flows (g : ProcessGraph) (source target : String) : Prop :=
  ∃ c ∈ g.connections, c.kind = .sequenceFlow ∧ c.source = source ∧ c.target = target

namespace Threads

variable {doc : Document} {t : Threads} {ev : Event} {edge : Edge}

/-- An edge of the flow leads to the element that its event introduces. -/
theorem Draws.introduced? (h : t.Draws ev edge) (flow : edge.kind = .sequenceFlow) :
    ev.introduced? = some edge.target := by
  cases h with
  | declared | branchOpened | branchStep => rfl
  | messagePaired => cases flow

/-- An edge of the flow starts where its event goes on, or at an element on the threads. -/
theorem Draws.source (h : t.Draws ev edge) (flow : edge.kind = .sequenceFlow) :
    edge.source ∈ ev.sources ∨ t.Holds edge.source := by
  cases h with
  | declared id held => exact .inr held
  | branchOpened | branchStep => exact .inl (by simp [Event.sources])
  | messagePaired => cases flow

/-- The flow leads to elements in the order in which the log introduces them. -/
theorem targets_sublist (events : List Event) :
    (((run doc t events).filter (·.kind = .sequenceFlow)).map (·.target)).Sublist
      (events.filterMap Event.introduced?) := by
  induction events generalizing t with
  | nil => exact .slnil
  | cons ev events ih =>
    rw [run, List.filter_append, List.map_append, List.filterMap_cons]
    cases drawn : (t.step doc ev).2 with
    | none =>
      cases ev.introduced? with
      | none => exact ih
      | some id => exact ih.cons id
    | some edge =>
      by_cases flow : edge.kind = .sequenceFlow
      · rw [(draws_step drawn).introduced? flow]
        simpa [flow] using ih
      · cases ev.introduced? with
        | none => simpa [flow] using ih
        | some id => simpa [flow] using ih.cons id

end Threads

namespace Draft

variable {d : Draft}

/-- What the log has introduced before an element was declared before it. -/
theorem Chronicled.ascends (hc : d.Chronicled) (hr : d.Registered) {before : List Event}
    {ev : Event} (h : before ++ [ev] <+: d.events) {source target : String}
    (introduces : ev.introduced? = some target)
    (earlier : source ∈ before.filterMap Event.introduced?) :
    ∃ x ∈ d.elements, ∃ y ∈ d.elements, x.id = source ∧ y.id = target ∧ x.order < y.order := by
  obtain ⟨rest, split⟩ := h
  have ids : before.filterMap Event.introduced? ++ target :: rest.filterMap Event.introduced? =
      (d.elements.filter (·.isFlowNode)).map (·.id) := by
    rw [← filterMap_flowId?, ← hc.introduced, ← split]
    simp [introduces]
  have order := (pairwise_order hr).sublist (List.filter_sublist (p := (·.isFlowNode)))
  have mem {e : Element} (he : e ∈ d.elements.filter (·.isFlowNode)) := List.mem_of_mem_filter he
  generalize d.elements.filter (·.isFlowNode) = nodes at ids order mem
  obtain ⟨first, last, rfl, sources, targets⟩ := List.map_eq_append_iff.1 ids.symm
  obtain ⟨y, last, rfl, rfl, -⟩ := List.map_eq_cons_iff.1 targets
  rw [← sources] at earlier
  obtain ⟨x, hx, rfl⟩ := List.mem_map.1 earlier
  exact ⟨x, mem (by simp [hx]), y, mem (by simp), rfl, rfl,
    (List.pairwise_append.1 order).2.2 x hx y (by simp)⟩

section

variable {doc : Document} {before : List Event} {ev : Event} {edge : Edge}

/-- The flow starts at elements that the log has introduced before. -/
theorem Chronicled.source_introduced (hc : d.Chronicled) (h : before ++ [ev] <+: d.events)
    (draws : (Threads.after doc {} before).Draws ev edge) (flow : edge.kind = .sequenceFlow) :
    edge.source ∈ before.filterMap Event.introduced? := by
  rcases draws.source flow with named | held
  · exact hc.sources before ev h _ named
  · obtain ⟨ev', hev', put⟩ := Threads.puts_of_holds_after held
    generalize edge.source = source at put ⊢
    obtain ⟨log, rest, rfl⟩ := List.append_of_mem hev'
    cases put with
    | declared => simp [Event.introduced?]
    | gatewayClosed gateway =>
      have start : log ++ [.gatewayClosed gateway (some source)] <+: d.events :=
        List.IsPrefix.trans ⟨rest ++ [ev], by simp⟩ h
      have introduced := hc.sources log _ start source (by simp [Event.sources])
      rw [List.filterMap_append]
      exact List.mem_append_left _ introduced

/-- The flow starts at no end event. -/
theorem Ongoing.source_goesOn (ho : d.Ongoing) (hr : d.Registered)
    (h : before ++ [ev] <+: d.events)
    (draws : (Threads.after d.document {} before).Draws ev edge)
    (flow : edge.kind = .sequenceFlow) : d.GoesOn edge.source := by
  rcases draws.source flow with named | held
  · exact ho.events ev (h.subset (by simp)) _ named
  · obtain ⟨ev', hev', put⟩ := Threads.puts_of_holds_after held
    generalize edge.source = source at put ⊢
    cases put with
    | @declared e found kind => exact ⟨e, ((findLast?_eq_some hr).1 found).1, rfl, kind⟩
    | gatewayClosed gateway =>
      have closed : .gatewayClosed gateway (some source) ∈ d.events := h.subset (by simp [hev'])
      exact ho.events _ closed source (by simp [Event.sources])

end

/-- A branch opens with a task. -/
theorem Located.task_of_branchOpened {ctx : String → Context} (located : d.Located d ctx)
    (hb : d.Branching) {gateway task label : String}
    (h : .branchOpened gateway task label ∈ d.events) :
    ∃ e ∈ d.elements, e.id = task ∧ e.kind = .task := by
  obtain ⟨k, ⟨e, he, -, branch, place, rfl, -⟩, -⟩ := located.events _ h
  obtain ⟨x, hx, id, kind, -⟩ :=
    hb.tasks e he branch.task (List.mem_map.2 ⟨branch, List.mem_of_getElem? place, rfl⟩)
  exact ⟨x, hx, id, kind⟩

theorem Chronicled.isForest (hc : d.Chronicled) (hr : d.Registered) (ho : d.Ongoing)
    (hb : d.Branching) {ctx : String → Context} (located : d.Located d ctx) :
    d.document.IsForest
      ((Threads.run d.document {} d.events).filter (·.kind = .sequenceFlow)) := by
  refine ⟨(hc.introduced_nodup hr).sublist (Threads.targets_sublist d.events), ?_⟩
  intro edge hedge
  obtain ⟨hedge, flow⟩ := List.mem_filter.1 hedge
  have flow : edge.kind = .sequenceFlow := by simpa using flow
  obtain ⟨before, ev, start, drawn⟩ := Threads.exists_step_of_mem_run hedge
  have draws := Threads.draws_step drawn
  obtain ⟨x, hx, y, hy, source, target, order⟩ :=
    hc.ascends hr start (draws.introduced? flow) (hc.source_introduced start draws flow)
  have only {e e' : Element} (he : e ∈ d.elements) (he' : e' ∈ d.elements) (same : e.id = e'.id) :
      e = e' := List.inj_on_of_nodup_map hr.elementIds_nodup he he' same
  rw [document_elements hr]
  refine ⟨x, hx, y, hy, source, target, order, ?_, ?_⟩
  · obtain ⟨e, he, same, kind⟩ := ho.source_goesOn hr start draws flow
    exact only he hx (same.trans source.symm) ▸ kind
  · rcases Threads.kind_ne_startEvent_of_step drawn flow with
      ⟨gateway, label, rfl⟩ | ⟨e, found, kind⟩
    · have opened : .branchOpened gateway edge.target label ∈ d.events := start.subset (by simp)
      obtain ⟨e, he, same, kind⟩ := located.task_of_branchOpened hb opened
      rw [← only he hy (same.trans target.symm), kind]
      simp
    · obtain ⟨he, same⟩ := (findLast?_eq_some hr).1 found
      exact only he hy (same.trans target.symm) ▸ kind

/-! ## References -/

/-- Only arrows are references of the sequence flow. -/
theorem arrowOf_eq_nil {lane : LaneHeader} {l : Line} {e : Element} (h : l.arrow = none) :
    arrowOf lane l e = [] := by
  simp [arrowOf, h]

theorem Prepares.references_kind {l : Line} {d' : Draft} (h : Prepares l d d')
    (hd : ∀ r ∈ d.references, r.kind ≠ .sequenceFlow) :
    ∀ r ∈ d'.references, r.kind ≠ .sequenceFlow := by
  cases h with
  | warned | named | broken => exact hd
  | closed h => cases h <;> exact hd
  | entered name => rwa [openLane_references]
  | connected =>
    intro r hr
    rcases List.mem_append.1 hr with old | new
    · exact hd r old
    · obtain rfl := List.mem_singleton.1 new
      simp

theorem Declares.references_kind {l : Line} {d' : Draft} (h : Declares l d d')
    (arrow : l.arrow = none) (hd : ∀ r ∈ d.references, r.kind ≠ .sequenceFlow) :
    ∀ r ∈ d'.references, r.kind ≠ .sequenceFlow := by
  cases h with
  | node => simpa [arrowOf_eq_nil arrow] using hd
  | branch => simpa [arrowOf_eq_nil arrow] using hd
  | aside => exact hd

end Draft

theorem Outline.references_kind_finished (defaultLane : String) {lines : List Line}
    (arrows : ∀ l ∈ lines, l.arrow = none) :
    ∀ r ∈ (finished defaultLane lines).references, r.kind ≠ .sequenceFlow := by
  rw [finished, Draft.closeGateways_references]
  exact draft_invariant (P := fun d => ∀ r ∈ d.references, r.kind ≠ .sequenceFlow) defaultLane
    (by simp) (fun _ _ _ _ h => h.references_kind)
    fun l hl _ _ h => h.references_kind (arrows l hl)

/-! ## Cycles -/

/-- Where every step goes forward in the order of elements, so does every path. -/
theorem Document.ascends_of_transGen {doc : Document} (nodup : (doc.elements.map (·.id)).Nodup)
    {r : String → String → Prop}
    (step : ∀ a b, r a b →
      ∃ x ∈ doc.elements, ∃ y ∈ doc.elements, x.id = a ∧ y.id = b ∧ x.order < y.order)
    {a b : String} (h : TransGen r a b) :
    ∃ x ∈ doc.elements, ∃ y ∈ doc.elements, x.id = a ∧ y.id = b ∧ x.order < y.order := by
  induction h with
  | single first => exact step a _ first
  | tail _ last ih =>
    obtain ⟨x, hx, y, hy, source, rfl, order⟩ := ih
    obtain ⟨y', hy', z, hz, same, target, order'⟩ := step _ _ last
    obtain rfl := List.inj_on_of_nodup_map nodup hy' hy same
    exact ⟨x, hx, z, hz, source, target, order.trans order'⟩

theorem Outline.Stems.mem_run {o : Outline}
    (references : ∀ r ∈ o.references, r.kind ≠ .sequenceFlow) {e : Edge} (h : o.Stems e)
    (flow : e.kind = .sequenceFlow) : e ∈ Threads.run o.document {} o.events := by
  cases h with
  | event start drawn => exact Threads.mem_run_of_step start drawn
  | data => cases flow
  | reference mem => exact absurd flow (references _ mem)

namespace ProcessGraph

/-- Without references of its kind, the sequence flow is that of the log. -/
theorem mem_run_of_flows {o : Outline} (references : ∀ r ∈ o.references, r.kind ≠ .sequenceFlow)
    {a b : String} (h : (ofOutline o).Flows a b) :
    ∃ edge ∈ (Threads.run o.document {} o.events).filter (·.kind = .sequenceFlow),
      edge.source = a ∧ edge.target = b := by
  obtain ⟨c, hc, kind, rfl, rfl⟩ := h
  have run := (stems_of_mem_connections hc).mem_run references kind
  exact ⟨c.edge, List.mem_filter.2 ⟨run, decide_eq_true kind⟩, rfl, rfl⟩

/-- The sequence flow that the log of a text draws is a forest in the order of declaration. Where no
line has an arrow there is no other sequence flow, so it has no cycles, nothing comes before a start
event and nothing behind an end event. -/
theorem ofText_flow_forest (options : ReadOptions) (text : String) (o : Outline)
    (h : Outline.ofText options text = .ok o) :
    o.document.IsForest
        ((Threads.run o.document {} o.events).filter (·.kind = .sequenceFlow)) ∧
      ((∀ l ∈ (scan options.maxDepth text).lines, l.arrow = none) →
        ∃ g, ofText options text = .ok g ∧ (∀ id, ¬ TransGen g.Flows id id) ∧
          ∀ e ∈ g.document.elements, (e.kind = .startEvent → ∀ id, ¬ g.Flows id e.id) ∧
            (e.kind = .endEvent → ∀ id, ¬ g.Flows e.id id)) := by
  obtain ⟨document, events, references⟩ := Outline.ofText_eq_ok h
  have registered :=
    Outline.registered_finished options.defaultLane (scan options.maxDepth text).lines
  have located := Outline.located_finished options.defaultLane
    (scan_numbers_pairwise options.maxDepth text) _ fun _ => Outline.contextOf_id
  have forest := (Outline.chronicled_finished ..).isForest registered
    (Outline.ongoing_finished ..) (Outline.branching_finished ..) located
  rw [← document, ← events] at forest
  refine ⟨forest, fun arrows => ⟨ofOutline o, by simp [ofText, h, Except.map], ?_⟩⟩
  have nodup : (o.document.elements.map (·.id)).Nodup := by
    rw [document, Draft.document_elements registered]
    exact registered.elementIds_nodup
  have flow {a b : String} (flows : (ofOutline o).Flows a b) :=
    mem_run_of_flows (references ▸ Outline.references_kind_finished _ arrows) flows
  refine ⟨fun id cycle => ?_, fun e he => ⟨fun start id flows => ?_, fun ends id flows => ?_⟩⟩
  · obtain ⟨x, hx, y, hy, source, target, order⟩ :=
      Document.ascends_of_transGen nodup (fun a b flows => by
        obtain ⟨edge, hedge, rfl, rfl⟩ := flow flows
        obtain ⟨x, hx, y, hy, source, target, order, -⟩ := forest.ascends edge hedge
        exact ⟨x, hx, y, hy, source, target, order⟩) cycle
    obtain rfl := List.inj_on_of_nodup_map nodup hx hy (source.trans target.symm)
    exact Nat.lt_irrefl _ order
  · obtain ⟨edge, hedge, -, target⟩ := flow flows
    obtain ⟨-, -, y, hy, -, same, -, -, kind⟩ := forest.ascends edge hedge
    obtain rfl := List.inj_on_of_nodup_map nodup hy he (same.trans target)
    exact kind start
  · obtain ⟨edge, hedge, source, -⟩ := flow flows
    obtain ⟨x, hx, -, -, same, -, -, kind, -⟩ := forest.ascends edge hedge
    obtain rfl := List.inj_on_of_nodup_map nodup hx he (same.trans source)
    exact kind ends

/-- Nothing leads to a start event behind a task, and nothing goes on behind an end event inside of
a branch. -/
theorem ofText_flow_forest_started :
    ∃ o, Outline.ofText {} "a\n!start\nz\n?ok\n  +x\n    !done\n  -y\nb" = .ok o ∧
      (Threads.run o.document {} o.events).map (fun edge => (edge.source, edge.target)) =
        [("default_start", "default_z"), ("default_z", "default_ok"),
          ("default_ok", "default_x"), ("default_x", "default_done"),
          ("default_ok", "default_y")] ∧
      o.document.IsForest
        ((Threads.run o.document {} o.events).filter (·.kind = .sequenceFlow)) ∧
      (∀ l ∈ (scan 64 "a\n!start\nz\n?ok\n  +x\n    !done\n  -y\nb").lines, l.arrow = none) ∧
      ∃ g, ofText {} "a\n!start\nz\n?ok\n  +x\n    !done\n  -y\nb" = .ok g ∧
        (∀ id, ¬ TransGen g.Flows id id) ∧
        ∀ e ∈ g.document.elements, (e.kind = .startEvent → ∀ id, ¬ g.Flows id e.id) ∧
          (e.kind = .endEvent → ∀ id, ¬ g.Flows e.id id) := by
  have read : Outline.ofText {} "a\n!start\nz\n?ok\n  +x\n    !done\n  -y\nb" = .ok _ := rfl
  have arrows : ∀ l ∈ (scan 64 "a\n!start\nz\n?ok\n  +x\n    !done\n  -y\nb").lines,
      l.arrow = none := by decide +kernel
  have forest := ofText_flow_forest {} _ _ read
  exact ⟨_, read, by decide +kernel, forest.1, arrows, forest.2 arrows⟩

end ProcessGraph

end Swimlane
