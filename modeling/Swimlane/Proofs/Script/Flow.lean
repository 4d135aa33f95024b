import Swimlane.Proofs.Integrity
import Swimlane.Proofs.Script.Thread

/-!
# The flow of a script

The process graph of a script that is written down has the elements of the script in their order,
and its sequence flow is the flow of the script, link by link.

## Main statements

* `Script.targets_sublist`: at most one link leads to each position;
* `Script.elements_run`: the elements that the rows of a script declare;
* `ProcessGraph.ofText_print`: elements and sequence flow of a script that is written down.
-/

namespace Swimlane

open List (Forall₂)

namespace Script

/-! ## Targets -/

theorem linkFrom_sublist (before : Option Nat) (n : Nat) :
    ((linkFrom before n).map (·.target)).Sublist [n] := by
  cases before <;> simp [linkFrom]

theorem sublist_range'_append {l l' : List Nat} {n a b : Nat}
    (h : l.Sublist (List.range' n a)) (h' : l'.Sublist (List.range' (n + a) b)) :
    (l ++ l').Sublist (List.range' n (a + b)) := by
  rw [← List.range'_append_1]
  exact h.append h'

mutual

/-- Links lead to the positions of a statement in their order, to each at most once. -/
theorem Step.targets_sublist (before : Option Nat) (n : Nat) (s : Step) :
    ((s.links before n).map (·.target)).Sublist (List.range' n s.size) := by
  match s with
  | .leaf leaf =>
    cases leaf with
    | start label => exact List.nil_sublist _
    | _ => exact linkFrom_sublist before n
  | .gateway label arms =>
    rw [Step.links, List.map_append]
    exact sublist_range'_append (linkFrom_sublist before n) (armsTargets_sublist n (n + 1) arms)

theorem armsTargets_sublist (gateway n : Nat) (arms : List Arm) :
    ((armsLinks gateway n arms).map (·.target)).Sublist (List.range' n (armsSize arms)) := by
  match arms with
  | [] => exact List.nil_sublist _
  | .mk sign label task body :: arms =>
    simp only [armsLinks, armsSize, List.cons_append, List.map_cons, List.map_append]
    have first := bodyTargets_sublist (some n) (n + 1) body
    have rest := armsTargets_sublist gateway (n + 1 + bodySize body) arms
    have both := sublist_range'_append first rest
    have size : 1 + bodySize body + armsSize arms = bodySize body + armsSize arms + 1 := by omega
    rw [size, List.range'_succ]
    exact both.cons_cons n

theorem bodyTargets_sublist (before : Option Nat) (n : Nat) (steps : List Step) :
    ((bodyLinks before n steps).map (·.target)).Sublist (List.range' n (bodySize steps)) := by
  match steps with
  | [] => exact List.nil_sublist _
  | s :: steps =>
    rw [bodyLinks, List.map_append]
    exact sublist_range'_append (s.targets_sublist before n)
      (bodyTargets_sublist (s.exit n) (n + s.size) steps)

end

/-- Links lead to the positions of a script in their order, to each at most once. -/
theorem targets_sublist (f : Frontier) (n : Nat) (items : List Item) :
    ∃ size, ((flowFrom f n items).map (·.target)).Sublist (List.range' n size) := by
  induction items generalizing f n with
  | nil => exact ⟨0, List.nil_sublist _⟩
  | cons item items ih =>
    cases item with
    | lane name => exact ih _ n
    | flowBreak => exact ih _ n
    | step s =>
      obtain ⟨size, rest⟩ := ih (f.advance (s.exit n)) (n + s.size)
      refine ⟨s.size + size, ?_⟩
      rw [flowFrom, List.map_append]
      exact sublist_range'_append (s.targets_sublist f.before n) rest

/-! ## Elements -/

end Script

/-- Kind and label of an element, as they are published. -/
def Element.view (e : Element) : String × String := (e.kind.name, e.label)

theorem Element.Grows.view {e e' : Element} (h : e.Grows e') : e'.view = e.view := by
  rw [Element.view, Element.view, h.kind.name, h.label]

namespace Draft

theorem enterLane_references (d : Draft) (defaultLane : String) :
    (d.enterLane defaultLane).references = d.references := by
  unfold enterLane
  split
  · rfl
  · exact openLane_references d defaultLane

end Draft

namespace Script

open Draft

/-- What an entry states declares its element and refers to nothing. -/
theorem perform_entry (d : Draft) (defaultLane : String) {l : Line} (arrow : l.arrow = none)
    (entry : Entry) :
    (d.perform defaultLane l entry.statement).elements.map (·.view) =
        d.elements.map (·.view) ++ entry.node?.toList ∧
      (d.perform defaultLane l entry.statement).references = d.references := by
  have noArrow (lane : LaneHeader) (e : Element) : arrowOf lane l e = [] := by
    simp [arrowOf, arrow]
  have node (d : Draft) (kind : ElementKind) (label : String) :
      ((d.enterLane defaultLane).addNode (d.lane defaultLane) l label kind).elements.map (·.view) =
          d.elements.map (·.view) ++ [(kind.name, label)] ∧
        ((d.enterLane defaultLane).addNode (d.lane defaultLane) l label kind).references =
          d.references := by
    simp [noArrow, enterLane_elements, enterLane_references, Element.view, newElement]
  cases entry with
  | lane name =>
    simp [Entry.statement, perform, Entry.node?, openLane_elements, openLane_references]
  | flowBreak => simp [Entry.statement, perform, Entry.node?, log]
  | leaf leaf => exact node d leaf.kind leaf.label
  | gateway label => exact node d (.gateway []) label
  | branch sign label task =>
    simp only [Entry.statement, perform, performBranch]
    split
    · exact node (d.warn l _) .task task
    · next g outer _ =>
      have branch (w : Draft) :
          ((w.enterLane defaultLane).addBranch (w.lane defaultLane) l g outer sign label
              task).elements.map (·.view) = w.elements.map (·.view) ++ [("task", task)] ∧
            ((w.enterLane defaultLane).addBranch (w.lane defaultLane) l g outer sign label
              task).references = w.references := by
        rw [addBranch_elements, map_modify_addBranch fun _ _ h => h.view]
        simp [noArrow, enterLane_elements, enterLane_references, Element.view, newElement,
          ElementKind.name]
      split
      · exact branch (d.warn l _)
      · exact branch d

theorem elements_run (d : Draft) (defaultLane : String) {rows : List Row} {ls : List Line}
    (read : Forall₂ Row.ReadAs rows ls) :
    (d.run defaultLane ls).elements.map (·.view) =
        d.elements.map (·.view) ++ rows.filterMap (·.entry.node?) ∧
      (d.run defaultLane ls).references = d.references := by
  induction read generalizing d with
  | nil => simp [Draft.run]
  | @cons row l rows ls first _ ih =>
    obtain ⟨elements, references⟩ := ih (d.consume defaultLane l)
    rw [run_cons, elements, references, consume, first.statement]
    obtain ⟨here, unchanged⟩ :=
      perform_entry (d.closeGateways _) defaultLane first.arrow row.entry
    rw [here, unchanged, closeGateways_elements, closeGateways_references, List.append_assoc]
    cases hn : row.entry.node? <;> simp [hn]

end Script

/-! ## Whole scripts -/

/-- The position of the element with an id. -/
def Document.position? (doc : Document) (id : String) : Option Nat := (doc.find? id).map (·.order)

namespace Draft

/-- The id of an element of the flow leads back to its position. -/
theorem position?_idAt {D : Draft} (reg : D.Registered) {n : Nat} (h : D.HasNode (D.idAt n)) :
    D.document.position? (D.idAt n) = some n := by
  obtain ⟨e, he, id, -⟩ := h
  have taken : D.idAt n ∈ D.ids := reg.ids.mem_iff.2 <| by simp [← id, List.mem_map_of_mem he]
  have ne : D.idAt n ≠ "" := by
    intro empty
    simpa [empty] using (reg.wellFormed _ taken).underscore
  cases hn : D.elements[n]? with
  | none => exact absurd (by simp [idAt, hn]) ne
  | some e' =>
    have same : e'.id = D.idAt n := by simp [idAt, hn]
    have found := (find?_eq_some reg).2 ⟨List.mem_of_getElem? hn, same⟩
    rw [Document.position?, found, Option.map_some, reg.order_eq hn]

end Draft

namespace ProcessGraph

/-- Without data objects and references, the connections of a kind whose keys differ are the edges
of that kind which the events draw. -/
theorem connections_of_events {o : Outline} (references : o.references = [])
    (data : ∀ e ∈ o.document.elements, Outcome.ofData? o.document e = none)
    {kind : ConnectionKind}
    (nodup : (((Threads.run o.document {} o.events).filter (·.kind = kind)).map (·.key)).Nodup)
    {β : Type} (ends : Edge → β) (ends' : Connection → β)
    (h : ∀ i e, ends' (Edge.connection i e) = ends e) :
    ((ofOutline o).connections.filter (·.kind = kind)).map ends' =
      ((Threads.run o.document {} o.events).filter (·.kind = kind)).map ends := by
  have outcomes : Flow.outcomes o.document o.events o.references =
      Outcome.distinct [] ((Threads.run o.document {} o.events).map .edge) := by
    simp [Flow.outcomes, references, List.filterMap_eq_nil_iff.2 data]
  have connections : (ofOutline o).connections =
      Flow.connections (Outcome.distinct [] ((Threads.run o.document {} o.events).map .edge)) :=
    congrArg Flow.connections outcomes
  rw [connections, Flow.connections]
  refine (Flow.filter_connections (q := (·.kind = kind)) ends ends' (fun _ _ => rfl) h _
    id).trans ?_
  rw [Outcome.filter_distinct _ [] (by simp) nodup]

end ProcessGraph

namespace Script

open Draft

variable {script : List Item} {lines : List Line}

/-- The finished draft of a script has the elements of the script. -/
theorem elements_finished (defaultLane : String) (read : Forall₂ Row.ReadAs (rows script) lines) :
    (Outline.finished defaultLane lines).elements.map (·.view) = nodes script ∧
      (Outline.finished defaultLane lines).references = [] := by
  obtain ⟨elements, references⟩ := elements_run {} defaultLane read
  rw [Outline.finished, closeGateways_elements, closeGateways_references]
  exact ⟨elements, references⟩

/-- The log of a script draws the links of the script. -/
theorem sequence_finished (defaultLane : String) (read : Forall₂ Row.ReadAs (rows script) lines) :
    (Outline.finished defaultLane lines).sequence (Outline.finished defaultLane lines) =
      (flow defaultLane script).map (·.edge (Outline.finished defaultLane lines).idAt) := by
  have reg := Outline.registered_finished defaultLane lines
  have start : (Outline.finished defaultLane lines).AtTop (Outline.draft defaultLane [])
      defaultLane { lane := defaultLane } 0 [] :=
    { lane := laneNamed_name {} defaultLane
      length := rfl
      tracks := tracks_empty _ defaultLane
      sequence := rfl }
  have later := precedes_of_closes (closeGateways_closes (Outline.draft defaultLane lines)
    fun _ => true)
  have run := run_items defaultLane reg script read start later
  have finished : (Outline.draft defaultLane lines).close 0 =
      Outline.finished defaultLane lines := by
    simp [close, Outline.finished]
  simpa [finished, flow] using run

/-- The edges that the log draws, by the positions of their ends. -/
theorem ends_finished (defaultLane : String) (read : Forall₂ Row.ReadAs (rows script) lines) :
    let D := Outline.finished defaultLane lines
    (D.sequence D).map (fun e =>
        (D.document.position? e.source, D.document.position? e.target, e.label)) =
      (flow defaultLane script).map fun link =>
        (some link.source, some link.target, link.label) := by
  intro D
  have reg : D.Registered := Outline.registered_finished defaultLane lines
  have grounded : D.Grounded := Outline.grounded_finished defaultLane lines
  have drawn : D.sequence D = (flow defaultLane script).map (·.edge D.idAt) :=
    sequence_finished defaultLane read
  rw [drawn, List.map_map]
  refine List.map_congr_left fun link hlink => ?_
  have mem : link.edge D.idAt ∈ D.sequence D := drawn ▸ List.mem_map_of_mem hlink
  obtain ⟨-, source, target⟩ :=
    Threads.hasNode_of_mem_run grounded _ (List.mem_filter.1 mem).1
  simp only [Function.comp_apply, Link.edge] at source target ⊢
  rw [position?_idAt reg source, position?_idAt reg target]

/-- At most one edge leads to each element. -/
theorem keys_nodup (defaultLane : String) (read : Forall₂ Row.ReadAs (rows script) lines) :
    let D := Outline.finished defaultLane lines
    ((D.sequence D).map (·.key)).Nodup := by
  intro D
  have ends := congrArg (List.map (·.2.1)) (ends_finished defaultLane read)
  obtain ⟨size, targets⟩ := targets_sublist { lane := defaultLane } 0 script
  have nodup := ((List.nodup_range' 1).sublist targets).map
    (fun _ _ => Option.some.inj : Function.Injective some)
  refine List.Nodup.of_map (fun key => D.document.position? key.2.2) ?_
  simp only [List.map_map, Function.comp_def] at ends nodup ⊢
  exact ends ▸ nodup

/-- No entry declares a data object. -/
theorem Entry.name_ne_dataObject {entry : Entry} {node : String × String}
    (h : entry.node? = some node) : node.1 ≠ "dataObject" := by
  cases entry with
  | lane | flowBreak => simp [Entry.node?] at h
  | gateway | branch =>
    obtain rfl := Option.some.inj h
    simp [ElementKind.name]
  | leaf leaf =>
    obtain rfl := Option.some.inj h
    cases leaf with
    | message side text => cases side <;> simp [Leaf.kind, ElementKind.name]
    | _ => simp [Leaf.kind, ElementKind.name]

theorem ofData?_eq_none {e : Element} (h : e.view ∈ nodes script) (doc : Document) :
    Outcome.ofData? doc e = none := by
  obtain ⟨row, -, hn⟩ := List.mem_filterMap.1 h
  have name := Entry.name_ne_dataObject hn
  unfold Outcome.ofData?
  split
  · next hk => exact absurd (by simp [Element.view, hk, ElementKind.name]) name
  · rfl

section

variable (defaultLane : String) (read : Forall₂ Row.ReadAs (rows script) lines) {o : Outline}
  (document : o.document = (Outline.finished defaultLane lines).document)

include read document

/-- The graph of an outline of a script has the elements of the script. -/
theorem ofOutline_elements :
    (ProcessGraph.ofOutline o).document.elements.map (fun e => (e.kind.name, e.label)) =
      nodes script := by
  have reg := Outline.registered_finished defaultLane lines
  have shown : (ProcessGraph.ofOutline o).document.elements =
      (Outline.finished defaultLane lines).elements := by
    rw [← document_elements reg, ← document]
    rfl
  rw [shown]
  exact (elements_finished defaultLane read).1

/-- The sequence flow of the graph of an outline of a script is the flow of the script. -/
theorem ofOutline_connections (events : o.events = (Outline.finished defaultLane lines).events)
    (references : o.references = (Outline.finished defaultLane lines).references) :
    ((ProcessGraph.ofOutline o).connections.filter (·.kind = .sequenceFlow)).map (fun c =>
        ((ProcessGraph.ofOutline o).document.position? c.source,
          (ProcessGraph.ofOutline o).document.position? c.target, c.label)) =
      (flow defaultLane script).map fun link =>
        (some link.source, some link.target, link.label) := by
  have unreferenced : o.references = [] := references.trans (elements_finished defaultLane read).2
  have data (e : Element) (he : e ∈ o.document.elements) :
      Outcome.ofData? o.document e = none := by
    have listed : e.view ∈ nodes script := by
      rw [← ofOutline_elements defaultLane read document]
      exact List.mem_map_of_mem he
    exact ofData?_eq_none listed _
  have drawn : (Threads.run o.document {} o.events).filter (·.kind = .sequenceFlow) =
      (Outline.finished defaultLane lines).sequence (Outline.finished defaultLane lines) := by
    rw [document, events, Draft.sequence]
  have shown : (ProcessGraph.ofOutline o).document =
      (Outline.finished defaultLane lines).document := document
  let doc := (Outline.finished defaultLane lines).document
  rw [shown, ProcessGraph.connections_of_events unreferenced data
    (drawn ▸ keys_nodup defaultLane read)
    (fun e => (doc.position? e.source, doc.position? e.target, e.label)) _ fun _ _ => rfl, drawn]
  exact ends_finished defaultLane read

end

end Script

/-- A well-nested script that is written down, with any unit of indentation, is read as a graph of
its elements, in their order, whose sequence flow is the flow of the script: the same links, in the
same order and with the same labels. -/
theorem ProcessGraph.ofText_print (options : ReadOptions) (unit : IndentUnit)
    (script : List Script.Item) (hu : unit ≠ .spaces 0)
    (plain : ∀ row ∈ Script.rows script, row.entry.IsPlain)
    (deep : ∀ row ∈ Script.rows script, row.depth ≤ options.maxDepth) :
    ∃ g, ofText options (Script.print unit script) = .ok g ∧
      g.document.elements.map (fun e => (e.kind.name, e.label)) = Script.nodes script ∧
      (g.connections.filter (·.kind = .sequenceFlow)).map (fun c =>
          (g.document.position? c.source, g.document.position? c.target, c.label)) =
        (Script.flow options.defaultLane script).map fun link =>
          (some link.source, some link.target, link.label) := by
  obtain ⟨failure, read⟩ := Script.scan_print hu plain deep
  obtain ⟨o, ho⟩ : ∃ o, Outline.ofText options (Script.print unit script) = .ok o := by
    simp only [Outline.ofText, failure]
    exact ⟨_, rfl⟩
  obtain ⟨document, events, references⟩ := Outline.ofText_eq_ok ho
  exact ⟨ofOutline o, by rw [ofText, ho]; rfl,
    Script.ofOutline_elements options.defaultLane read document,
    Script.ofOutline_connections options.defaultLane read document events references⟩

/-- A gateway with a nested one in its positive branch and an end event in the other; the flow goes
on in another lane, until a break. -/
theorem ProcessGraph.ofText_print_nested :
    let script : List Script.Item :=
      [.lane "Shop", .step (.leaf (.start "start")),
        .step (.gateway "paid" [
          .mk .positive none "pack" [
            .gateway "big" [.mk .positive (some "crate") "pack" [], .mk .negative none "bag" []],
            .leaf (.message .send "parcel")],
          .mk .negative none "refund" [.leaf (.finish "end")]]),
        .lane "Carrier", .step (.leaf (.task "pack")), .flowBreak, .step (.gateway "lost" []),
        .step (.leaf (.finish "end"))]
    Script.print .tab script =
        "@Shop\n!start\n?paid\n\t+pack\n\t\t?big\n\t\t\t+|crate| pack\n\t\t\t-bag\n" ++
          "\t\tsend: parcel\n\t-refund\n\t\t!end\n@Carrier\npack\n---\n?lost\n!end" ∧
      ∃ g, ofText {} (Script.print .tab script) = .ok g ∧
        (g.connections.filter (·.kind = .sequenceFlow)).map (fun c =>
            (g.document.position? c.source, g.document.position? c.target, c.label)) =
          [(some 0, some 1, none), (some 1, some 2, some "Yes"), (some 2, some 3, none),
            (some 3, some 4, some "crate"), (some 3, some 5, some "No"), (some 4, some 6, none),
            (some 1, some 7, some "No"), (some 7, some 8, none), (some 6, some 9, none),
            (some 10, some 11, none)] := by
  intro script
  obtain ⟨g, ok, -, connections⟩ := ProcessGraph.ofText_print {} .tab script (by decide)
    (by decide +kernel) (by decide)
  exact ⟨by decide +kernel, g, ok, connections⟩

end Swimlane
