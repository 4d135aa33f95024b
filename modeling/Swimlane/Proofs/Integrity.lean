import Swimlane.Proofs.Flow.Numbered
import Swimlane.Proofs.Flow.Resolution

/-!
# Referential integrity

Whatever a process graph refers to by an id is an element of its document, of the kind that the
place asks for: the ends of connections, the tasks of branches, the elements that notes are attached
to.

## Main definitions

* `Outline.Stems`: what the edges of an outline stem from;
* `ProcessGraph.IsIntact`: what the ids in a process graph stand for.

## Main statements

* `Outline.mem_emitted_iff`, `ProcessGraph.stems_of_mem_connections`: where connections come from;
* `ProcessGraph.ofText_intact`: so it is in every process graph of a text.
-/

namespace Swimlane

/-! ## Where connections come from -/

/-- A data object comes to an edge if its element is found. -/
theorem Outcome.ofData?_eq_edge {doc : Document} {e : Element} {edge : Edge} :
    ofData? doc e = some (.edge edge) ↔ ∃ name target, e.kind = .dataObject (some name) ∧
      doc.resolve? name e.lane = some target ∧ edge = ⟨.dataAssociation, e.id, target, none⟩ := by
  constructor
  · intro h
    unfold ofData? at h
    split at h
    · next name kind =>
      split at h
      · next target found =>
        cases h
        exact ⟨name, target, kind, found, rfl⟩
      · cases h
    · cases h
  · rintro ⟨name, target, kind, found, rfl⟩
    simp [ofData?, kind, found]

/-- A reference comes to an edge if its ends are found. -/
theorem Outcome.ofReference_eq_edge {doc : Document} {r : Reference} {edge : Edge} :
    ofReference doc r = .edge edge ↔ ∃ source target, doc.endpoint r.lane r.source = .ok source ∧
      doc.endpoint r.lane r.target = .ok target ∧ edge = ⟨r.kind, source, target, r.label⟩ := by
  constructor
  · intro h
    unfold ofReference at h
    split at h
    · next source target source_ok target_ok =>
      cases h
      exact ⟨source, target, source_ok, target_ok, rfl⟩
    · cases h
    · cases h
  · rintro ⟨source, target, source_ok, target_ok, rfl⟩
    simp [ofReference, source_ok, target_ok]

/-- What the edges of an outline stem from: an event of its log, a data object whose element is
found, or a reference whose two ends are found. -/
inductive Outline.Stems (o : Outline) : Edge → Prop
  | event {before : List Event} {ev : Event} {e : Edge} (start : before ++ [ev] <+: o.events)
      (drawn : ((Threads.after o.document {} before).step o.document ev).2 = some e) : o.Stems e
  | data {x : Element} {name target : String} (mem : x ∈ o.document.elements)
      (kind : x.kind = .dataObject (some name))
      (found : o.document.resolve? name x.lane = some target) :
      o.Stems ⟨.dataAssociation, x.id, target, none⟩
  | reference {r : Reference} {source target : String} (mem : r ∈ o.references)
      (source_ok : o.document.endpoint r.lane r.source = .ok source)
      (target_ok : o.document.endpoint r.lane r.target = .ok target) :
      o.Stems ⟨r.kind, source, target, r.label⟩

theorem Outcome.edge?_eq_some {outcome : Outcome} {e : Edge} :
    outcome.edge? = some e ↔ outcome = .edge e := by
  cases outcome <;> simp [edge?]

/-- The edges that come up in an outline. -/
theorem Outline.mem_emitted_iff {o : Outline} {e : Edge} :
    e ∈ Flow.emitted o.document o.events o.references ↔ o.Stems e := by
  have associated : e ∈ Flow.associated o.document ↔
      ∃ x ∈ o.document.elements, Outcome.ofData? o.document x = some (.edge e) := by
    simp [Flow.associated, Outcome.edge?_eq_some]
  have referred : e ∈ Flow.referred o.document o.references ↔
      ∃ r ∈ o.references, Outcome.ofReference o.document r = .edge e := by
    simp [Flow.referred, Outcome.edge?_eq_some]
  rw [Flow.emitted, List.mem_append, List.mem_append, associated, referred]
  constructor
  · rintro ((drawn | ⟨x, mem, data⟩) | ⟨r, mem, reference⟩)
    · obtain ⟨before, ev, start, drawn⟩ := Threads.exists_step_of_mem_run drawn
      exact .event start drawn
    · obtain ⟨name, target, kind, found, rfl⟩ := Outcome.ofData?_eq_edge.1 data
      exact .data mem kind found
    · obtain ⟨source, target, source_ok, target_ok, rfl⟩ := Outcome.ofReference_eq_edge.1 reference
      exact .reference mem source_ok target_ok
  · intro h
    cases h with
    | event start drawn => exact .inl (.inl (Threads.mem_run_of_step start drawn))
    | data mem kind found =>
      exact .inl (.inr ⟨_, mem, Outcome.ofData?_eq_edge.2 ⟨_, _, kind, found, rfl⟩⟩)
    | reference mem source target =>
      exact .inr ⟨_, mem, Outcome.ofReference_eq_edge.2 ⟨_, _, source, target, rfl⟩⟩

theorem ProcessGraph.stems_of_mem_connections {o : Outline} {c : Connection}
    (h : c ∈ (ofOutline o).connections) : o.Stems c.edge := by
  have edge : c.edge ∈ (ofOutline o).connections.map (·.edge) := List.mem_map_of_mem h
  rw [ofOutline, Flow.map_edge_connections] at edge
  exact Outline.mem_emitted_iff.1 ((Edge.firsts_sublist _).subset edge)

/-! ## Ends of connections -/

/-- The id belongs to an element of the flow. -/
def Document.HasFlowNode (doc : Document) (id : String) : Prop :=
  ∃ e ∈ doc.laneElements, e.id = id ∧ e.isFlowNode = true

/-- The id belongs to a data object that names an element. -/
def Document.HasAssociatedData (doc : Document) (id : String) : Prop :=
  ∃ e ∈ doc.laneElements, e.id = id ∧ ∃ name, e.kind = .dataObject (some name)

theorem Draft.hasFlowNode_document {d : Draft} (h : d.Registered) {id : String} :
    d.document.HasFlowNode id ↔ d.HasNode id := by
  simp only [Document.HasFlowNode, HasNode, mem_laneElements h]

/-- A name stands for an element of the flow. -/
theorem Document.hasFlowNode_of_resolve? {doc : Document} {text lane id : String}
    (h : doc.resolve? text lane = some id) : doc.HasFlowNode id := by
  rw [resolve?_eq_referent?] at h
  obtain ⟨e, he, rfl⟩ := Option.map_eq_some_iff.1 h
  obtain ⟨mem, flow⟩ := (refers_iff.2 he).isFlowNode
  exact ⟨e, mem, rfl, flow⟩

/-- The edges of a log join elements of the flow. -/
theorem Threads.hasNode_of_mem_run {doc : Document} {d : Draft} (h : d.Grounded) :
    ∀ edge ∈ run doc {} d.events, edge.kind ≠ .dataAssociation ∧ d.HasNode edge.source ∧
      d.HasNode edge.target := by
  refine run_forall (P := d.HasNode) (fun v hv => absurd hv (not_holds_empty v)) ?_ ?_ ?_
  · exact fun v hv => h.events _ hv v (by simp [Event.ids])
  · exact fun gateway v hv => h.events _ hv v (by simp [Event.ids])
  · intro t ht ev hev edge draws
    have named := h.events ev hev
    cases draws with
    | declared id held => exact ⟨by simp, ht _ held, named id (by simp [Event.ids])⟩
    | branchOpened gateway task label =>
      exact ⟨by simp, named gateway (by simp [Event.ids]), named task (by simp [Event.ids])⟩
    | branchStep source id =>
      exact ⟨by simp, named source (by simp [Event.ids]), named id (by simp [Event.ids])⟩
    | messagePaired sender receiver label =>
      exact ⟨by simp, named sender (by simp [Event.ids]), named receiver (by simp [Event.ids])⟩

/-- An end of a reference stands for an element of the flow, if its id does. -/
theorem Document.hasFlowNode_of_endpoint {doc : Document} {lane id : String} {p : Endpoint}
    (h : doc.endpoint lane p = .ok id) (hp : ∀ x, p = .element x → doc.HasFlowNode x) :
    doc.HasFlowNode id := by
  cases p with
  | element x =>
    cases hf : doc.findLast? x with
    | none => simp [endpoint, hf] at h
    | some e =>
      simp only [endpoint, hf, Except.ok.injEq] at h
      rw [← h, Threads.id_of_findLast? hf]
      exact hp x rfl
  | named text =>
    cases hr : doc.resolve? text lane with
    | none => simp [endpoint, hr] at h
    | some x =>
      simp only [endpoint, hr, Except.ok.injEq] at h
      exact h ▸ hasFlowNode_of_resolve? hr

/-- The ends of an edge, whatever it stems from. -/
theorem Outline.Stems.hasEnds {o : Outline} {d : Draft} (hr : d.Registered) (hg : d.Grounded)
    (document : o.document = d.document) (events : o.events = d.events)
    (references : o.references = d.references) {e : Edge} (h : o.Stems e) :
    (e.kind ≠ .dataAssociation ∧ d.document.HasFlowNode e.source ∨
      e.kind = .dataAssociation ∧ d.document.HasAssociatedData e.source) ∧
    d.document.HasFlowNode e.target := by
  cases h with
  | event start drawn =>
    have run := Threads.mem_run_of_step start drawn
    rw [events] at run
    obtain ⟨isFlow, hs, ht⟩ := Threads.hasNode_of_mem_run hg e run
    rw [← Draft.hasFlowNode_document hr] at hs ht
    exact ⟨.inl ⟨isFlow, hs⟩, ht⟩
  | data mem kind found =>
    rw [document] at mem found
    exact ⟨.inr ⟨rfl, _, Document.mem_elements.1 mem, rfl, _, kind⟩,
      Document.hasFlowNode_of_resolve? found⟩
  | reference mem source_ok target_ok =>
    rw [document] at source_ok target_ok
    obtain ⟨isFlow, nodes⟩ := hg.references _ (references ▸ mem)
    simp only [← Draft.hasFlowNode_document hr] at nodes
    refine ⟨.inl ⟨isFlow, ?_⟩, ?_⟩
    · exact Document.hasFlowNode_of_endpoint source_ok fun x hx => nodes x (.inl hx)
    · exact Document.hasFlowNode_of_endpoint target_ok fun x hx => nodes x (.inr hx)

theorem ProcessGraph.hasEnds_of_mem_connections {o : Outline} {d : Draft} (hr : d.Registered)
    (hg : d.Grounded) (document : o.document = d.document) (events : o.events = d.events)
    (references : o.references = d.references) {c : Connection}
    (hc : c ∈ (ofOutline o).connections) :
    (c.kind ≠ .dataAssociation ∧ d.document.HasFlowNode c.source ∨
      c.kind = .dataAssociation ∧ d.document.HasAssociatedData c.source) ∧
    d.document.HasFlowNode c.target :=
  (stems_of_mem_connections hc).hasEnds hr hg document events references

/-! ## What notes are attached to -/

/-- The nearest element before another one that is not a note. -/
def Document.IsNearestSubject (doc : Document) (e x : Element) : Prop :=
  x ∈ doc.laneElements ∧ x.order < e.order ∧ x.kind.isNote = false ∧
    ∀ y ∈ doc.laneElements, x.order < y.order → y.order < e.order → y.kind.isNote = true

/-- The elements before another one are those of smaller order. -/
theorem mem_before_iff_order_lt {before after : List Element} {e x : Element}
    (h : (before ++ e :: after).Pairwise fun x y => x.order < y.order)
    (hx : x ∈ before ++ e :: after) : x ∈ before ↔ x.order < e.order := by
  have h' := List.pairwise_append.1 h
  constructor
  · exact fun hb => h'.2.2 x hb e List.mem_cons_self
  · intro lt
    obtain hb | hb := List.mem_append.1 hx
    · exact hb
    · obtain rfl | ha := List.mem_cons.1 hb
      · exact absurd lt (Nat.lt_irrefl _)
      · exact absurd (List.rel_of_pairwise_cons h'.2.1 ha) (Nat.lt_asymm lt)

/-- The last of the elements before another one that are not notes is the nearest such. -/
theorem Draft.getLast?_filter_eq_some {d : Draft} (h : d.Registered) {before after : List Element}
    {e x : Element} (split : d.elements = before ++ e :: after) :
    (before.filter fun x => !x.kind.isNote).getLast? = some x ↔
      d.document.IsNearestSubject e x := by
  have sorted := pairwise_order h
  have mem (y : Element) : y ∈ d.document.laneElements ↔ y ∈ before ++ e :: after := by
    rw [mem_laneElements h, split]
  have earlier (y : Element) (hy : y ∈ before ++ e :: after) :=
    mem_before_iff_order_lt (split ▸ sorted) hy
  rw [List.getLast?_filter, List.find?_eq_some_iff_append]
  constructor
  · rintro ⟨hx, as, bs, hrev, hnotes⟩
    have hbefore : before = bs.reverse ++ x :: as.reverse := by
      simpa using congrArg List.reverse hrev
    have hxb : x ∈ before := by simp [hbefore]
    refine ⟨(mem x).2 (by simp [hxb]), (earlier x (by simp [hxb])).1 hxb, by simpa using hx, ?_⟩
    intro y hy after_x before_e
    have hyb := (earlier y ((mem y).1 hy)).2 before_e
    have sorted' : before.Pairwise fun x y => x.order < y.order :=
      (List.pairwise_append.1 (split ▸ sorted)).1
    rw [hbefore] at hyb sorted'
    have not_first : y ∉ bs.reverse := fun hb =>
      absurd ((mem_before_iff_order_lt sorted' hyb).1 hb) (Nat.lt_asymm after_x)
    have not_same : y ≠ x := fun hyx => Nat.lt_irrefl _ (hyx ▸ after_x)
    have hya : y ∈ as := by simpa [not_same, not_first] using hyb
    simpa using hnotes y hya
  · rintro ⟨hx, order, kind, notes⟩
    have hxb := (earlier x ((mem x).1 hx)).2 order
    obtain ⟨as, bs, hbefore⟩ := List.append_of_mem hxb
    refine ⟨by simpa using kind, bs.reverse, as.reverse, by simp [hbefore], ?_⟩
    intro y hy
    have hyb : y ∈ before := by simp [hbefore, List.mem_reverse.1 hy]
    have sorted' : before.Pairwise fun x y => x.order < y.order :=
      (List.pairwise_append.1 (split ▸ sorted)).1
    rw [hbefore] at sorted'
    have after_x : x.order < y.order :=
      List.rel_of_pairwise_cons (List.pairwise_append.1 sorted').2.1 (List.mem_reverse.1 hy)
    have hy' : y ∈ before ++ e :: after := by simp [hyb]
    simpa using notes y ((mem y).2 hy') after_x ((earlier y hy').1 hyb)

section

variable {d : Draft} {e : Element} {attached : Option String}

theorem Draft.attached_eq_some_iff (h : d.Registered) (ha : d.Annotated)
    (he : e ∈ d.document.laneElements) (kind : e.kind = .note attached) (id : String) :
    attached = some id ↔ ∃ x, d.document.IsNearestSubject e x ∧ x.id = id := by
  obtain ⟨before, after, split⟩ := List.append_of_mem ((mem_laneElements h).1 he)
  rw [ha before after e attached split kind, Option.map_eq_some_iff]
  simp only [getLast?_filter_eq_some h split]

theorem Draft.attached_eq_none_iff (h : d.Registered) (ha : d.Annotated)
    (he : e ∈ d.document.laneElements) (kind : e.kind = .note attached) :
    attached = none ↔
      ∀ x ∈ d.document.laneElements, x.order < e.order → x.kind.isNote = true := by
  obtain ⟨before, after, split⟩ := List.append_of_mem ((mem_laneElements h).1 he)
  have earlier (x : Element) (hx : x ∈ d.elements) : x ∈ before ↔ x.order < e.order :=
    mem_before_iff_order_lt (split ▸ pairwise_order h) (split ▸ hx)
  rw [ha before after e attached split kind, Option.map_eq_none_iff, List.getLast?_eq_none_iff,
    List.filter_eq_nil_iff]
  constructor
  · intro notes x hx order
    simpa using notes x ((earlier x ((mem_laneElements h).1 hx)).2 order)
  · intro notes x hx
    have hx' : x ∈ d.elements := by simp [split, hx]
    simpa using notes x ((mem_laneElements h).2 hx') ((earlier x hx').1 hx)

end

/-! ## Process graphs -/

/-- Every id in a process graph stands for an element of the kind that its place asks for. -/
structure ProcessGraph.IsIntact (g : ProcessGraph) : Prop where
  flow : ∀ c ∈ g.connections, c.kind ≠ .dataAssociation →
    g.document.HasFlowNode c.source ∧ g.document.HasFlowNode c.target
  data : ∀ c ∈ g.connections, c.kind = .dataAssociation →
    g.document.HasAssociatedData c.source ∧ g.document.HasFlowNode c.target
  branchTasks : ∀ e ∈ g.document.laneElements, ∀ id ∈ e.branchTasks,
    ∃ x ∈ g.document.laneElements, x.id = id ∧ x.kind = .task ∧ x.lane = e.lane ∧ e.order < x.order
  branchTasks_nodup : (g.document.laneElements.flatMap Element.branchTasks).Nodup
  attached : ∀ e ∈ g.document.laneElements, ∀ attached, e.kind = .note attached → ∀ id,
    attached = some id ↔ ∃ x, g.document.IsNearestSubject e x ∧ x.id = id
  unattached : ∀ e ∈ g.document.laneElements, ∀ attached, e.kind = .note attached →
    (attached = none ↔ ∀ x ∈ g.document.laneElements, x.order < e.order → x.kind.isNote = true)

/-- Every process graph of a text is intact. -/
theorem ProcessGraph.ofText_intact (options : ReadOptions) (text : String) (g : ProcessGraph)
    (h : ofText options text = .ok g) : g.IsIntact := by
  obtain ⟨o, ho, rfl⟩ := ofText_eq_ok h
  obtain ⟨document, events, references⟩ := Outline.ofText_eq_ok ho
  generalize (scan options.maxDepth text).lines = lines at document events references
  have registered := Outline.registered_finished options.defaultLane lines
  have grounded := Outline.grounded_finished options.defaultLane lines
  have branching := Outline.branching_finished options.defaultLane lines
  have annotated := Outline.annotated_finished options.defaultLane lines
  generalize Outline.finished options.defaultLane lines = d at *
  have ends (c : Connection) (hc : c ∈ (ofOutline o).connections) :=
    hasEnds_of_mem_connections registered grounded document events references hc
  have shown : (ofOutline o).document = d.document := document
  refine
    { flow := ?_
      data := ?_
      branchTasks := ?_
      branchTasks_nodup := ?_
      attached := ?_
      unattached := ?_ }
  all_goals rw [shown]
  · intro c hc isFlow
    obtain ⟨⟨-, hs⟩ | ⟨isData, -⟩, ht⟩ := ends c hc
    · exact ⟨hs, ht⟩
    · exact absurd isData isFlow
  · intro c hc isData
    obtain ⟨⟨isFlow, -⟩ | ⟨-, hs⟩, ht⟩ := ends c hc
    · exact absurd isData isFlow
    · exact ⟨hs, ht⟩
  · simpa only [Draft.mem_laneElements registered] using branching.tasks
  · exact ((Draft.laneElements_perm registered).flatMap_right _).nodup_iff.2 branching.nodup
  · exact fun e he attached kind => Draft.attached_eq_some_iff registered annotated he kind
  · exact fun e he attached kind => Draft.attached_eq_none_iff registered annotated he kind

/-- A text whose graph has connections of all kinds, branches, and notes with and without an element
before them. -/
theorem ProcessGraph.ofText_intact_mixed :
    ∃ g, ofText {} "\"intro\n?ok\n  +yes\n  -no\nsend: m\nreceive: m\n#bill no\n\"paid" = .ok g ∧
      g.connections.map (fun c => (c.kind, c.source, c.target)) =
        [(.sequenceFlow, "default_ok", "default_yes"), (.sequenceFlow, "default_ok", "default_no"),
          (.sequenceFlow, "default_yes", "default_send_m"),
          (.sequenceFlow, "default_send_m", "default_receive_m"),
          (.messageFlow, "default_send_m", "default_receive_m"),
          (.dataAssociation, "default_data_bill", "default_no")] ∧
      g.document.elements.map (·.kind) =
        [.note none,
          .gateway [⟨.positive, "Yes", "default_yes"⟩, ⟨.negative, "No", "default_no"⟩],
          .task, .task, .message .send "m", .message .receive "m", .dataObject (some "no"),
          .note (some "default_data_bill")] ∧
      g.IsIntact := by
  have read :
      ofText {} "\"intro\n?ok\n  +yes\n  -no\nsend: m\nreceive: m\n#bill no\n\"paid" = .ok _ := rfl
  exact ⟨_, read, by decide +kernel, by decide +kernel, ofText_intact _ _ _ read⟩

end Swimlane
