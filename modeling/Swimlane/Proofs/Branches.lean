import Swimlane.Proofs.Coverage
import Swimlane.Proofs.Flow.Distinct
import Swimlane.Proofs.Flow.Forest
import Swimlane.Proofs.Outline.Bracket
import Swimlane.Proofs.Outline.Branched

/-!
# Branches and their edges

What a gateway says of its branches, what the log says of them and what the graph says of them is
the same: the same tasks with the same labels, in the same order. The label of a branch is told by
its line, whatever arrows name the same ends.

## Main definitions

* `Element.leadsTo`: the edges from a gateway to the tasks of its branches;
* `Outline.BranchesAgree`: the branches of an outline, its log and its graph agree.

## Main statements

* `Threads.filter_leadsTo_run`: the edges that a log draws to the tasks of a gateway;
* `Outline.ofText_branchesAgree`: the branches of every text.
-/

namespace Swimlane

/-! ## Edges of branches -/

/-- The edge that opens a branch. -/
def Edge.ofBranch (gateway : String) (branch : String × String) : Edge :=
  { kind := .sequenceFlow, source := gateway, target := branch.1, label := some branch.2 }

/-- An edge of the flow that leads from a gateway to the task of one of its branches. -/
def Element.leadsTo (x : Element) (e : Edge) : Bool :=
  e.kind = .sequenceFlow && e.source = x.id && e.target ∈ x.branchTasks

theorem Element.leadsTo_eq_true {x : Element} {e : Edge} :
    x.leadsTo e = true ↔
      e.kind = .sequenceFlow ∧ e.source = x.id ∧ e.target ∈ x.branchTasks := by
  simp [leadsTo, and_assoc]

theorem Element.leadsTo_congr (x : Element) (e e' : Edge) (h : e.key = e'.key) :
    x.leadsTo e = x.leadsTo e' := by
  simp only [Edge.key, Prod.mk.injEq] at h
  simp [leadsTo, h]

namespace Threads

variable {doc : Document} {t : Threads} {x : Element}

/-- An event draws an edge to the task of a branch just when it opens the branch, provided that
nothing else introduces the task. -/
theorem filter_leadsTo_step {ev : Event}
    (opens : ∀ task ∈ x.branchTasks, ev.introduced? = some task →
      ∃ label, ev = .branchOpened x.id task label)
    (tasks : ∀ task label, ev = .branchOpened x.id task label → task ∈ x.branchTasks) :
    (t.step doc ev).2.toList.filter x.leadsTo =
      (ev.branchOf? x.id).toList.map (Edge.ofBranch x.id) := by
  have drawn {edge : Edge} (h : edge ∈ (t.step doc ev).2.toList) (own : x.leadsTo edge = true) :
      ∃ label, ev = .branchOpened x.id edge.target label := by
    obtain ⟨flow, -, task⟩ := Element.leadsTo_eq_true.1 own
    exact opens _ task ((draws_step (Option.mem_toList.1 h)).introduced? flow)
  by_cases h : ∃ task label, ev = .branchOpened x.id task label
  · obtain ⟨task, label, rfl⟩ := h
    have own : x.leadsTo (Edge.ofBranch x.id (task, label)) = true :=
      Element.leadsTo_eq_true.2 ⟨rfl, rfl, tasks task label rfl⟩
    have opened : (Event.branchOpened x.id task label).branchOf? x.id = some (task, label) :=
      Event.branchOf?_eq_some.2 rfl
    rw [opened]
    exact List.filter_eq_self.2 fun edge hedge => List.mem_singleton.1 hedge ▸ own
  · have silent : ev.branchOf? x.id = none :=
      Option.eq_none_iff_forall_not_mem.2 fun b hb => h ⟨_, _, Event.branchOf?_eq_some.1 hb⟩
    rw [silent, List.filter_eq_nil_iff.2 fun edge hedge own => h ⟨_, drawn hedge own⟩]
    rfl

/-- A log draws the edges to the tasks of a gateway in the order in which it opens the branches. -/
theorem filter_leadsTo_run {events : List Event}
    (opens : ∀ ev ∈ events, ∀ task ∈ x.branchTasks, ev.introduced? = some task →
      ∃ label, ev = .branchOpened x.id task label)
    (tasks : ∀ task label, .branchOpened x.id task label ∈ events → task ∈ x.branchTasks) :
    (run doc t events).filter x.leadsTo =
      (events.filterMap (Event.branchOf? x.id)).map (Edge.ofBranch x.id) := by
  induction events generalizing t with
  | nil => rfl
  | cons ev events ih =>
    have first : (t.step doc ev).2.toList.filter x.leadsTo =
        (ev.branchOf? x.id).toList.map (Edge.ofBranch x.id) :=
      filter_leadsTo_step (opens ev List.mem_cons_self) fun task label h =>
        tasks task label (h ▸ List.mem_cons_self)
    have rest := ih (t := (t.step doc ev).1) (fun ev hev => opens ev (List.mem_cons_of_mem _ hev))
      fun task label h => tasks task label (List.mem_cons_of_mem _ h)
    rw [run, List.filter_append, first, rest, ← List.map_append]
    cases h : ev.branchOf? x.id <;> simp [h]

end Threads

namespace Draft

variable {lines : List Line} {d : Draft} {x : Element}

/-- Nothing but the branch of a task introduces it. -/
theorem Branched.eq_branchOpened (hd : d.Branched lines) (hr : d.Registered) (hc : d.Chronicled)
    (hx : x ∈ d.elements) {ev : Event} (hev : ev ∈ d.events) {task : String}
    (ht : task ∈ x.branchTasks) (h : ev.introduced? = some task) :
    ∃ label, ev = .branchOpened x.id task label := by
  obtain ⟨b, hb, rfl⟩ := List.mem_map.1 ht
  have opened := (hd.branchOpened_mem_iff hx).2 ⟨b, hb, rfl, rfl⟩
  exact ⟨b.label, Event.eq_of_introduced (hc.introduced_nodup hr) hev opened h rfl⟩

/-- The edges from a gateway to the tasks of its branches, in the flow that the log draws. -/
theorem Branched.filter_leadsTo_run (hd : d.Branched lines) (hr : d.Registered)
    (hc : d.Chronicled) (hx : x ∈ d.elements) (doc : Document) :
    (Threads.run doc {} d.events).filter x.leadsTo =
      x.branches.map fun b => Edge.ofBranch x.id (b.task, b.label) := by
  rw [Threads.filter_leadsTo_run (fun ev hev task ht h => hd.eq_branchOpened hr hc hx hev ht h)
      fun task label h => ?_, hd.events x hx, List.map_map]
  · rfl
  · obtain ⟨b, hb, rfl, -⟩ := (hd.branchOpened_mem_iff hx).1 h
    exact List.mem_map_of_mem hb

/-- Later edges between a gateway and a task of its branches do not count. -/
theorem Branched.filter_leadsTo_outcomes (hd : d.Branched lines) (hr : d.Registered)
    (hc : d.Chronicled) (hb : d.Branching) (hx : x ∈ d.elements) (doc : Document)
    (references : List Reference) :
    ((Flow.outcomes doc d.events references).filterMap Outcome.edge?).filter x.leadsTo =
      x.branches.map fun b => Edge.ofBranch x.id (b.task, b.label) := by
  have drawn := hd.filter_leadsTo_run hr hc hx doc
  have tasks : x.branchTasks.Nodup := (List.nodup_flatMap.1 hb.nodup).1 x hx
  have keys : ((Threads.run doc {} d.events).filter x.leadsTo).map (·.key) =
      x.branchTasks.map fun task => (.sequenceFlow, x.id, task) := by
    rw [drawn, Element.branchTasks, List.map_map, List.map_map]
    rfl
  rw [Flow.outcomes, List.append_assoc, ← drawn]
  -- The edges of the log come first. A later one with such ends has the key of one of them.
  refine Outcome.filter_distinct_append x.leadsTo_congr _ _ [] (by simp) ?_ fun e _ own => .inr ?_
  · rw [keys]
    exact tasks.map fun task task' same => by simpa using same
  · obtain ⟨flow, source, task⟩ := Element.leadsTo_eq_true.1 own
    rw [keys]
    exact List.mem_map.2 ⟨e.target, task, by rw [Edge.key, flow, source]⟩

end Draft

/-! ## Texts -/

/-- An element on the line of a branch opens a branch, or it is declared with a warning. -/
theorem Draft.Account.opened_or_orphan {l : Line} {named : Option String} {events : List Event}
    {s : Statement} {y : Records} (h : Account l named events s y) {sign : Sign}
    (branch : s = .flowBreak ∨ s = .empty ∨ ∃ label text, s = .branch sign label text)
    {id : String} (own : id ∈ y.ids) :
    ((∃ gateway label, .branchOpened gateway id label ∈ events) ∧
        ∀ x ∈ y.diagnostics, x.kind ≠ .orphanBranch) ∨
      .declared id ∈ events ∧ ∃ x ∈ y.diagnostics, x.kind = .orphanBranch := by
  rcases branch with rfl | rfl | ⟨label, text, rfl⟩
  · cases h
    cases own
  · cases h
    cases own
  · cases h with
    | orphan lane e warned logged =>
      obtain rfl := List.mem_singleton.1 own
      exact .inr ⟨logged, warned⟩
    | branch lane e gateway warned logged =>
      obtain rfl := List.mem_singleton.1 own
      exact .inl ⟨⟨gateway, _, logged⟩, warned⟩

namespace Outline

/-- The branches of an outline, its log and its graph agree. For every element, the branches are
those that the log opens and those to which connections lead, with the same labels and in the same
order. Their labels are those that the text says. What stands on the line of a branch is a task of
one gateway, or there is a warning about it. -/
structure BranchesAgree (o : Outline) (ps : List Text.Piece) : Prop where
  events : ∀ x ∈ o.document.elements,
    o.events.filterMap (Event.branchOf? x.id) = x.branches.map fun b => (b.task, b.label)
  connections : ∀ x ∈ o.document.elements,
    ((ProcessGraph.ofOutline o).connections.filter fun c =>
        c.kind = .sequenceFlow && c.source = x.id && c.target ∈ x.branchTasks).map
      (fun c => (c.target, c.label)) = x.branches.map fun b => (b.task, some b.label)
  labels : ∀ x ∈ o.document.elements, ∀ b ∈ x.branches,
    ∃ e ∈ o.document.elements, e.id = b.task ∧ ∃ p ∈ ps, p.number = e.line ∧
      ∃ payload, p.Opens b.sign payload ∧ Branch.IsLabelled payload.toList b.sign b.label
  tasks : ∀ e ∈ o.document.elements, ∀ p ∈ ps, p.number = e.line →
    (∃ sign payload, p.Opens sign payload) →
      Xor (∃! x : Element, x ∈ o.document.elements ∧ e.id ∈ x.branchTasks)
        (∃ x ∈ (ProcessGraph.ofOutline o).diagnostics, x.line = e.line ∧ x.kind = .orphanBranch)

variable {options : ReadOptions} {text : String} {o : Outline}

/-- What stands on the line of a branch, in the log and among the warnings. -/
theorem opened_or_orphan (h : ofText options text = .ok o) {e : Element}
    (he : e ∈ o.document.elements) {p : Text.Piece} (hp : p ∈ Text.pieces text.toList)
    (number : p.number = e.line) {sign : Sign} {payload : String} (opens : p.Opens sign payload) :
    ((∃ gateway label, .branchOpened gateway e.id label ∈ o.events) ∧
        ∀ x ∈ (ProcessGraph.ofOutline o).diagnostics, x.line = e.line → x.kind ≠ .orphanBranch) ∨
      .declared e.id ∈ o.events ∧ ∃ x ∈ (ProcessGraph.ofOutline o).diagnostics,
        x.line = e.line ∧ x.kind = .orphanBranch := by
  have written : p.isWritten = true := by
    obtain ⟨c, rest, -, starts, -⟩ := Text.Piece.opens_iff.1 opens
    simp [Text.Piece.isWritten, starts]
  obtain ⟨l, hl, line⟩ := (scan_isTwoPass options.maxDepth text).exists_line
    (exists_ofText_eq_ok.1 ⟨o, h⟩) (List.mem_filter.2 ⟨hp, written⟩)
  obtain ⟨named, y, account, holds, -⟩ := account_of_mem h hl
  have here : l.number = e.line := (congrArg Line.number line).trans number
  have own : e.id ∈ y.ids := by
    rw [← holds.ids]
    exact List.mem_map_of_mem (List.mem_filter.2 ⟨he, by simp [here]⟩)
  have branch := Statement.ofLine_of_opens opens l.depth
  rw [← line] at branch
  rcases account.opened_or_orphan branch own with ⟨opened, quiet⟩ | ⟨declared, x, hx, kind⟩
  · refine .inl ⟨opened, fun x hx place kind => quiet x (holds.raised x hx ?_ ?_) kind⟩
    · rw [place, here]
    · simp [kind, DiagnosticKind.ofStatements]
  · obtain ⟨shown, place⟩ := holds.diagnostics x hx
    exact .inr ⟨declared, x, shown, place.trans here, kind⟩

theorem elements_eq_finished (h : ofText options text = .ok o) :
    o.document.elements =
      (finished options.defaultLane (scan options.maxDepth text).lines).elements := by
  obtain ⟨document, -, -⟩ := ofText_eq_ok h
  rw [document, Draft.document_elements (registered_finished _ _)]

section

variable {x : Element}

/-- The connections from an element to the tasks of its branches are those of its branches, whatever
the references are. -/
theorem filter_connections_branchTasks (h : ofText options text = .ok o)
    (hx : x ∈ o.document.elements) :
    ((ProcessGraph.ofOutline o).connections.filter fun c =>
        c.kind = .sequenceFlow && c.source = x.id && c.target ∈ x.branchTasks).map
      (fun c => (c.target, c.label)) = x.branches.map fun b => (b.task, some b.label) := by
  obtain ⟨-, events, -⟩ := ofText_eq_ok h
  have edges := (branched_finished _ _).filter_leadsTo_outcomes (registered_finished _ _)
    (chronicled_finished _ _) (branching_finished _ _) (elements_eq_finished h ▸ hx) o.document
    o.references
  rw [← events] at edges
  have views := Flow.filter_connections
    (p := fun c => c.kind = .sequenceFlow && c.source = x.id && c.target ∈ x.branchTasks)
    (q := x.leadsTo) (fun e => (e.target, e.label)) (fun c => (c.target, c.label))
    (fun _ _ => rfl) (fun _ _ => rfl)
    ((Flow.outcomes o.document o.events o.references).filterMap Outcome.edge?) id
  rw [edges, List.map_map] at views
  exact views

/-- The text says the label of a branch on the line of its task. -/
theorem isLabelled_of_mem_branches (h : ofText options text = .ok o)
    (hx : x ∈ o.document.elements) {b : Branch} (hb : b ∈ x.branches) :
    ∃ e ∈ o.document.elements, e.id = b.task ∧ ∃ p ∈ Text.pieces text.toList, p.number = e.line ∧
      ∃ payload, p.Opens b.sign payload ∧ Branch.IsLabelled payload.toList b.sign b.label := by
  have elements := elements_eq_finished h
  obtain ⟨l, hl, ⟨label, task, stated, own⟩, e, he, id, line⟩ :=
    (branched_finished _ _).stated x (elements ▸ hx) b hb
  obtain ⟨p, hp, piece⟩ := (scan_isTwoPass options.maxDepth text).exists_piece
    (exists_ofText_eq_ok.1 ⟨o, h⟩) hl
  rw [piece] at stated
  obtain ⟨payload, opens, labelled⟩ := Statement.opens_of_ofLine_branch stated
  have number : p.number = e.line := (congrArg Line.number piece).symm.trans line.symm
  exact ⟨e, elements ▸ he, id, p, (List.mem_filter.1 hp).1, number, payload, opens, own ▸ labelled⟩

theorem eq_branchOpened (h : ofText options text = .ok o) (hx : x ∈ o.document.elements)
    {task : String} (ht : task ∈ x.branchTasks) {ev : Event} (hev : ev ∈ o.events)
    (introduces : ev.introduced? = some task) : ∃ label, ev = .branchOpened x.id task label := by
  obtain ⟨-, events, -⟩ := ofText_eq_ok h
  exact (branched_finished _ _).eq_branchOpened (registered_finished _ _) (chronicled_finished _ _)
    (elements_eq_finished h ▸ hx) (events ▸ hev) ht introduces

/-- A task that opens a branch is in the branches of one gateway. -/
theorem existsUnique_of_branchOpened (h : ofText options text = .ok o)
    {gateway task label : String} (logged : .branchOpened gateway task label ∈ o.events) :
    ∃! x : Element, x ∈ o.document.elements ∧ task ∈ x.branchTasks := by
  obtain ⟨-, events, -⟩ := ofText_eq_ok h
  have elements := elements_eq_finished h
  have registered := registered_finished options.defaultLane (scan options.maxDepth text).lines
  obtain ⟨x, hx, same, -⟩ :=
    (grounded_finished _ _).events _ (events ▸ logged) gateway (by simp [Event.ids])
  subst same
  obtain ⟨b, hb, rfl, -⟩ :=
    ((branched_finished _ _).branchOpened_mem_iff hx).1 (events ▸ logged)
  refine ⟨x, ⟨elements ▸ hx, List.mem_map_of_mem hb⟩, ?_⟩
  rintro y ⟨hy, ht⟩
  obtain ⟨label', other⟩ := eq_branchOpened h hy ht logged rfl
  injection other with gateways
  exact List.inj_on_of_nodup_map registered.elementIds_nodup (elements ▸ hy) hx gateways.symm

end

/-- The branches of every text, its log and its graph agree. -/
theorem ofText_branchesAgree (options : ReadOptions) (text : String) (o : Outline)
    (h : ofText options text = .ok o) : o.BranchesAgree (Text.pieces text.toList) := by
  refine ⟨fun x hx => ?_, fun x hx => filter_connections_branchTasks h hx,
    fun x hx b hb => isLabelled_of_mem_branches h hx hb, ?_⟩
  · obtain ⟨-, events, -⟩ := ofText_eq_ok h
    rw [events]
    exact (branched_finished _ _).events x (elements_eq_finished h ▸ hx)
  · rintro e he p hp number ⟨sign, payload, opens⟩
    rcases opened_or_orphan h he hp number opens with ⟨⟨gateway, label, logged⟩, quiet⟩ |
      ⟨declared, orphan⟩
    · refine .inl ⟨existsUnique_of_branchOpened h logged, ?_⟩
      rintro ⟨x, hx, line, kind⟩
      exact quiet x hx line kind
    · refine .inr ⟨orphan, ?_⟩
      rintro ⟨x, ⟨hx, ht⟩, -⟩
      obtain ⟨label, other⟩ := eq_branchOpened h hx ht declared rfl
      cases other

/-- A gateway with a labelled and a bare branch, below a branch without gateway. The arrow on the
third line names the edge of its branch again, and the edge keeps its label. -/
theorem ofText_branchesAgree_labelled :
    ∃ o, ofText {} "+lost\n?ok\n  +| Sure | yes <- ok\n  -|| later" = .ok o ∧
      o.document.elements.map (fun e => (e.id, e.branchTasks)) =
        [("default_lost", []), ("default_ok", ["default_yes", "default_later"]),
          ("default_yes", []), ("default_later", [])] ∧
      o.references.map (fun r => (r.kind, r.source, r.target)) =
        [(.sequenceFlow, .named "ok", .element "default_yes")] ∧
      (ProcessGraph.ofOutline o).connections.map (fun c => (c.source, c.target, c.label)) =
        [("default_lost", "default_ok", none), ("default_ok", "default_yes", some "Sure"),
          ("default_ok", "default_later", some "No")] ∧
      (ProcessGraph.ofOutline o).diagnostics.map (fun x => (x.line, x.kind)) =
        [(1, .orphanBranch)] ∧
      o.BranchesAgree
        (Text.pieces "+lost\n?ok\n  +| Sure | yes <- ok\n  -|| later".toList) := by
  have read : ofText {} "+lost\n?ok\n  +| Sure | yes <- ok\n  -|| later" = .ok _ := rfl
  exact ⟨_, read, by decide +kernel, by decide +kernel, by decide +kernel, by decide +kernel,
    ofText_branchesAgree {} _ _ read⟩

end Outline

end Swimlane
