import Swimlane.Proofs.Diagram.Picture
import Swimlane.Proofs.Flow.Numbered
import Swimlane.Proofs.Integrity

/-!
# Diagrams of texts

A diagram has one line for everything it shows, and it can be understood in one way only, whatever
stands in the names and labels of the text. Texts are read line by line, so nothing that is shown
has a newline in it, and then each line can be read back.

## Main definitions

* `ProcessGraph.IsDrawable`: ids, names and labels that a diagram can show;
* `Diagram.Layout`: the lines of a diagram, group by group.

## Main statements

* `ProcessGraph.isDrawable_ofText`: the process graph of a text can be drawn;
* `Diagram.lines_draw`: a diagram is split into its lines;
* `Diagram.picture_eq_of_draw_eq`: a diagram shows one picture;
* `ProcessGraph.ofText_drawn`: so it is with the diagrams of texts.
-/

namespace Swimlane

open Text (OneLine)
open Identifier (IsWellFormed)

/-! ## Graphs that can be drawn -/

/-- Ids are well-formed, no two elements have the same id, and texts have no newlines. Edges end in
elements of the flow, and associations have no labels. -/
structure ProcessGraph.IsDrawable (g : ProcessGraph) : Prop where
  processName : ∀ name, g.document.processName = some name → OneLine name
  lanes : ∀ lane ∈ g.document.lanes, IsWellFormed lane.id ∧ OneLine lane.name
  elements : ∀ e ∈ g.document.laneElements, IsWellFormed e.id ∧ OneLine e.display
  ids_nodup : (g.document.laneElements.map (·.id)).Nodup
  sources : ∀ c ∈ g.connections, ∃ e ∈ g.document.laneElements, e.id = c.source
  targets : ∀ c ∈ g.connections, g.document.HasFlowNode c.target
  labels : ∀ c ∈ g.connections, ∀ label, c.label = some label →
    OneLine label ∧ c.kind ≠ .dataAssociation
  attached : ∀ e ∈ g.document.laneElements, ∀ target, e.kind = .note (some target) →
    ∃ x ∈ g.document.laneElements, x.id = target

/-- The labels of edges are those of events and references. -/
theorem Flow.label_of_mem_emitted {doc : Document} {d : Draft} (h : d.OneLine) (hg : d.Grounded)
    {e : Edge} (he : e ∈ emitted doc d.events d.references) {label : String}
    (hl : e.label = some label) : OneLine label ∧ e.kind ≠ .dataAssociation := by
  rw [emitted, List.append_assoc, List.mem_append, List.mem_append] at he
  rcases he with run | data | reference
  · refine ⟨?_, kind_of_mem_run doc d.events run⟩
    obtain ⟨before, ev, first, drawn⟩ := Threads.exists_step_of_mem_run run
    have hev : ev ∈ d.events := first.subset (by simp)
    refine h.events label (List.mem_filterMap.2 ⟨ev, hev, ?_⟩)
    cases Threads.draws_step drawn <;> cases hl <;> rfl
  · obtain ⟨o, ho, edge⟩ := List.mem_filterMap.1 data
    obtain ⟨x, -, data⟩ := List.mem_filterMap.1 ho
    unfold Outcome.ofData? at data
    grind [Outcome.edge?]
  · obtain ⟨o, ho, edge⟩ := List.mem_filterMap.1 reference
    obtain ⟨r, hr, resolved⟩ := List.mem_map.1 ho
    have isFlow := (hg.references r hr).1
    have labels := h.references label
    unfold Outcome.ofReference at resolved
    grind [Outcome.edge?]

theorem ProcessGraph.isDrawable_ofText {options : ReadOptions} (lane : OneLine options.defaultLane)
    {text : String} {g : ProcessGraph} (h : ofText options text = .ok g) : g.IsDrawable := by
  obtain ⟨o, ho, rfl⟩ := ofText_eq_ok h
  obtain ⟨document, events, references⟩ := Outline.ofText_eq_ok ho
  have read := Outline.exists_ofText_eq_ok.1 ⟨o, ho⟩
  have oneLine := Outline.oneLine_finished lane fun l => Line.oneLine_of_mem_scan read
  generalize (scan options.maxDepth text).lines = lines at document events references oneLine
  have registered := Outline.registered_finished options.defaultLane lines
  have grounded := Outline.grounded_finished options.defaultLane lines
  have annotated := Outline.annotated_finished options.defaultLane lines
  generalize Outline.finished options.defaultLane lines = d at *
  have ends (c : Connection) (hc : c ∈ (ofOutline o).connections) :=
    hasEnds_of_mem_connections registered grounded document events references hc
  have shown : (ofOutline o).document = d.document := document
  have wellFormed (id : String) (hid : id ∈ d.lanes.map (·.id) ++ d.elements.map (·.id)) :=
    registered.wellFormed id (registered.ids.mem_iff.2 hid)
  refine
    { processName := by rw [shown]; exact oneLine.process
      lanes := ?_
      elements := ?_
      ids_nodup := ?_
      sources := ?_
      targets := by rw [shown]; exact fun c hc => (ends c hc).2
      labels := ?_
      attached := ?_ }
  · rw [shown]
    rintro lane hl
    obtain ⟨header, hh, rfl⟩ := List.mem_map.1 hl
    exact ⟨wellFormed _ (List.mem_append_left _ (List.mem_map_of_mem hh)),
      oneLine.lanes _ (List.mem_map_of_mem hh)⟩
  · rw [shown]
    intro e he
    have he := (Draft.mem_laneElements registered).1 he
    exact ⟨wellFormed _ (List.mem_append_right _ (List.mem_map_of_mem he)),
      oneLine.elements _ (List.mem_map_of_mem he)⟩
  · rw [shown]
    exact ((Draft.laneElements_perm registered).map _).nodup_iff.2 registered.elementIds_nodup
  · rw [shown]
    intro c hc
    rcases (ends c hc).1 with ⟨-, e, he, id, -⟩ | ⟨-, e, he, id, -⟩ <;> exact ⟨e, he, id⟩
  · intro c hc label hl
    have drawn : c.edge ∈ Flow.emitted o.document o.events o.references := by
      refine (Edge.firsts_sublist _).subset ?_
      rw [← Flow.map_edge_connections]
      exact List.mem_map_of_mem hc
    rw [events, references] at drawn
    exact Flow.label_of_mem_emitted oneLine grounded drawn hl
  · rw [shown]
    intro e he target kind
    obtain ⟨x, nearest, id⟩ :=
      (Draft.attached_eq_some_iff registered annotated he kind target).1 rfl
    exact ⟨x, nearest.1, id⟩

namespace Diagram

variable {g g' : ProcessGraph} {o : DrawOptions}

/-! ## Lines -/

/-- The lines of a diagram behind its style classes. -/
def bodyLines (o : DrawOptions) (g : ProcessGraph) : List DiagramLine :=
  g.document.lanes.flatMap (laneLines o) ++ g.connections.map edgeLine ++
    g.document.elements.filterMap noteLine? ++ styleLines o g.document

theorem fits_bodyLines (h : g.IsDrawable) :
    ∀ l ∈ bodyLines o g, l.Fits ∧ l.IsBody := by
  intro l hl
  simp only [bodyLines, List.mem_append] at hl
  rcases hl with ((box | edge) | note) | style
  · obtain ⟨lane, hl, mem⟩ := List.mem_flatMap.1 box
    simp only [laneLines, List.cons_append, List.mem_cons, List.mem_append, List.mem_map,
      List.not_mem_nil, or_false] at mem
    rcases mem with rfl | ⟨e, he, rfl⟩ | rfl
    · exact ⟨h.lanes lane hl, trivial⟩
    · have element := h.elements e (List.mem_flatMap.2 ⟨lane, hl, he⟩)
      refine ⟨⟨element.1, element.2, ?_⟩, trivial⟩
      have className : OneLine e.kind.className := by
        unfold ElementKind.className
        split <;> decide
      grind
    · exact ⟨trivial, trivial⟩
  · obtain ⟨c, hc, rfl⟩ := List.mem_map.1 edge
    obtain ⟨s, hs, source⟩ := h.sources c hc
    obtain ⟨t, ht, target, -⟩ := h.targets c hc
    exact ⟨⟨source ▸ (h.elements s hs).1, target ▸ (h.elements t ht).1,
      fun label hl => (h.labels c hc label hl).1⟩, trivial⟩
  · obtain ⟨e, he, note⟩ := List.mem_filterMap.1 note
    have he := Document.mem_elements.1 he
    unfold noteLine? at note
    split at note
    · next target kind =>
      cases note
      obtain ⟨x, hx, id⟩ := h.attached e he target kind
      exact ⟨⟨id ▸ (h.elements x hx).1, (h.elements e he).1⟩, trivial⟩
    · cases note
  · unfold styleLines at style
    split at style
    · obtain ⟨i, hi, rfl⟩ := List.mem_mapIdx.1 style
      have body : OneLine (laneBody i) := by unfold laneBody; split <;> decide
      exact ⟨⟨(h.lanes _ (List.getElem_mem hi)).1, body⟩, trivial⟩
    · cases style

/-- The lines of a diagram up to its style classes. -/
def frontLines (o : DrawOptions) (g : ProcessGraph) : List DiagramLine :=
  titleLines o g.document ++ .flowchart o.direction :: classLines o

theorem lines_eq : lines o g.document g.connections = frontLines o g ++ bodyLines o g := by
  simp [lines, frontLines, bodyLines]

theorem fits_frontLines (h : g.IsDrawable) : ∀ l ∈ frontLines o g, l.Fits := by
  have title : ∀ l ∈ titleLines o g.document, l.Fits := by
    unfold titleLines
    split
    · next name _ named =>
      have := h.processName name named
      simpa [DiagramLine.Fits] using this
    · simp
  have classes : ∀ l ∈ classLines o, l.Fits := by
    have all : ∀ c ∈ classes, OneLine c.1 ∧ OneLine c.2 := by decide +kernel
    unfold classLines
    split
    · exact List.forall_mem_map.2 all
    · simp
  exact List.forall_mem_append.2 ⟨title, List.forall_mem_cons.2 ⟨trivial, classes⟩⟩

/-- A diagram is split into its lines, and nothing stands behind the last of them. -/
theorem lines_draw (h : g.IsDrawable) (o : DrawOptions) :
    Text.lines (draw o g.document g.connections) =
      (lines o g.document g.connections).map (·.text.toList) ++ [[]] := by
  have terminated : (draw o g.document g.connections).toList =
      ((lines o g.document g.connections).map (·.text.toList)).flatMap (· ++ ['\n']) := by
    simp [draw, String.toList_join, List.flatMap_map]
  rw [Text.lines, terminated]
  refine Text.splitOn_terminated (List.forall_mem_map.2 fun l hl => DiagramLine.oneLine_text ?_)
  rw [lines_eq, List.mem_append] at hl
  exact hl.elim (fits_frontLines h l) fun body => (fits_bodyLines h l body).1

/-! ## Pictures -/

/-- The front of a diagram shows the name of the process. -/
theorem name_of_frontLines (title : o.title = true) {body body' : List (List Char)}
    (h : (frontLines o g).map (·.text.toList) ++ body =
      (frontLines o g').map (·.text.toList) ++ body') :
    g.document.processName = g'.document.processName ∧ body = body' := by
  have fence : (DiagramLine.flowchart o.direction).text.toList ≠ DiagramLine.fence.text.toList := by
    cases o.direction <;> decide
  unfold frontLines titleLines at h
  cases name : g.document.processName with
  | none =>
    cases name' : g'.document.processName with
    | none => exact ⟨rfl, by simpa [name, name'] using h⟩
    | some n' => simp [title, name, name', fence] at h
  | some n =>
    cases name' : g'.document.processName with
    | none => simp [title, name, name', fence.symm] at h
    | some n' =>
      simp only [title, name, name', List.cons_append, List.nil_append, List.map_cons,
        List.cons.injEq, true_and, List.append_cancel_left_eq] at h
      have scalar : titleScalar n = titleScalar n' :=
        String.toList_injective (by simpa [DiagramLine.text] using h.1)
      exact ⟨by rw [titleScalar_injective scalar], h.2⟩

theorem mem_noteIds {id : String} :
    id ∈ Picture.noteIds g.picture.boxes ↔
      ∃ e ∈ g.document.laneElements, e.kind.isNote = true ∧ e.id = id := by
  have note (kind : ElementKind) : kind.className = "annotation" ↔ kind.isNote = true := by
    cases kind <;> simp [ElementKind.className, ElementKind.isNote]
  simp only [Picture.noteIds, ProcessGraph.picture, List.flatMap_map, Picture.Box.ofLane,
    List.mem_flatMap, List.mem_map, List.mem_filter, Document.laneElements, decide_eq_true_eq]
  constructor
  · rintro ⟨lane, hl, n, ⟨⟨e, he, rfl⟩, isNote⟩, rfl⟩
    exact ⟨e, ⟨lane, hl, he⟩, (note e.kind).1 isNote, rfl⟩
  · rintro ⟨e, ⟨lane, hl, he⟩, isNote, rfl⟩
    exact ⟨lane, hl, .ofElement e, ⟨⟨e, he, rfl⟩, (note e.kind).2 isNote⟩, rfl⟩

/-- Connections end in elements of the flow, and no note has the id of such an element. -/
theorem separates_picture (h : g.IsDrawable) : g.picture.Separates where
  edges := by
    refine List.forall_mem_map.2 fun c hc mem => ?_
    obtain ⟨e, he, isNote, id⟩ := mem_noteIds.1 mem
    obtain ⟨x, hx, target, isFlow⟩ := h.targets c hc
    obtain rfl := List.inj_on_of_nodup_map h.ids_nodup he hx (id.trans target.symm)
    unfold Element.isFlowNode at isFlow
    cases kind : e.kind <;> simp [kind, ElementKind.isNote, ElementKind.isFlowNode] at isNote isFlow
  links := by
    intro l hl
    obtain ⟨e, he, link⟩ := List.mem_filterMap.1 hl
    refine mem_noteIds.2 ⟨e, Document.mem_elements.1 he, ?_⟩
    unfold Picture.Link.ofElement? at link
    split at link
    · next kind => cases link; exact ⟨by rw [kind]; rfl, rfl⟩
    · cases link

theorem shown_edgeLine (h : g.IsDrawable) {c : Connection} (hc : c ∈ g.connections) :
    (edgeLine c).shown = Picture.edgeLine (Picture.edgeOf c) := by
  cases kind : c.kind with
  | sequenceFlow | messageFlow =>
    simp [edgeLine, DiagramLine.shown, Picture.edgeLine, Picture.edgeOf, kind]
  | dataAssociation =>
    have label : c.label = none :=
      Option.eq_none_iff_forall_ne_some.2 fun label hl => (h.labels c hc label hl).2 kind
    simp [edgeLine, DiagramLine.shown, Picture.edgeLine, Picture.edgeOf, kind, label]

theorem noteLines_eq :
    g.document.elements.filterMap noteLine? =
      g.picture.links.map fun l => .noteLink l.target l.note := by
  have line (e : Element) : noteLine? e =
      (Picture.Link.ofElement? e).map fun l => .noteLink l.target l.note := by
    unfold noteLine? Picture.Link.ofElement?
    grind
  rw [ProcessGraph.picture, List.map_filterMap]
  simp only [line]

theorem isStyle_styleLines : ∀ l ∈ styleLines o g.document, Picture.IsStyle l := by
  unfold styleLines
  split
  · intro l hl
    obtain ⟨i, hi, rfl⟩ := List.mem_mapIdx.1 hl
    trivial
  · simp

theorem shown_bodyLines (h : g.IsDrawable) (styles : o.styles = true) :
    (bodyLines o g).map DiagramLine.shown = g.picture.lines ++ styleLines o g.document := by
  have boxes : (g.document.lanes.flatMap (laneLines o)).map DiagramLine.shown =
      g.picture.boxes.flatMap Picture.Box.lines := by
    rw [List.map_flatMap, ProcessGraph.picture, List.flatMap_map]
    refine List.flatMap_congr fun lane _ => ?_
    simp [laneLines, nodeLine, styles, DiagramLine.shown, Picture.Box.lines, Picture.Box.ofLane,
      Picture.Node.line, Picture.Node.ofElement]
  have edges : (g.connections.map edgeLine).map DiagramLine.shown =
      g.picture.edges.map Picture.edgeLine := by
    rw [ProcessGraph.picture, List.map_map, List.map_map]
    exact List.map_congr_left fun c hc => shown_edgeLine h hc
  have links : (g.document.elements.filterMap noteLine?).map DiagramLine.shown =
      (g.picture.links.map Picture.Link.edge).map Picture.edgeLine := by
    rw [noteLines_eq, List.map_map, List.map_map]
    rfl
  have style : (styleLines o g.document).map DiagramLine.shown = styleLines o g.document := by
    refine (List.map_congr_left fun l hl => ?_).trans (List.map_id _)
    have := isStyle_styleLines l hl
    cases l <;> first | rfl | exact this.elim
  rw [bodyLines, List.map_append, List.map_append, List.map_append, boxes, edges, links, style,
    Picture.lines, List.map_append, List.append_assoc _ (List.map _ _) (List.map _ _)]

/-- Lines behind the style classes that are written alike show the same. -/
theorem shown_eq_of_text_eq (h : g.IsDrawable) (h' : g'.IsDrawable)
    (same : (bodyLines o g).map (·.text.toList) = (bodyLines o g').map (·.text.toList)) :
    (bodyLines o g).map DiagramLine.shown = (bodyLines o g').map DiagramLine.shown := by
  have shown {g : ProcessGraph} (h : g.IsDrawable) :
      ((bodyLines o g).map (·.text.toList)).map DiagramLine.read =
        ((bodyLines o g).map DiagramLine.shown).map some := by
    rw [List.map_map, List.map_map]
    refine List.map_congr_left fun l hl => ?_
    exact DiagramLine.read_text (fits_bodyLines h l hl).1 (fits_bodyLines h l hl).2
  have read := congrArg (List.map DiagramLine.read) same
  rw [shown h, shown h'] at read
  exact (List.map_injective_iff.2 fun _ _ => Option.some.inj) read

/-- A diagram shows one picture only. -/
theorem picture_eq_of_draw_eq (h : g.IsDrawable) (h' : g'.IsDrawable) (styles : o.styles = true)
    (title : o.title = true)
    (same : draw o g.document g.connections = draw o g'.document g'.connections) :
    g.picture = g'.picture := by
  have pieces := congrArg Text.lines same
  simp only [lines_draw h, lines_draw h', lines_eq, List.map_append] at pieces
  obtain ⟨name, body⟩ := name_of_frontLines title (List.append_cancel_right pieces)
  have shown := shown_eq_of_text_eq h h' body
  rw [shown_bodyLines h styles, shown_bodyLines h' styles] at shown
  exact Picture.eq_of_lines (separates_picture h) (separates_picture h') name isStyle_styleLines
    isStyle_styleLines shown

/-! ## Layouts -/

/-- The lines of a diagram, group by group. -/
structure Layout (o : DrawOptions) (g : ProcessGraph) where
  title : List DiagramLine
  classes : List DiagramLine
  notes : List DiagramLine
  styles : List DiagramLine
  title_eq : title = if o.title then
    g.document.processName.toList.flatMap fun name => [.fence, .title name, .fence] else []
  isClass : ∀ l ∈ classes, ∃ name body, l = .classDef name body
  length_classes : classes.length = if o.styles then 6 else 0
  notes_eq : notes = g.picture.links.map fun l => .noteLink l.target l.note
  isStyle : List.Forall₂ (fun lane l => ∃ body, l = .laneStyle lane.id body)
    (if o.styles then g.document.lanes else []) styles

/-- One line for each thing that is shown, in the order of the diagram. -/
def Layout.lines (l : Layout o g) : List DiagramLine :=
  l.title ++ [.flowchart o.direction] ++ l.classes ++
    (g.document.lanes.flatMap fun lane =>
      [.laneStart lane.id lane.name] ++ lane.elements.map (nodeLine o) ++ [.laneEnd]) ++
    g.connections.map edgeLine ++ l.notes ++ l.styles

theorem isStyle_mapIdx (lanes : List Lane) :
    List.Forall₂ (fun (lane : Lane) (l : DiagramLine) => ∃ body, l = .laneStyle lane.id body) lanes
      (lanes.mapIdx fun i lane => .laneStyle lane.id (laneBody i)) := by
  rw [List.mapIdx_eq_zipIdx_map, List.forall₂_map_right_iff]
  nth_rewrite 1 [← List.zipIdx_map_fst 0 lanes]
  rw [List.forall₂_map_left_iff, List.forall₂_same]
  exact fun lane _ => ⟨_, rfl⟩

/-- The lines of a diagram are laid out. -/
theorem exists_layout (o : DrawOptions) (g : ProcessGraph) :
    ∃ l : Layout o g, l.lines = Diagram.lines o g.document g.connections := by
  refine ⟨{ title := titleLines o g.document
            classes := classLines o
            notes := g.document.elements.filterMap noteLine?
            styles := styleLines o g.document
            title_eq := ?_
            isClass := ?_
            length_classes := ?_
            notes_eq := noteLines_eq
            isStyle := ?_ }, rfl⟩
  · unfold titleLines
    cases o.title <;> cases g.document.processName <;> rfl
  · unfold classLines
    split
    · exact List.forall_mem_map.2 fun c _ => ⟨c.1, c.2, rfl⟩
    · simp
  · unfold classLines
    split <;> rfl
  · unfold styleLines
    split
    · exact isStyle_mapIdx _
    · exact .nil

end Diagram

/-- The diagram of a text has one line for each thing it shows and nothing else, and two diagrams
with a title and styles are the same only if they show the same picture, whatever stands in the
names and labels of their texts. -/
theorem ProcessGraph.ofText_drawn (options : ReadOptions) (text : String) (g : ProcessGraph)
    (lane : OneLine options.defaultLane) (h : ofText options text = .ok g) (o : DrawOptions) :
    (∃ l : Diagram.Layout o g, Text.lines (Diagram.draw o g.document g.connections) =
      l.lines.map (·.text.toList) ++ [[]]) ∧
    (o.styles = true → o.title = true → ∀ options' text' g', OneLine options'.defaultLane →
      ofText options' text' = .ok g' →
      Diagram.draw o g.document g.connections = Diagram.draw o g'.document g'.connections →
      g.picture = g'.picture) := by
  have drawable := isDrawable_ofText lane h
  constructor
  · obtain ⟨l, laid⟩ := Diagram.exists_layout o g
    exact ⟨l, by rw [laid, Diagram.lines_draw drawable]⟩
  · intro styles title options' text' g' lane' h' same
    exact Diagram.picture_eq_of_draw_eq drawable (isDrawable_ofText lane' h') styles title same

/-- A quote in a label and the text that it is replaced by are drawn alike. The data object of these
texts belongs to a task, and their note is attached to the data object. -/
theorem ProcessGraph.ofText_drawn_quoted :
    ∃ g g', ofText {} ":\"B\"\n?q\n  +|\"y\"| a\n#x a\n\"n" = .ok g ∧
      ofText {} ":\"B\"\n?q\n  +|#quot;y#quot;| a\n\n#x a\n\"n" = .ok g' ∧
      g ≠ g' ∧
      (∃ l : Diagram.Layout {} g, Text.lines (Diagram.draw {} g.document g.connections) =
        l.lines.map (·.text.toList) ++ [[]]) ∧
      Diagram.draw {} g.document g.connections = Diagram.draw {} g'.document g'.connections ∧
      g.picture = g'.picture := by
  have read : ofText {} ":\"B\"\n?q\n  +|\"y\"| a\n#x a\n\"n" = .ok _ := rfl
  have read' :
      ofText {} ":\"B\"\n?q\n  +|#quot;y#quot;| a\n\n#x a\n\"n" = .ok _ := rfl
  have drawn := ofText_drawn {} _ _ (by decide) read {}
  have picture := drawn.2 rfl rfl {} _ _ (by decide) read'
  exact ⟨_, _, read, read', by decide +kernel, drawn.1,
    (fun same => ⟨same, picture same⟩) (by decide +kernel)⟩

end Swimlane
