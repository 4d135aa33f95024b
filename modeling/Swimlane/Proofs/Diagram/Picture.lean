import Swimlane.Flow.Edge
import Swimlane.Process.Graph
import Swimlane.Proofs.Diagram.Line

/-!
# Pictures

The picture of a process graph is what its diagram is to show. It can be taken from the lines of the
diagram. A box goes on up to the first line that ends one. The associations of data objects and the
links of notes are drawn alike, but only links end in notes, and a note is known by its class.

## Main definitions

* `Picture`: the name of a process, the boxes of its lanes, its edges and the links of its notes;
* `ProcessGraph.picture`: what is to be shown of a process graph;
* `Picture.Separates`: edges and links can be told apart.

## Main statements

* `Picture.eq_of_lines`: pictures with the same lines are the same.
-/

namespace Swimlane

namespace Picture

/-- A node; its label is escaped. -/
structure Node where
  id : String
  shape : Shape
  className : String
  label : String
  deriving Repr, DecidableEq

/-- The box of a lane; its name is escaped. -/
structure Box where
  id : String
  name : String
  nodes : List Node
  deriving Repr, DecidableEq

/-- A note and the element it is attached to, by their ids. -/
structure Link where
  note : String
  target : String
  deriving Repr, DecidableEq

end Picture

/-- What a diagram shows. The labels of edges are escaped. -/
structure Picture where
  processName : Option String
  boxes : List Picture.Box
  edges : List Edge
  links : List Picture.Link
  deriving Repr, DecidableEq

namespace Picture

def Node.ofElement (e : Element) : Node :=
  ⟨e.id, .ofKind e.kind, e.kind.className, escapeLabel e.display⟩

def Box.ofLane (lane : Lane) : Box :=
  ⟨lane.id, escapeLabel lane.name, lane.elements.map Node.ofElement⟩

def edgeOf (c : Connection) : Edge := ⟨c.kind, c.source, c.target, c.label.map escapeLabel⟩

def Link.ofElement? (e : Element) : Option Link :=
  match e.kind with
  | .note (some target) => some ⟨e.id, target⟩
  | _ => none

end Picture

/-- What is to be shown of a process graph. -/
def ProcessGraph.picture (g : ProcessGraph) : Picture where
  processName := g.document.processName
  boxes := g.document.lanes.map .ofLane
  edges := g.connections.map Picture.edgeOf
  links := g.document.elements.filterMap Picture.Link.ofElement?

namespace Picture

/-! ## Boxes -/

def Node.line (n : Node) : DiagramLine := .node n.id n.shape n.label (some n.className)

theorem Node.line_injective : Function.Injective Node.line := by
  rintro ⟨⟩ ⟨⟩ h
  simp_all [Node.line]

def Box.lines (b : Box) : List DiagramLine :=
  .laneStart b.id b.name :: (b.nodes.map Node.line ++ [.laneEnd])

/-- Boxes end where a line says so, and what follows them starts none. -/
theorem Box.append_inj {bs bs' : List Box} {rest rest' : List DiagramLine}
    (hr : ∀ id name, .laneStart id name ∉ rest) (hr' : ∀ id name, .laneStart id name ∉ rest')
    (h : bs.flatMap Box.lines ++ rest = bs'.flatMap Box.lines ++ rest') :
    bs = bs' ∧ rest = rest' := by
  induction bs generalizing bs' with
  | nil =>
    cases bs' with
    | nil => exact ⟨rfl, h⟩
    | cons b' bs' =>
      have : .laneStart b'.id b'.name ∈ rest := by
        rw [show rest = _ from h]
        simp [Box.lines]
      exact absurd this (hr _ _)
  | cons b bs ih =>
    cases bs' with
    | nil =>
      have : .laneStart b.id b.name ∈ rest' := by
        rw [show rest' = _ from h.symm]
        simp [Box.lines]
      exact absurd this (hr' _ _)
    | cons b' bs' =>
      have cut (ns : List Node) (more : List DiagramLine) :
          (ns.map Node.line ++ .laneEnd :: more).span (· != .laneEnd) =
            (ns.map Node.line, .laneEnd :: more) :=
        DiagramLine.span_mark (by simp [Node.line]) more
      simp only [List.flatMap_cons, Box.lines, List.cons_append, List.append_assoc,
        List.cons.injEq, DiagramLine.laneStart.injEq, List.nil_append] at h
      obtain ⟨⟨id, name⟩, behind⟩ := h
      have halves := congrArg (List.span (· != .laneEnd)) behind
      simp only [cut, Prod.mk.injEq, List.cons.injEq, true_and] at halves
      obtain ⟨same, more⟩ := ih halves.2
      have nodes := Node.line_injective.list_map halves.1
      exact ⟨by rw [same, show b = b' by cases b; cases b'; simp_all], more⟩

/-! ## Edges and links -/

def edgeLine (e : Edge) : DiagramLine := .edge e.kind e.source e.target e.label

def edge? : DiagramLine → Option Edge
  | .edge kind source target label => some ⟨kind, source, target, label⟩
  | _ => none

/-- How a link is drawn. -/
def Link.edge (l : Link) : Edge := ⟨.dataAssociation, l.target, l.note, none⟩

theorem Link.edge_injective : Function.Injective Link.edge := by
  rintro ⟨⟩ ⟨⟩ h
  simp_all [Link.edge]

/-- The ids of the notes in boxes. -/
def noteIds (bs : List Box) : List String :=
  bs.flatMap fun b => (b.nodes.filter (·.className = "annotation")).map (·.id)

/-- Links end in notes, and edges do not. -/
structure Separates (p : Picture) : Prop where
  edges : ∀ e ∈ p.edges, e.target ∉ noteIds p.boxes
  links : ∀ l ∈ p.links, l.note ∈ noteIds p.boxes

theorem Separates.filter_edges {p : Picture} (h : p.Separates) :
    (p.edges ++ p.links.map Link.edge).filter (·.target ∉ noteIds p.boxes) = p.edges := by
  rw [List.filter_append, List.filter_eq_self.2 (by simpa using h.edges),
    List.filter_eq_nil_iff.2 (by simpa [Link.edge] using h.links), List.append_nil]

theorem Separates.filter_links {p : Picture} (h : p.Separates) :
    (p.edges ++ p.links.map Link.edge).filter (·.target ∈ noteIds p.boxes) =
      p.links.map Link.edge := by
  rw [List.filter_append, List.filter_eq_nil_iff.2 (by simpa using h.edges), List.nil_append,
    List.filter_eq_self.2 (by simpa [Link.edge] using h.links)]

/-- The lines of boxes, edges and links. -/
def lines (p : Picture) : List DiagramLine :=
  p.boxes.flatMap Box.lines ++ (p.edges ++ p.links.map Link.edge).map edgeLine

def IsStyle : DiagramLine → Prop
  | .laneStyle .. => True
  | _ => False

/-- Pictures that are drawn with the same lines are the same. -/
theorem eq_of_lines {p q : Picture} (hp : p.Separates) (hq : q.Separates)
    (name : p.processName = q.processName) {styles styles' : List DiagramLine}
    (hs : ∀ l ∈ styles, IsStyle l) (hs' : ∀ l ∈ styles', IsStyle l)
    (h : p.lines ++ styles = q.lines ++ styles') : p = q := by
  have noStart {es : List Edge} {styles : List DiagramLine} (hs : ∀ l ∈ styles, IsStyle l)
      (id name : String) : .laneStart id name ∉ es.map edgeLine ++ styles := by
    intro mem
    rcases List.mem_append.1 mem with mem | mem
    · simp [edgeLine] at mem
    · exact hs _ mem
  have edges {es : List Edge} {styles : List DiagramLine} (hs : ∀ l ∈ styles, IsStyle l) :
      (es.map edgeLine ++ styles).filterMap edge? = es := by
    have edgeless : styles.filterMap edge? = [] := by
      refine List.filterMap_eq_nil_iff.2 fun l hl => ?_
      have := hs l hl
      cases l <;> first | rfl | exact this.elim
    rw [List.filterMap_append, edgeless, List.append_nil, List.filterMap_map]
    exact List.filterMap_some
  simp only [lines, List.append_assoc] at h
  obtain ⟨boxes, rest⟩ := Box.append_inj (noStart hs) (noStart hs') h
  have drawn := congrArg (List.filterMap edge?) rest
  rw [edges hs, edges hs'] at drawn
  have sameEdges : p.edges = q.edges := by
    rw [← hp.filter_edges, ← hq.filter_edges, drawn, boxes]
  have sameLinks : p.links.map Link.edge = q.links.map Link.edge := by
    rw [← hp.filter_links, ← hq.filter_links, drawn, boxes]
  cases p
  cases q
  simp_all [Link.edge_injective.list_map.eq_iff]

end Picture

end Swimlane
