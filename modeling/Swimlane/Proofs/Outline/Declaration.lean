import Swimlane.Proofs.Outline.Growth

/-!
# Declarations

A declaring change puts one element into the current lane and books it in every table of the draft.
The ways to declare an element differ in what they log, not in what they book.

## Main definitions

* `Draft.Books`: a draft with one more element in its tables.

## Main statements

* `Draft.Declares.exists_books`: every declaring change books one element;
* `Draft.Books.forall_mem_elements`, `Draft.Books.exists_mem_elements`: the elements behind it.
-/

namespace Swimlane

namespace Draft

/-- A line books an element in a lane: the element stands where the line stands, with a free id, and
its id base, the warning about it, the arrow of the line and its side of a message are recorded. -/
structure Books (l : Line) (d d' : Draft) (lane : LaneHeader) (e : Element) : Prop where
  lanes : d'.lanes = d.lanes
  current : d.current = some lane
  current' : d'.current = some lane
  owner : e.lane = lane.id
  id : e.id = Identifier.fresh d.ids (e.kind.idBase lane.name e.label)
  order : e.order = d.elements.length
  line : e.line = l.number
  span : e.span = l.span
  elements : ∀ {β : Type} {f : Element → β}, (∀ x x', x.Grows x' → f x' = f x) →
    d'.elements.map f = d.elements.map f ++ [f e]
  bases : d'.bases = d.bases ++ [(lane.id, e.kind.idBase lane.name e.label)]
  diagnostics : d'.diagnostics = d.diagnostics ++ d.duplicateWarning lane e
  references : ∃ arrows, d'.references = d.references ++ arrows ∧
    ∀ r ∈ arrows, r.lane = lane.id ∧ r.line = l.number ∧ r.span = l.span
  waiting : ∀ m ∈ d'.waiting, m ∈ d.waiting ∨ m.line = l.number ∧ m.span = l.span

variable {l : Line} {d d' : Draft} {lane : LaneHeader}

theorem place_of_mem_arrowOf {e : Element} {r : Reference} (h : r ∈ arrowOf lane l e) :
    r.lane = lane.id ∧ r.line = l.number ∧ r.span = l.span := by
  obtain ⟨arrow, -, rfl⟩ := List.mem_map.1 h
  exact ⟨rfl, rfl, rfl⟩

theorem place_of_mem_waitingAfter {waiting : List WaitingMessage} {e : Element}
    {m : WaitingMessage} (h : m ∈ waitingAfter waiting l e) :
    m ∈ waiting ∨ m.line = l.number ∧ m.span = l.span := by
  unfold waitingAfter messageOf? at h
  split at h
  · exact .inl h
  · next own message =>
    split at message
    · obtain rfl := Option.some.inj message
      split at h
      · rcases List.mem_append.1 h with old | new
        · exact .inl old
        · exact .inr (List.mem_singleton.1 new ▸ ⟨rfl, rfl⟩)
      · exact .inl (List.mem_of_mem_erase h)
    · cases message

theorem books_declare (hl : d.current = some lane) (label : String) (kind : ElementKind) :
    Books l d (d.declare lane (d.newElement lane l label kind)) lane
      (d.newElement lane l label kind) where
  lanes := rfl
  current := hl
  current' := hl
  owner := rfl
  id := rfl
  order := rfl
  line := rfl
  span := rfl
  elements := fun _ => by simp [declare]
  bases := rfl
  diagnostics := rfl
  references := ⟨[], by simp [declare], by simp⟩
  waiting := fun m hm => .inl hm

theorem books_addNode (hl : d.current = some lane) (label : String) (kind : ElementKind) :
    Books l d (d.addNode lane l label kind) lane (d.newElement lane l label kind) where
  lanes := by simp
  current := hl
  current' := by simp [hl]
  owner := rfl
  id := rfl
  order := rfl
  line := rfl
  span := rfl
  elements := fun _ => by simp
  bases := by rw [addNode_eq]; rfl
  diagnostics := by rw [addNode_eq]
  references := ⟨_, addNode_references .., fun _ => place_of_mem_arrowOf⟩
  waiting := fun m hm => place_of_mem_waitingAfter (addNode_waiting d lane l label kind ▸ hm)

theorem books_addBranch (hl : d.current = some lane) (g : OpenGateway) (outer : List OpenGateway)
    (sign : Sign) (label : Option String) (text : String) :
    Books l d (d.addBranch lane l g outer sign label text) lane
      (d.newElement lane l text .task) where
  lanes := by simp
  current := hl
  current' := by simp [hl]
  owner := rfl
  id := rfl
  order := rfl
  line := rfl
  span := rfl
  elements := fun hf => by
    rw [addBranch_elements, map_modify_addBranch hf, List.map_append, List.map_singleton]
  bases := by rw [addBranch_eq]; rfl
  diagnostics := by rw [addBranch_eq]
  references := ⟨_, addBranch_references .., fun _ => place_of_mem_arrowOf⟩
  waiting := fun m hm => .inl (by simpa using hm)

/-- Every declaring change books one element. -/
theorem Declares.exists_books (h : Declares l d d') : ∃ lane e, Books l d d' lane e := by
  cases h with
  | node hl => exact ⟨_, _, books_addNode hl _ _⟩
  | branch sign label text hl => exact ⟨_, _, books_addBranch hl _ _ sign label text⟩
  | aside label hl => exact ⟨_, _, books_declare hl label _⟩

section

variable {e : Element} (h : Books l d d' lane e) {p : Element → Prop}
  (hp : ∀ x x', x.Grows x' → (p x' ↔ p x))

include h hp

/-- What branches do not matter for holds of all elements when it held before and holds of the new
one. -/
theorem Books.forall_mem_elements :
    (∀ x ∈ d'.elements, p x) ↔ (∀ x ∈ d.elements, p x) ∧ p e := by
  have all (es : List Element) : (∀ q ∈ es.map p, q) ↔ ∀ x ∈ es, p x := List.forall_mem_map
  rw [← all, h.elements fun x x' grows => propext (hp x x' grows), List.forall_mem_append, all,
    List.forall_mem_singleton]

theorem Books.exists_mem_elements :
    (∃ x ∈ d'.elements, p x) ↔ (∃ x ∈ d.elements, p x) ∨ p e := by
  have negated := h.forall_mem_elements (p := fun x => ¬ p x) fun x x' grows =>
    not_congr (hp x x' grows)
  grind

end

end Draft

end Swimlane
