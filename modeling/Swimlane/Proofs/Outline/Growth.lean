import Swimlane.Proofs.Outline.Change

/-!
# How the elements of a draft grow

Elements are never dropped or reordered. A line appends at most one, and the only thing about an
earlier element that can change is the branch list of a gateway, which may get longer.

## Main statements

* `Draft.Declares.exists_next`: a declaring change appends one element, on its line and in the
  current lane;
* `Draft.Precedes`: elements of a draft and what has become of them in a later one;
* `Outline.lines_sublist`: the lines of the elements are lines of the text, each at most once.
-/

namespace Swimlane

open Relation (ReflTransGen)

/-! ## Elements -/

/-- What becomes of the kind of an element: a gateway may get further branches. -/
inductive ElementKind.Grows : ElementKind → ElementKind → Prop
  | refl (kind : ElementKind) : Grows kind kind
  | gateway {branches more : List Branch} :
      Grows (.gateway branches) (.gateway (branches ++ more))

theorem ElementKind.Grows.trans {a b c : ElementKind} (h : a.Grows b) (h' : b.Grows c) :
    a.Grows c := by
  cases h with
  | refl => exact h'
  | gateway =>
    cases h' with
    | refl => exact .gateway
    | gateway =>
      rw [List.append_assoc]
      exact .gateway

theorem ElementKind.Grows.isFlowNode {a b : ElementKind} (h : a.Grows b) :
    b.isFlowNode = a.isFlowNode := by
  cases h <;> rfl

theorem ElementKind.Grows.name {a b : ElementKind} (h : a.Grows b) : b.name = a.name := by
  cases h <;> rfl

/-- What becomes of an element. -/
def Element.Grows (e e' : Element) : Prop := ∃ kind, e.kind.Grows kind ∧ e' = { e with kind }

namespace Element.Grows

variable {e e' : Element}

theorem refl (e : Element) : e.Grows e := ⟨e.kind, .refl _, rfl⟩

theorem trans {a b c : Element} (h : a.Grows b) (h' : b.Grows c) : a.Grows c := by
  obtain ⟨k, hk, rfl⟩ := h
  obtain ⟨k', hk', rfl⟩ := h'
  exact ⟨k', hk.trans hk', rfl⟩

theorem addBranch (e : Element) (branch : Branch) : e.Grows (e.addBranch branch) := by
  refine ⟨e.kind.addBranch branch, ?_, rfl⟩
  cases e.kind with
  | gateway branches => exact .gateway
  | _ => exact .refl _

theorem id (h : e.Grows e') : e'.id = e.id := by obtain ⟨k, -, rfl⟩ := h; rfl

theorem lane (h : e.Grows e') : e'.lane = e.lane := by obtain ⟨k, -, rfl⟩ := h; rfl

theorem order (h : e.Grows e') : e'.order = e.order := by obtain ⟨k, -, rfl⟩ := h; rfl

theorem line (h : e.Grows e') : e'.line = e.line := by obtain ⟨k, -, rfl⟩ := h; rfl

theorem span (h : e.Grows e') : e'.span = e.span := by obtain ⟨k, -, rfl⟩ := h; rfl

theorem label (h : e.Grows e') : e'.label = e.label := by obtain ⟨k, -, rfl⟩ := h; rfl

theorem kind (h : e.Grows e') : e.kind.Grows e'.kind := by obtain ⟨k, hk, rfl⟩ := h; exact hk

/-- Only gateways change. -/
theorem kind_eq_iff (h : e.Grows e') {kind : ElementKind}
    (other : ∀ branches, kind ≠ .gateway branches) : e'.kind = kind ↔ e.kind = kind := by
  obtain ⟨_, grows, rfl⟩ := h
  generalize e.kind = old at grows
  cases grows with
  | refl => rfl
  | gateway =>
    exact ⟨fun same => absurd same.symm (other _), fun same => absurd same.symm (other _)⟩

theorem isFlowNode (h : e.Grows e') : e'.isFlowNode = e.isFlowNode := h.kind.isFlowNode

end Element.Grows

namespace Draft

/-! ## One change -/

/-- The element that a line declares next: it has a free id and belongs to the current lane. A note
is attached to the last element that is not a note. -/
structure IsNext (d : Draft) (l : Line) (e : Element) : Prop where
  lane : ∃ lane, d.current = some lane ∧ e.lane = lane.id ∧
    e.id = Identifier.fresh d.ids (e.kind.idBase lane.name e.label)
  order : e.order = d.elements.length
  line : e.line = l.number
  kind : e.kind.IsNew e.label ∨ (∃ associated, e.kind = .dataObject associated) ∨
    e.kind = .note (d.lastSubject?.map (·.id))

theorem isNext_newElement {d : Draft} {lane : LaneHeader} (hl : d.current = some lane) (l : Line)
    {label : String} {kind : ElementKind}
    (hk : kind.IsNew label ∨ (∃ associated, kind = .dataObject associated) ∨
      kind = .note (d.lastSubject?.map (·.id))) : IsNext d l (d.newElement lane l label kind) where
  lane := ⟨lane, hl, rfl, rfl⟩
  order := rfl
  line := rfl
  kind := hk

/-- Properties that branches do not touch are read off the elements as if none had been added. -/
theorem map_modify_addBranch {β : Type} {f : Element → β} (hf : ∀ e e', e.Grows e' → f e' = f e)
    (es : List Element) (i : Nat) (branch : Branch) :
    (es.modify i (·.addBranch branch)).map f = es.map f := by
  apply List.ext_getElem?
  intro j
  simp only [List.getElem?_map, List.getElem?_modify]
  cases es[j]? with
  | none => split <;> rfl
  | some e =>
    split
    · simp [hf e _ (.addBranch e branch)]
    · rfl

theorem filterMap_modify_addBranch {β : Type} {f : Element → Option β}
    (hf : ∀ e e', e.Grows e' → f e' = f e) (es : List Element) (i : Nat) (branch : Branch) :
    (es.modify i (·.addBranch branch)).filterMap f = es.filterMap f := by
  have same := congrArg (List.filterMap id) (map_modify_addBranch hf es i branch)
  rwa [List.filterMap_map, List.filterMap_map, Function.id_comp] at same

/-- A declaring change appends one element and takes its id. -/
theorem Declares.exists_next {l : Line} {d d' : Draft} (h : Declares l d d') :
    ∃ e, IsNext d l e ∧ d'.ids = d.ids ++ [e.id] ∧ d'.lanes = d.lanes ∧ d'.current = d.current ∧
      ∀ {β : Type} {f : Element → β}, (∀ x x', x.Grows x' → f x' = f x) →
        d'.elements.map f = d.elements.map f ++ [f e] := by
  cases h with
  | @node lane label kind hl hk =>
    refine ⟨d.newElement lane l label kind, isNext_newElement hl l (.inl hk), by simp, by simp,
      by simp, fun _ => by simp⟩
  | @branch lane g outer sign label text hl =>
    refine ⟨d.newElement lane l text .task, isNext_newElement hl l (.inl trivial), by simp, by simp,
      by simp, fun hf => ?_⟩
    rw [addBranch_elements, map_modify_addBranch hf, List.map_append, List.map_singleton]
  | @aside lane kind label hl hk =>
    refine ⟨d.newElement lane l label kind, isNext_newElement hl l (.inr hk), ?_, rfl, rfl,
      fun _ => by simp [declare]⟩
    simp [declare, newElement, Identifier.allocate]

/-- Preparing changes leave the elements alone. -/
theorem Prepares.elements {l : Line} {d d' : Draft} (h : Prepares l d d') :
    d'.elements = d.elements := by
  cases h with
  | warned | named | broken | connected => rfl
  | closed h => exact h.elements
  | entered name => exact openLane_elements d name

/-! ## Many changes -/

/-- What a draft holds is still there in a later one: its lanes, and its elements, perhaps with more
branches. -/
structure Precedes (d d' : Draft) : Prop where
  elements : ∀ (i : Nat) (e : Element), d.elements[i]? = some e →
    ∃ e', d'.elements[i]? = some e' ∧ e.Grows e'
  lanes : d.lanes <+: d'.lanes

theorem Precedes.refl (d : Draft) : d.Precedes d where
  elements := fun _ e h => ⟨e, h, .refl e⟩
  lanes := List.prefix_refl _

theorem Precedes.trans {a b c : Draft} (h : a.Precedes b) (h' : b.Precedes c) : a.Precedes c where
  elements := by
    intro i e he
    obtain ⟨e', he', grows⟩ := h.elements i e he
    obtain ⟨e'', he'', grows'⟩ := h'.elements i e' he'
    exact ⟨e'', he'', grows.trans grows'⟩
  lanes := h.lanes.trans h'.lanes

theorem Precedes.mem {d d' : Draft} (h : d.Precedes d') {e : Element} (he : e ∈ d.elements) :
    ∃ e' ∈ d'.elements, e.Grows e' := by
  obtain ⟨i, hi⟩ := List.getElem?_of_mem he
  obtain ⟨e', he', grows⟩ := h.elements i e hi
  exact ⟨e', List.mem_of_getElem? he', grows⟩

/-- What branches do not touch is read off the elements of the later draft first. -/
theorem Precedes.map_elements {d d' : Draft} (h : d.Precedes d') {β : Type} {f : Element → β}
    (hf : ∀ e e', e.Grows e' → f e' = f e) : d.elements.map f <+: d'.elements.map f := by
  refine List.prefix_iff_getElem?.2 fun i hi => ?_
  have hi : i < d.elements.length := by simpa using hi
  obtain ⟨e', he', grows⟩ := h.elements i d.elements[i] (List.getElem?_eq_getElem hi)
  simp [he', hf _ _ grows]

theorem precedes_of_elements_eq {d d' : Draft} (elements : d'.elements = d.elements)
    (lanes : d.lanes <+: d'.lanes) : d.Precedes d' where
  elements := fun _ e he => ⟨e, elements ▸ he, .refl e⟩
  lanes := lanes

theorem Closes.lanes {d d' : Draft} (h : Closes d d') : d'.lanes = d.lanes := by
  cases h <;> rfl

theorem Closes.precedes {d d' : Draft} (h : Closes d d') : d.Precedes d' :=
  precedes_of_elements_eq h.elements (h.lanes ▸ List.prefix_refl _)

theorem precedes_of_closes {d d' : Draft} (h : ReflTransGen Closes d d') : d.Precedes d' :=
  invariant_of_changes (fun _ _ step earlier => earlier.trans step.precedes) h (.refl d)

theorem openLane_lanes (d : Draft) (name : String) : d.lanes <+: (d.openLane name).lanes := by
  unfold openLane
  split
  · exact List.prefix_refl _
  · exact List.prefix_append _ _

theorem Prepares.precedes {l : Line} {d d' : Draft} (h : Prepares l d d') : d.Precedes d' := by
  refine precedes_of_elements_eq h.elements ?_
  cases h with
  | warned | named | broken | connected => exact List.prefix_refl _
  | closed h => exact h.precedes.lanes
  | entered name => exact openLane_lanes d name

theorem getElem?_append_of_some {es : List Element} {i : Nat} {e : Element} (h : es[i]? = some e)
    (more : List Element) : (es ++ more)[i]? = some e := by
  rw [List.getElem?_append_left (List.getElem?_eq_some_iff.1 h).1, h]

theorem Declares.precedes {l : Line} {d d' : Draft} (h : Declares l d d') : d.Precedes d' := by
  obtain ⟨-, -, -, lanes, -⟩ := h.exists_next
  refine ⟨fun i e he => ?_, lanes ▸ List.prefix_refl _⟩
  cases h with
  | node => exact ⟨e, by rw [addNode_elements]; exact getElem?_append_of_some he _, .refl e⟩
  | @branch lane g outer sign label text =>
    rw [addBranch_elements, List.getElem?_modify, getElem?_append_of_some he]
    by_cases hi : g.slot = i
    · exact ⟨_, by simp only [if_pos hi]; rfl, .addBranch e _⟩
    · exact ⟨e, by simp only [if_neg hi]; rfl, .refl e⟩
  | aside => exact ⟨e, getElem?_append_of_some he _, .refl e⟩

theorem precedes_of_prepares {l : Line} {d d' : Draft} (h : ReflTransGen (Prepares l) d d') :
    d.Precedes d' :=
  invariant_of_changes (fun _ _ step earlier => earlier.trans step.precedes) h (.refl d)

theorem precedes_consume {d : Draft} (defaultLane : String) (l : Line) (hd : d.Anchored) :
    d.Precedes (d.consume defaultLane l) := by
  obtain ⟨d₁, prepares, same | declares⟩ := consume_changes defaultLane l hd
  · exact same ▸ precedes_of_prepares prepares
  · exact (precedes_of_prepares prepares).trans declares.precedes

theorem precedes_run (defaultLane : String) {d : Draft} (hd : d.Anchored) (ls : List Line) :
    d.Precedes (d.run defaultLane ls) := by
  induction ls generalizing d with
  | nil => exact .refl d
  | cons l ls ih =>
    exact (precedes_consume defaultLane l hd).trans (ih (anchored_consume defaultLane l hd))

theorem elements_eq_of_prepares {l : Line} {d d' : Draft} (h : ReflTransGen (Prepares l) d d') :
    d'.elements = d.elements :=
  invariant_of_changes (P := fun x => x.elements = d.elements)
    (fun _ _ step same => step.elements.trans same) h rfl

end Draft

namespace Outline

open Draft

/-- The lines of the elements are among the lines of the text, each at most once. -/
theorem lines_sublist (defaultLane : String) (ls : List Line) :
    ((draft defaultLane ls).elements.map (·.line)).Sublist (ls.map (·.number)) := by
  induction ls using List.reverseRecOn with
  | nil => exact List.Sublist.refl _
  | append_singleton ls l ih =>
    rw [draft_append, List.map_append, List.map_singleton]
    obtain ⟨d₁, prepares, same | declares⟩ :=
      consume_changes defaultLane l (anchored_draft defaultLane ls)
    · rw [same, elements_eq_of_prepares prepares]
      exact ih.trans (List.sublist_append_left _ _)
    · obtain ⟨e, next, -, -, -, map⟩ := declares.exists_next
      rw [map fun _ _ h => h.line, elements_eq_of_prepares prepares, next.line]
      exact ih.append (List.Sublist.refl _)

end Outline

end Swimlane
