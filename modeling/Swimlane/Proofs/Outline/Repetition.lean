import Swimlane.Proofs.Outline.Declaration
import Swimlane.Proofs.Outline.Registry

/-!
# Repeated labels

The id of an element is made from its id base. A draft keeps the id bases of all elements, and warns
of an element whose lane has its base already. What it keeps and what it warns of can be told from
the elements alone.

## Main definitions

* `Element.stem`, `LaneHeader.base`: the id base of an element;
* `Draft.Repeats`, `Draft.repetition?`: an element whose lane has its id base already, and the
  warning about it;
* `Draft.Tallied`: a draft whose id bases and warnings are those of its elements.

## Main statements

* `Draft.Prepares.tallied`, `Draft.Books.tallied`: changes keep the tally;
* `Outline.tallied_finished`: so it is kept for every list of lines.
-/

namespace Swimlane

/-- What the id of an element is made from beside its lane. -/
def Element.stem (e : Element) : String :=
  match e.kind with
  | .message .send text => slug ("send: " ++ text)
  | .message .receive text => slug ("receive: " ++ text)
  | .dataObject _ => "data_" ++ slug e.label
  | .note _ => "note_" ++ slug (String.ofList (e.label.toList.take 20))
  | .task | .gateway _ | .startEvent | .endEvent => slug e.label

/-- The id base of an element in a lane. -/
def LaneHeader.base (lane : LaneHeader) (e : Element) : String := slug lane.name ++ "_" ++ e.stem

theorem LaneHeader.idBase_eq_base (lane : LaneHeader) (e : Element) :
    e.kind.idBase lane.name e.label = lane.base e := by
  rcases e with ⟨_, _, _, _, _, _, _ | _ | ⟨_ | _, _⟩ | _ | _ | _ | _⟩ <;> rfl

theorem Element.Grows.stem {e e' : Element} (h : e.Grows e') : e'.stem = e.stem := by
  obtain ⟨kind, grows, rfl⟩ := h
  rw [Element.stem, Element.stem]
  generalize e.kind = old at grows ⊢
  cases grows <;> rfl

theorem ElementKind.Grows.isRepeatable {a b : ElementKind} (h : a.Grows b) :
    b.isRepeatable = a.isRepeatable := by
  cases h <;> rfl

/-! ## The lane of an element -/

namespace LaneHeader

variable {lanes lanes' : List LaneHeader} {e : Element}

/-- The lane of an element, told by its id. -/
def laneOf (lanes : List LaneHeader) (e : Element) : LaneHeader :=
  (lanes.find? (·.id = e.lane)).getD ⟨e.lane, ""⟩

theorem laneOf_eq {lane : LaneHeader} (nodup : (lanes.map (·.id)).Nodup) (hl : lane ∈ lanes)
    (own : e.lane = lane.id) : laneOf lanes e = lane := by
  cases found : lanes.find? (·.id = e.lane) with
  | none => simpa [own] using List.find?_eq_none.1 found lane hl
  | some lane' =>
    have same : lane'.id = lane.id := own ▸ by simpa using List.find?_some found
    rw [laneOf, found, Option.getD_some]
    exact List.inj_on_of_nodup_map nodup (List.mem_of_find?_eq_some found) hl same

/-- Lanes that are opened later are not asked for. -/
theorem laneOf_of_prefix (h : lanes <+: lanes') (known : e.lane ∈ lanes.map (·.id)) :
    laneOf lanes' e = laneOf lanes e := by
  obtain ⟨more, rfl⟩ := h
  have found : (lanes.find? (·.id = e.lane)).isSome := by
    obtain ⟨lane, hl, own⟩ := List.mem_map.1 known
    exact List.find?_isSome.2 ⟨lane, hl, by simpa using own⟩
  rw [laneOf, laneOf, List.find?_append, Option.or_of_isSome found]

end LaneHeader

open LaneHeader (laneOf)

namespace Draft

variable {l : Line} {d d' : Draft} {lane : LaneHeader} {e : Element}

/-- The id base of an element of a draft. -/
def base (d : Draft) (e : Element) : String := (laneOf d.lanes e).base e

theorem base_grows (d : Draft) {e e' : Element} (h : e.Grows e') : d.base e' = d.base e := by
  rw [base, base, LaneHeader.base, LaneHeader.base, laneOf, laneOf, h.lane, h.stem]

/-- An element may not be repeated, and its lane has an earlier element with the same id base. -/
def Repeats (d : Draft) (e : Element) : Prop :=
  e.kind.isRepeatable = false ∧
    ∃ x ∈ d.elements, x.order < e.order ∧ x.lane = e.lane ∧ d.base x = d.base e

instance (d : Draft) (e : Element) : Decidable (d.Repeats e) :=
  inferInstanceAs (Decidable (_ ∧ ∃ x ∈ d.elements, _))

/-- The warning about an element that repeats another one. -/
def repetition? (d : Draft) (e : Element) : Option Diagnostic :=
  if d.Repeats e then
    some ((Finding.duplicateLabel e.label (laneOf d.lanes e).name).toDiagnostic e.line e.span)
  else none

theorem repeats_grows (d : Draft) {e e' : Element} (h : e.Grows e') :
    d.Repeats e' ↔ d.Repeats e := by
  rw [Repeats, Repeats, h.kind.isRepeatable, h.order, h.lane, d.base_grows h]

theorem repetition?_grows (d : Draft) {e e' : Element} (h : e.Grows e') :
    d.repetition? e' = d.repetition? e := by
  simp only [repetition?, repeats_grows d h, laneOf, h.lane, h.label, h.line, h.span]

/-- The id bases and warnings of a draft are those of its elements, and an element has its id base
for an id where that is free. -/
structure Tallied (d : Draft) : Prop where
  bases : d.bases = d.elements.map fun e => (e.lane, d.base e)
  warnings : d.diagnostics.filter (·.kind = .duplicateLabel) = d.elements.filterMap d.repetition?
  ids : ∀ e ∈ d.elements, d.base e ∉ d.lanes.map (·.id) →
    (∀ x ∈ d.elements, x.order < e.order → x.id ≠ d.base e) → e.id = d.base e

theorem tallied_empty : Tallied {} where
  bases := rfl
  warnings := rfl
  ids := by simp

/-- Further lanes and other warnings do not matter. -/
theorem Tallied.congr (h : d.Tallied) (hr : d.Registered) (lanes : d.lanes <+: d'.lanes)
    (elements : d'.elements = d.elements) (bases : d'.bases = d.bases)
    (warnings : d'.diagnostics.filter (·.kind = .duplicateLabel) =
      d.diagnostics.filter (·.kind = .duplicateLabel)) : d'.Tallied := by
  have owners (e : Element) (he : e ∈ d.elements) : laneOf d'.lanes e = laneOf d.lanes e :=
    LaneHeader.laneOf_of_prefix lanes (hr.lanes e.lane (List.mem_map_of_mem he))
  have base' (e : Element) (he : e ∈ d.elements) : d'.base e = d.base e := by
    rw [base, base, owners e he]
  refine ⟨?_, ?_, ?_⟩
  · rw [bases, elements, h.bases]
    exact List.map_congr_left fun e he => by rw [base' e he]
  · rw [warnings, elements, h.warnings]
    refine List.filterMap_congr fun e he => ?_
    have same : d'.Repeats e ↔ d.Repeats e := by
      rw [Repeats, Repeats, elements, base' e he]
      refine and_congr_right fun _ => exists_congr fun x => and_congr_right fun hx => ?_
      rw [base' x hx]
    simp only [repetition?, same, owners e he]
  · intro e he free first
    rw [elements] at he first
    rw [base' e he] at free first ⊢
    exact h.ids e he (fun taken => free ((lanes.map _).subset taken)) first

theorem Closes.tallied (h : Closes d d') (hd : d.Tallied) : d'.Tallied := by
  cases h <;> exact { hd with }

theorem Prepares.tallied (h : Prepares l d d') (hr : d.Registered) (hd : d.Tallied) :
    d'.Tallied := by
  cases h with
  | closed h => exact h.tallied hd
  | named | broken | connected => exact { hd with }
  | warned f hf =>
    refine hd.congr hr (List.prefix_refl _) rfl rfl ?_
    have other : ¬ f.kind = .duplicateLabel := hf.2
    simp [warn, Finding.toDiagnostic, other]
  | entered name =>
    refine hd.congr hr (openLane_lanes d name) (openLane_elements d name) ?_
      (by rw [openLane_diagnostics])
    unfold openLane
    split <;> rfl

theorem Registered.order_lt (h : d.Registered) {x : Element} (hx : x ∈ d.elements) :
    x.order < d.elements.length := by
  have mem : x.order ∈ d.elements.map (·.order) := List.mem_map_of_mem hx
  rwa [h.orders, List.mem_range] at mem

section

variable (h : Books l d d' lane e)

include h

theorem Books.filterMap_elements {β : Type} {f : Element → Option β}
    (hf : ∀ x x', x.Grows x' → f x' = f x) :
    d'.elements.filterMap f = d.elements.filterMap f ++ (f e).toList := by
  have split (es : List Element) : es.filterMap f = (es.map f).filterMap fun x => x := by
    rw [List.filterMap_map]
    rfl
  rw [split, h.elements hf, List.filterMap_append, ← split]
  cases f e <;> rfl

/-- The new element is the last one, so it is repeated by none of those before it. -/
theorem Books.repeats_iff {x : Element} (hx : x.order ≤ e.order) :
    d'.Repeats x ↔ x.kind.isRepeatable = false ∧
      ∃ y ∈ d.elements, y.order < x.order ∧ y.lane = x.lane ∧ d'.base y = d'.base x := by
  have elements := h.exists_mem_elements
    (p := fun y => y.order < x.order ∧ y.lane = x.lane ∧ d'.base y = d'.base x)
    fun y y' grows => by rw [grows.order, grows.lane, d'.base_grows grows]
  rw [Repeats, elements]
  have last : ¬ e.order < x.order := Nat.not_lt.2 hx
  simp [last]

variable (hr : d.Registered)

include hr

theorem Books.laneOf_eq : laneOf d'.lanes e = lane := by
  rw [h.lanes]
  exact LaneHeader.laneOf_eq hr.laneIds_nodup (hr.current lane h.current) h.owner

theorem Books.base_eq : d'.base e = lane.base e := by rw [base, h.laneOf_eq hr]

/-- The warning that is given is the one about the repetition. -/
theorem Books.duplicateWarning_eq (hd : d.Tallied) :
    d.duplicateWarning lane e = (d'.repetition? e).toList := by
  have known : (lane.id, lane.base e) ∈ d.bases ↔
      ∃ y ∈ d.elements, y.order < e.order ∧ y.lane = e.lane ∧ d'.base y = d'.base e := by
    rw [hd.bases, List.mem_map, h.base_eq hr, h.owner]
    refine exists_congr fun y => and_congr_right fun hy => ?_
    have earlier := h.order ▸ hr.order_lt hy
    rw [base, base, h.lanes, Prod.mk.injEq]
    exact ⟨fun same => ⟨earlier, same⟩, fun same => same.2⟩
  have repeats := h.repeats_iff (Nat.le_refl e.order)
  rw [← known] at repeats
  simp only [duplicateWarning, repetition?, repeats, lane.idBase_eq_base, h.laneOf_eq hr]
  grind

theorem Books.tallied (hd : d.Tallied) : d'.Tallied := by
  have owners (x : Element) : laneOf d'.lanes x = laneOf d.lanes x := by rw [h.lanes]
  have base' (x : Element) : d'.base x = d.base x := by rw [base, base, owners]
  have order (x : Element) (hx : x ∈ d.elements) : x.order < e.order := h.order ▸ hr.order_lt hx
  refine ⟨?_, ?_, ?_⟩
  · rw [h.bases, hd.bases, h.elements fun x x' grows => by rw [grows.lane, d'.base_grows grows],
      lane.idBase_eq_base, h.base_eq hr, h.owner]
    simp only [base']
  · have own : (d.duplicateWarning lane e).filter (·.kind = .duplicateLabel) =
        d.duplicateWarning lane e := by
      unfold duplicateWarning
      split <;> rfl
    rw [h.diagnostics, List.filter_append, own, hd.warnings, h.duplicateWarning_eq hr hd,
      h.filterMap_elements fun _ _ => d'.repetition?_grows]
    refine congrArg (· ++ _) (List.filterMap_congr fun x hx => ?_)
    have same : d'.Repeats x ↔ d.Repeats x := by
      rw [h.repeats_iff (Nat.le_of_lt (order x hx)), Repeats]
      simp only [base']
    simp only [repetition?, same, owners]
  · have all := h.forall_mem_elements (p := fun x => d'.base x ∉ d'.lanes.map (·.id) →
      (∀ y ∈ d'.elements, y.order < x.order → y.id ≠ d'.base x) → x.id = d'.base x)
      fun x x' grows => by rw [grows.order, grows.id, d'.base_grows grows]
    have before {n : Nat} {id : String} (first : ∀ y ∈ d'.elements, y.order < n → y.id ≠ id) :
        ∀ y ∈ d.elements, y.order < n → y.id ≠ id :=
      ((h.forall_mem_elements fun y y' grows => by rw [grows.order, grows.id]).1 first).1
    refine all.2 ⟨fun x hx free first => ?_, fun free first => ?_⟩
    · simp only [base', h.lanes] at free first ⊢
      exact hd.ids x hx free (before first)
    · rw [h.id, lane.idBase_eq_base, ← h.base_eq hr, Identifier.fresh, if_neg]
      intro taken
      rw [hr.ids.mem_iff, List.mem_append, ← h.lanes] at taken
      rcases taken with taken | taken
      · exact free taken
      · obtain ⟨x, hx, same⟩ := List.mem_map.1 taken
        exact before first x hx (order x hx) same

end

end Draft

namespace Outline

open Draft

/-- Every draft keeps its tally. -/
theorem tallied_finished (defaultLane : String) (lines : List Line) :
    (finished defaultLane lines).Tallied := by
  have kept : (draft defaultLane lines).Registered ∧ (draft defaultLane lines).Tallied := by
    refine draft_invariant (P := fun d => d.Registered ∧ d.Tallied) defaultLane
      ⟨registered_empty, tallied_empty⟩
      (fun _ _ _ _ h hd => ⟨h.registered hd.1, h.tallied hd.1 hd.2⟩)
      fun _ _ _ _ h hd => ⟨h.registered hd.1, ?_⟩
    obtain ⟨lane, e, books⟩ := h.exists_books
    exact books.tallied hd.1 hd.2
  exact finished_invariant defaultLane (fun _ _ h => h.tallied) kept.2

end Outline

end Swimlane
