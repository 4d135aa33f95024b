import Mathlib.Data.List.Nodup
import Swimlane.Proofs.Identifier
import Swimlane.Proofs.Outline.Growth

/-!
# The registry of a draft

A draft registers every lane and every element under an id of its own, and numbers its elements in
the order of their declaration. The invariant `Registered` says so, and every draft has it.

## Main statements

* `Draft.Prepares.registered`, `Draft.Declares.registered`: changes keep the registry in order;
* `Outline.registered_finished`: so it is in order for every list of lines.
-/

namespace Swimlane

namespace Draft

/-- Lanes and elements share one table of identifiers, lanes differ by name, elements are numbered
from zero, and each stands in a lane of the draft. -/
structure Registered (d : Draft) : Prop where
  ids : d.ids.Perm (d.lanes.map (·.id) ++ d.elements.map (·.id))
  nodup : d.ids.Nodup
  wellFormed : ∀ id ∈ d.ids, Identifier.IsWellFormed id
  names : (d.lanes.map (·.name)).Nodup
  orders : d.elements.map (·.order) = List.range d.elements.length
  lanes : ∀ id ∈ d.elements.map (·.lane), id ∈ d.lanes.map (·.id)
  current : ∀ lane, d.current = some lane → lane ∈ d.lanes

theorem registered_empty : Registered {} where
  ids := List.Perm.refl _
  nodup := List.nodup_nil
  wellFormed := by simp
  names := List.nodup_nil
  orders := rfl
  lanes := by simp
  current := by simp

section

variable {d : Draft} (h : d.Registered)

include h

theorem Registered.laneIds_nodup : (d.lanes.map (·.id)).Nodup :=
  (List.nodup_append.1 (h.ids.nodup_iff.1 h.nodup)).1

theorem Registered.elementIds_nodup : (d.elements.map (·.id)).Nodup :=
  (List.nodup_append.1 (h.ids.nodup_iff.1 h.nodup)).2.1

theorem Registered.order_eq {i : Nat} {e : Element} (he : d.elements[i]? = some e) :
    e.order = i := by
  have number := congrArg (·[i]?) h.orders
  simpa [he, List.getElem?_range (List.getElem?_eq_some_iff.1 he).1] using number

/-- A new element has a new id. -/
theorem Registered.newElement_id_ne (lane : LaneHeader) (l : Line) (label : String)
    (kind : ElementKind) {e : Element} (he : e ∈ d.elements) :
    (d.newElement lane l label kind).id ≠ e.id := by
  have taken : e.id ∈ d.ids := h.ids.mem_iff.2 <| by simp [List.mem_map_of_mem he]
  intro same
  rw [← same] at taken
  exact Identifier.fresh_not_mem _ _ taken

end

/-- A free identifier may be taken. -/
theorem nodup_append_fresh {used : List String} (h : used.Nodup) (base : String) :
    (used ++ [Identifier.fresh used base]).Nodup := by
  refine List.nodup_append.2 ⟨h, List.nodup_singleton _, ?_⟩
  intro a ha b hb hab
  rw [List.mem_singleton.1 hb] at hab
  exact Identifier.fresh_not_mem used base (hab ▸ ha)

theorem wellFormed_append_fresh {used : List String} {base : String}
    (h : ∀ id ∈ used, Identifier.IsWellFormed id) (hb : Identifier.IsWellFormed base) :
    ∀ id ∈ used ++ [Identifier.fresh used base], Identifier.IsWellFormed id := by
  intro id hid
  obtain hid | hid := List.mem_append.1 hid
  · exact h id hid
  · exact List.mem_singleton.1 hid ▸ Identifier.isWellFormed_fresh hb used

theorem Registered.openLane {d : Draft} (h : d.Registered) (name : String) :
    (d.openLane name).Registered := by
  unfold Draft.openLane
  cases hf : d.lanes.find? (·.name = name) with
  | some lane =>
    refine { h with current := ?_ }
    intro lane' hl
    cases hl
    exact List.mem_of_find?_eq_some hf
  | none =>
    have unknown : name ∉ d.lanes.map (·.name) := by
      intro hn
      obtain ⟨lane, hl, hname⟩ := List.mem_map.1 hn
      simpa [hname] using List.find?_eq_none.1 hf lane hl
    have new : d.laneNamed name =
        ⟨Identifier.fresh d.ids ("lane_" ++ slug name), name⟩ := by
      simp [laneNamed, hf, Identifier.allocate]
    simp only [new, Identifier.allocate]
    refine
      { ids := ?_
        nodup := nodup_append_fresh h.nodup _
        wellFormed := wellFormed_append_fresh h.wellFormed (Identifier.isWellFormed_laneBase name)
        names := ?_
        orders := h.orders
        lanes := ?_
        current := ?_ }
    · simp only [List.map_append, List.map_singleton, List.append_assoc]
      exact (h.ids.append_right _).trans <| by
        rw [List.append_assoc]
        exact List.perm_append_comm.append_left _
    · simpa [List.nodup_append, h.names] using unknown
    · intro id hid
      simp only [List.map_append, List.mem_append]
      exact .inl (h.lanes id hid)
    · intro lane hl
      cases hl
      exact List.mem_append_right _ (List.mem_singleton.2 rfl)

theorem Closes.registered {d d' : Draft} (h : Closes d d') (hd : d.Registered) :
    d'.Registered := by
  cases h <;> exact { hd with }

theorem Prepares.registered {l : Line} {d d' : Draft} (h : Prepares l d d') (hd : d.Registered) :
    d'.Registered := by
  cases h with
  | warned | named | broken | connected => exact { hd with }
  | closed h => exact h.registered hd
  | entered name => exact hd.openLane name

theorem Declares.registered {l : Line} {d d' : Draft} (h : Declares l d d') (hd : d.Registered) :
    d'.Registered := by
  obtain ⟨e, next, ids, lanes, current, map⟩ := h.exists_next
  obtain ⟨lane, hl, hlane, hid⟩ := next.lane
  have length : d'.elements.length = d.elements.length + 1 := by
    simpa using congrArg List.length (map fun _ _ h => h.order)
  refine
    { ids := ?_
      nodup := by rw [ids, hid]; exact nodup_append_fresh hd.nodup _
      wellFormed := by
        rw [ids, hid]
        exact wellFormed_append_fresh hd.wellFormed (e.kind.isWellFormed_idBase _ _)
      names := by rw [lanes]; exact hd.names
      orders := ?_
      lanes := ?_
      current := by rw [lanes, current]; exact hd.current }
  · rw [ids, lanes, map fun _ _ h => h.id, ← List.append_assoc]
    exact hd.ids.append_right _
  · rw [map fun _ _ h => h.order, hd.orders, next.order, length, List.range_succ]
  · intro id hid
    rw [map fun _ _ h => h.lane, List.mem_append, List.mem_singleton] at hid
    rw [lanes]
    obtain hid | rfl := hid
    · exact hd.lanes id hid
    · exact hlane ▸ List.mem_map_of_mem (hd.current lane hl)

end Draft

namespace Outline

theorem registered_draft (defaultLane : String) (lines : List Line) :
    (draft defaultLane lines).Registered :=
  draft_invariant defaultLane Draft.registered_empty (fun _ _ _ _ h => h.registered)
    fun _ _ _ _ h => h.registered

theorem registered_finished (defaultLane : String) (lines : List Line) :
    (finished defaultLane lines).Registered :=
  finished_invariant defaultLane (fun _ _ h => h.registered) (registered_draft defaultLane lines)

end Outline

end Swimlane
