import Mathlib.Data.List.Perm.Basic
import Swimlane.Flow
import Swimlane.Proofs.Outline.Registry
import Swimlane.Proofs.Source.Numbering

/-!
# The document of a draft

The document distributes the elements of a draft over its lanes. Nothing is lost on the way: put in
order again, the elements of the lanes are those of the draft.

## Main statements

* `Draft.laneElements_perm`, `Draft.document_elements`: the elements of the document;
* `Draft.find?_eq_some`, `Draft.findLast?_eq_some`: looking up an id in the document;
* `ProcessGraph.ofText_document_consistent`: ids, positions and lines of a document.
-/

namespace Swimlane

namespace StableSort

variable {α : Type}

theorem pairwise_byKey (key : α → Nat) (l : List α) :
    (byKey key l).Pairwise fun x y => key x ≤ key y := by
  have sorted : (byKey key l).Pairwise fun x y => decide (key x ≤ key y) = true := by
    apply pairwise_sort
    · intro a b
      simpa using Nat.le_total (key a) (key b)
    · intro a b c hab hbc
      simp only [decide_eq_true_eq] at hab hbc ⊢
      exact hab.trans hbc
  exact sorted.imp of_decide_eq_true

/-- A list in order is the arrangement of its elements in strict order, if there is one. -/
theorem eq_of_perm {key : α → Nat} {l l' : List α} (h : l'.Perm l)
    (hl' : l'.Pairwise fun x y => key x ≤ key y) (hl : l.Pairwise fun x y => key x < key y) :
    l' = l := by
  refine List.Perm.eq_of_pairwise ?_ hl' (hl.imp Nat.le_of_lt) h
  intro a b ha hb hab hba
  have distinct : (l.map key).Nodup := (List.pairwise_map.2 hl).imp Nat.ne_of_lt
  exact List.inj_on_of_nodup_map distinct (h.mem_iff.1 ha) hb (Nat.le_antisymm hab hba)

/-- A list in strict order is what sorting any arrangement of it gives. -/
theorem byKey_eq_of_perm {key : α → Nat} {l l' : List α} (h : l'.Perm l)
    (hl : l.Pairwise fun x y => key x < key y) : byKey key l' = l :=
  eq_of_perm ((perm_sort _ l').trans h) (pairwise_byKey key l') hl

/-- Sorting leaves those elements alone that are in strict order. -/
theorem filter_byKey {key : α → Nat} {p : α → Bool} {l : List α}
    (hl : (l.filter p).Pairwise fun x y => key x < key y) :
    (byKey key l).filter p = l.filter p :=
  eq_of_perm ((perm_sort _ l).filter p) ((pairwise_byKey key l).filter p) hl

end StableSort

/-- Sorting a list into classes keeps its elements, when every element belongs to a class. -/
theorem flatMap_filter_perm {α κ : Type} [DecidableEq κ] (f : α → κ) {classes : List κ}
    (hc : classes.Nodup) {l : List α} (h : ∀ a ∈ l, f a ∈ classes) :
    (classes.flatMap fun k => l.filter (f · = k)).Perm l := by
  induction classes generalizing l with
  | nil =>
    cases l with
    | nil => exact List.Perm.refl _
    | cons a l => exact absurd (h a (by simp)) (by simp)
  | cons k ks ih =>
    obtain ⟨hk, hks⟩ := List.nodup_cons.1 hc
    have others : (ks.flatMap fun k' => l.filter (f · = k')) =
        ks.flatMap fun k' => (l.filter fun a => !decide (f a = k)).filter (f · = k') := by
      refine List.flatMap_congr fun k' hk' => ?_
      rw [List.filter_filter]
      refine List.filter_congr fun a _ => ?_
      have : f a = k' → ¬ f a = k := fun h h' => hk (h' ▸ h ▸ hk')
      grind
    rw [List.flatMap_cons, others]
    refine (List.Perm.append_left _ (ih hks ?_)).trans (List.filter_append_perm _ l)
    intro a ha
    obtain ⟨ha, hne⟩ := List.mem_filter.1 ha
    exact (List.mem_cons.1 (h a ha)).resolve_left (by simpa using hne)

namespace Draft

variable {d : Draft}

/-- Every element stands in exactly one lane of the document. -/
theorem laneElements_perm (h : d.Registered) : d.document.laneElements.Perm d.elements := by
  have perm := flatMap_filter_perm (·.lane) h.laneIds_nodup (l := d.elements)
    fun e he => h.lanes e.lane (List.mem_map_of_mem he)
  simpa [document, Document.laneElements, List.flatMap_map] using perm

theorem pairwise_order (h : d.Registered) :
    d.elements.Pairwise fun x y => x.order < y.order := by
  rw [← List.pairwise_map, h.orders]
  exact List.pairwise_lt_range

/-- In the order of their declaration, the elements of the document are those of the draft. -/
theorem document_elements (h : d.Registered) : d.document.elements = d.elements :=
  StableSort.byKey_eq_of_perm (laneElements_perm h) (pairwise_order h)

theorem mem_laneElements (h : d.Registered) {e : Element} :
    e ∈ d.document.laneElements ↔ e ∈ d.elements :=
  (laneElements_perm h).mem_iff

/-- Looking up an id in an arrangement of the elements finds the one element that has it. -/
theorem find?_id_eq_some (h : d.Registered) {es : List Element} (hes : ∀ e, e ∈ es ↔ e ∈ d.elements)
    {id : String} {e : Element} :
    es.find? (·.id = id) = some e ↔ e ∈ d.elements ∧ e.id = id := by
  constructor
  · intro hf
    exact ⟨(hes e).1 (List.mem_of_find?_eq_some hf), by simpa using List.find?_some hf⟩
  · rintro ⟨he, rfl⟩
    cases hf : es.find? (·.id = e.id) with
    | none => simpa using List.find?_eq_none.1 hf e ((hes e).2 he)
    | some e' =>
      have he' := (hes e').1 (List.mem_of_find?_eq_some hf)
      have hid : e'.id = e.id := by simpa using List.find?_some hf
      rw [List.inj_on_of_nodup_map h.elementIds_nodup he' he hid]

theorem find?_eq_some (h : d.Registered) {id : String} {e : Element} :
    d.document.find? id = some e ↔ e ∈ d.elements ∧ e.id = id :=
  find?_id_eq_some h fun _ => mem_laneElements h

theorem findLast?_eq_some (h : d.Registered) {id : String} {e : Element} :
    d.document.findLast? id = some e ↔ e ∈ d.elements ∧ e.id = id :=
  find?_id_eq_some h fun _ => List.mem_reverse.trans (mem_laneElements h)

end Draft

/-! ## Documents of texts -/

/-- One namespace of well-formed ids, positions without gaps, elements in order inside their own
lanes, and lines that grow with the positions. -/
structure Document.IsConsistent (doc : Document) : Prop where
  ids_nodup : (doc.lanes.map (·.id) ++ doc.laneElements.map (·.id)).Nodup
  ids_wellFormed : ∀ id ∈ doc.lanes.map (·.id) ++ doc.laneElements.map (·.id),
    Identifier.IsWellFormed id
  orders : (doc.laneElements.map (·.order)).Perm (List.range doc.size)
  increasing : ∀ lane ∈ doc.lanes, (lane.elements.map (·.order)).Pairwise (· < ·)
  owned : ∀ lane ∈ doc.lanes, ∀ e ∈ lane.elements, e.lane = lane.id
  sorted : doc.elements.map (·.order) = List.range doc.size
  lines : (doc.elements.map (·.line)).Pairwise (· < ·)

/-- A registered draft whose lines grow has a consistent document. -/
theorem Draft.document_isConsistent {d : Draft} (h : d.Registered)
    (lines : (d.elements.map (·.line)).Pairwise (· < ·)) : d.document.IsConsistent := by
  have perm := laneElements_perm h
  have ids : d.ids.Perm
      (d.document.lanes.map (·.id) ++ d.document.laneElements.map (·.id)) := by
    refine h.ids.trans ?_
    have lanes : d.document.lanes.map (·.id) = d.lanes.map (·.id) := by
      simp [document, Function.comp_def]
    rw [lanes]
    exact (perm.map _).symm.append_left _
  have size : d.document.size = d.elements.length := perm.length_eq
  refine
    { ids_nodup := ids.nodup_iff.1 h.nodup
      ids_wellFormed := fun id hid => h.wellFormed id (ids.mem_iff.2 hid)
      orders := by rw [size, ← h.orders]; exact perm.map _
      increasing := ?_
      owned := ?_
      sorted := by rw [document_elements h, h.orders, size]
      lines := by rw [document_elements h]; exact lines }
  · intro lane hl
    obtain ⟨header, -, rfl⟩ := List.mem_map.1 hl
    exact List.pairwise_map.2 ((pairwise_order h).sublist List.filter_sublist)
  · intro lane hl e he
    obtain ⟨header, -, rfl⟩ := List.mem_map.1 hl
    simpa using (List.mem_filter.1 he).2

theorem Outline.finished_elements (defaultLane : String) (lines : List Line) :
    (finished defaultLane lines).elements = (draft defaultLane lines).elements :=
  Draft.closeGateways_elements ..

theorem ProcessGraph.ofText_eq_ok {options : ReadOptions} {text : String} {g : ProcessGraph}
    (h : ofText options text = .ok g) :
    ∃ o, Outline.ofText options text = .ok o ∧ g = ofOutline o := by
  unfold ofText at h
  cases ho : Outline.ofText options text with
  | error failure => simp [ho, Except.map] at h
  | ok o =>
    simp only [ho, Except.map, Except.ok.injEq] at h
    exact ⟨o, rfl, h.symm⟩

/-- The document of every text that is read is consistent. -/
theorem ProcessGraph.ofText_document_consistent (options : ReadOptions) (text : String)
    (g : ProcessGraph) (h : ofText options text = .ok g) : g.document.IsConsistent := by
  obtain ⟨o, ho, rfl⟩ := ofText_eq_ok h
  obtain ⟨document, -⟩ := Outline.ofText_eq_ok ho
  change o.document.IsConsistent
  rw [document]
  refine Draft.document_isConsistent (Outline.registered_finished _ _) ?_
  rw [Outline.finished_elements]
  exact (scan_numbers_pairwise options.maxDepth text).sublist (Outline.lines_sublist _ _)

/-- Labels whose slugs meet, also with numbered ids, get ids of their own. -/
theorem ProcessGraph.ofText_document_consistent_repeated :
    ∃ g, ofText {} "check 2\n@Default\n?ok\n  +check\ncheck\n\"check" = .ok g ∧
      g.document.laneElements.map (·.id) =
        ["default_check_2", "default_ok", "default_check", "default_check_3",
          "default_note_check"] ∧
      g.document.IsConsistent := by
  have read : ofText {} "check 2\n@Default\n?ok\n  +check\ncheck\n\"check" = .ok _ := rfl
  exact ⟨_, read, by decide +kernel, ofText_document_consistent _ _ _ read⟩

end Swimlane
