import Swimlane.Proofs.Outline.Ownership
import Swimlane.Proofs.Prefix
import Swimlane.Proofs.Source.Sigil

/-!
# Lanes

The lines of a text that open lanes tell everything about them: which lanes there are, in which
order, and what stands in each of them.

## Main definitions

* `Text.openings`: the lines of a text that open lanes;
* `Outline.FollowsOpenings`: an outline whose lanes are told by openings.

## Main statements

* `Text.filterMap_ofLine?_scan`: the lines of a text open lanes where its characters say so;
* `Outline.ofText_followsOpenings`: the lanes of every outline are told by its text.
-/

namespace Swimlane

namespace Text

/-- The lines of a text that open lanes. Such a line starts with `@`, and something stands behind
it. -/
def openings (text : String) : List Opening :=
  (pieces text.toList).filterMap fun p => (p.named? '@').map (⟨p.number, ·⟩)

/-- The lines of a text open lanes where its characters say so. -/
theorem filterMap_ofLine?_scan {limit : Nat} {text : String}
    (read : (scan limit text).failure = none) :
    (scan limit text).lines.filterMap Opening.ofLine? = openings text := by
  refine filterMap_scan_of_named? read fun p depth => congrArg (Option.map _) ?_
  refine Option.ext fun name => ?_
  rw [Piece.named?_lane_iff depth]
  cases Statement.ofLine (Line.ofPiece p depth) <;> simp [Statement.laneName?]

end Text

namespace Outline

/-- The lanes of an outline are told by openings. No two lanes have the same name, and they are in
the order of their first openings, where the default lane is opened by what is recorded in front of
all openings. An element and a reference belong to the lane of their line, and a lane holds its
elements in their order. -/
structure FollowsOpenings (o : Outline) (defaultLane : String) (openings : List Opening) :
    Prop where
  ids : (o.document.lanes.map (·.id)).Nodup
  names : (o.document.lanes.map (·.name)).Nodup
  lanes : o.document.lanes.map (·.name) = (Opening.names defaultLane openings
    (o.document.elements.map (·.line) ++ o.references.map (·.line))).eraseDups
  contents : ∀ lane ∈ o.document.lanes, lane.elements =
    o.document.elements.filter (Opening.laneAt defaultLane openings ·.line = lane.name)
  elements : ∀ e ∈ o.document.elements, ∃ lane ∈ o.document.lanes,
    lane.id = e.lane ∧ lane.name = Opening.laneAt defaultLane openings e.line
  references : ∀ r ∈ o.references, ∃ lane ∈ o.document.lanes,
    lane.id = r.lane ∧ lane.name = Opening.laneAt defaultLane openings r.line

/-- What holds of the lanes of a draft holds of those of its document. -/
theorem exists_lane_document {d : Draft} {p : LaneHeader → Prop} (h : ∃ lane ∈ d.lanes, p lane) :
    ∃ lane ∈ d.document.lanes, p lane.toLaneHeader := by
  obtain ⟨header, hl, hp⟩ := h
  exact ⟨_, List.mem_map_of_mem hl, hp⟩

/-- The lanes of every outline are told by its text. -/
theorem ofText_followsOpenings (options : ReadOptions) (text : String) (o : Outline)
    (h : ofText options text = .ok o) :
    o.FollowsOpenings options.defaultLane (Text.openings text) := by
  obtain ⟨document, -, references⟩ := ofText_eq_ok h
  have owned := owned_finished options.defaultLane (scan_numbers_pairwise options.maxDepth text)
  rw [Text.filterMap_ofLine?_scan (exists_ofText_eq_ok.1 ⟨o, h⟩)] at owned
  have registered := registered_finished options.defaultLane (scan options.maxDepth text).lines
  generalize finished options.defaultLane (scan options.maxDepth text).lines = d at *
  have elements : o.document.elements = d.elements := by
    rw [document, Draft.document_elements registered]
  have headers (f : LaneHeader → String) :
      o.document.lanes.map (fun lane => f lane.toLaneHeader) = d.lanes.map f := by
    rw [document, ← Draft.map_toLaneHeader_document d, List.map_map]
    rfl
  have owner (e : Element) (he : e ∈ d.elements) := owned.marks _ _ (.inl ⟨e, he, rfl, rfl⟩)
  refine
    { ids := (headers (·.id)).symm ▸ registered.laneIds_nodup
      names := (headers (·.name)).symm ▸ registered.names
      lanes := by rw [elements, references]; exact (headers (·.name)).trans owned.lanes
      contents := fun lane hl => ?_
      elements := fun e he => ?_
      references := fun r hr => ?_ }
  · rw [document] at hl
    obtain ⟨header, hh, rfl⟩ := List.mem_map.1 hl
    rw [elements]
    -- The lane of an element is told by its id as well as by its name.
    refine List.filter_congr fun e he => ?_
    obtain ⟨own, ho, id, name⟩ := owner e he
    have same : e.lane = header.id ↔
        Opening.laneAt options.defaultLane (Text.openings text) e.line = header.name := by
      rw [← id, ← name]
      constructor
      · intro same
        rw [List.inj_on_of_nodup_map registered.laneIds_nodup ho hh same]
      · intro same
        rw [List.inj_on_of_nodup_map registered.names ho hh same]
    simp only [same]
  · rw [document]
    exact exists_lane_document (owner e (elements ▸ he))
  · rw [document]
    exact exists_lane_document (owned.marks _ _ (.inr ⟨r, references ▸ hr, rfl, rfl⟩))

/-- The default lane is opened by the first line and again by its name, an `@` alone opens nothing,
and names with the same id base are different lanes. -/
theorem ofText_followsOpenings_reopened :
    ∃ o, ofText {} "a\n@\nb\n@Shop\nc -> a\n@ Default\nd\n^ -> c\n@shop\ne" = .ok o ∧
      o.document.lanes.map (fun lane => (lane.id, lane.name, lane.elements.map (·.label))) =
        [("lane_default", "Default", ["a", "b", "d"]), ("lane_shop", "Shop", ["c"]),
          ("lane_shop_2", "shop", ["e"])] ∧
      o.references.map (·.lane) = ["lane_shop", "lane_default"] ∧
      o.FollowsOpenings "Default"
        (Text.openings "a\n@\nb\n@Shop\nc -> a\n@ Default\nd\n^ -> c\n@shop\ne") := by
  have read : ofText {} "a\n@\nb\n@Shop\nc -> a\n@ Default\nd\n^ -> c\n@shop\ne" = .ok _ := rfl
  exact ⟨_, read, by decide +kernel, by decide +kernel, ofText_followsOpenings _ _ _ read⟩

end Outline

end Swimlane
