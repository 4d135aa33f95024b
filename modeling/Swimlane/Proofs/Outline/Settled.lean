import Swimlane.Proofs.Outline.Context

/-!
# Elements that will not branch

The only elements that still change are the open gateways; all others are frozen. The flow never
goes on from a gateway that has branches: it goes on from what the branches lead to. An element is
settled if it has no branches and will not get any, because it is frozen. What an open gateway
passes on is settled.

## Main statements

* `Draft.Frozen`, `Draft.Settled`: the properties, kept by every change;
* `Draft.outermost?`: the outermost open gateway;
* `Draft.Settles`: the innermost branch ends, and the continuations stand, at settled elements;
* `Draft.Closes.settled_exit`: behind a closed gateway the flow goes on at a settled element.
-/

namespace Swimlane

namespace Draft

variable {d d' : Draft} {l : Line} {id : String}

/-- An element that will not change any more, because it is not an open gateway. -/
def Frozen (d : Draft) (e : Element) : Prop := e ∈ d.elements ∧ ∀ g ∈ d.gateways, g.id ≠ e.id

/-- An element without branches that will not get any. -/
def Settled (d : Draft) (id : String) : Prop :=
  (∃ e ∈ d.elements, e.id = id ∧ e.branches = []) ∧ ∀ g ∈ d.gateways, g.id ≠ id

theorem settled_iff : d.Settled id ↔ ∃ e, d.Frozen e ∧ e.id = id ∧ e.branches = [] := by
  constructor
  · rintro ⟨⟨e, he, rfl, branches⟩, closed⟩
    exact ⟨e, ⟨he, closed⟩, rfl, branches⟩
  · rintro ⟨e, ⟨he, closed⟩, rfl, branches⟩
    exact ⟨⟨e, he, rfl, branches⟩, closed⟩

theorem Settled.mono (h : d.Settled id) (keep : ∀ {e}, d.Frozen e → d'.Frozen e) :
    d'.Settled id := by
  obtain ⟨e, frozen, hid, branches⟩ := settled_iff.1 h
  exact settled_iff.2 ⟨e, keep frozen, hid, branches⟩

/-- Frozen elements stay frozen when old gateways go and new ones have new ids. -/
theorem Frozen.mono {e : Element} (h : d.Frozen e) (elements : e ∈ d'.elements)
    (gateways : ∀ g ∈ d'.gateways, (∃ o ∈ d.gateways, o.id = g.id) ∨
      ∀ e ∈ d.elements, g.id ≠ e.id) : d'.Frozen e := by
  refine ⟨elements, fun g hg => ?_⟩
  obtain ⟨o, ho, same⟩ | new := gateways g hg
  · exact same ▸ h.2 o ho
  · exact new e h.1

theorem Closes.frozen (h : Closes d d') {e : Element} (he : d.Frozen e) : d'.Frozen e := by
  refine he.mono (h.elements ▸ he.1) ?_
  cases h with
  | @inner g parent outer hg =>
    intro o ho
    obtain rfl | ho := List.mem_cons.1 ho
    · exact .inl ⟨parent, by simp [hg], rfl⟩
    · exact .inl ⟨o, by simp [hg, ho], rfl⟩
  | last => simp

theorem Closes.settled (h : Closes d d') (hid : d.Settled id) : d'.Settled id := hid.mono h.frozen

theorem Prepares.frozen (h : Prepares l d d') {e : Element} (he : d.Frozen e) : d'.Frozen e := by
  cases h with
  | warned | named | broken | connected => exact he
  | closed h => exact h.frozen he
  | entered name =>
    unfold Frozen
    rw [openLane_elements, openLane_gateways]
    exact he

theorem Prepares.settled (h : Prepares l d d') (hid : d.Settled id) : d'.Settled id :=
  hid.mono h.frozen

/-- The ids on the stack behind an element of the flow. -/
theorem map_id_addNode (d : Draft) (lane : LaneHeader) (l : Line) (label : String)
    (kind : ElementKind) :
    (d.addNode lane l label kind).gateways.map (·.id) =
      (openedBy l (d.newElement lane l label kind)).map (·.id) ++ d.gateways.map (·.id) := by
  rw [addNode_gateways, List.map_append]
  cases d.gateways <;> simp [follow]

/-- The id of the outermost open gateway. -/
def outermost? (d : Draft) : Option String := (d.gateways.map (·.id)).getLast?

theorem outermost?_addNode (d : Draft) (lane : LaneHeader) (l : Line) (label : String)
    (kind : ElementKind) :
    (d.addNode lane l label kind).outermost? =
      d.outermost?.or ((openedBy l (d.newElement lane l label kind)).map (·.id)).getLast? := by
  rw [outermost?, map_id_addNode, List.getLast?_append, outermost?]

theorem Declares.frozen (h : Declares l d d') (hr : d.Registered) (hs : d.Stacked) {e : Element}
    (he : d.Frozen e) : d'.Frozen e := by
  cases h with
  | @node lane label kind =>
    refine he.mono (by simp [he.1]) fun g hg => ?_
    have ids := List.mem_map_of_mem (f := (·.id)) hg
    rw [map_id_addNode, List.mem_append, List.mem_map, List.mem_map] at ids
    obtain ⟨o, ho, same⟩ | old := ids
    · right
      rw [← same, eq_of_mem_openedBy ho]
      exact fun e he => hr.newElement_id_ne lane l label kind he
    · exact .inl old
  | @branch lane g outer sign label text hl hg =>
    obtain ⟨before, x, after, old, slot, -, -, new⟩ :=
      hs.elements_addBranch l sign label text hl hg
    obtain ⟨y, -, place, name, -⟩ := hs.stands g (by simp [hg])
    obtain rfl : x = y := by simpa [old, ← slot] using place
    refine he.mono ?_ fun o ho => ?_
    · have other : e ≠ x := fun same => he.2 g (by simp [hg]) (same ▸ name.symm)
      have mem := he.1
      rw [old] at mem
      rw [new]
      simp only [List.mem_append, List.mem_cons, other, false_or] at mem ⊢
      exact mem.imp_right fun mem => .inr (.inl mem)
    · rw [addBranch_gateways] at ho
      obtain rfl | ho := List.mem_cons.1 ho
      · exact .inl ⟨g, by simp [hg], by simp⟩
      · exact .inl ⟨o, by simp [hg, ho], rfl⟩
  | aside => exact he.mono (by simp [declare, he.1]) fun g hg => .inl ⟨g, hg, rfl⟩

theorem Declares.settled (h : Declares l d d') (hr : d.Registered) (hs : d.Stacked)
    (hid : d.Settled id) : d'.Settled id :=
  hid.mono (h.frozen hr hs)

/-! ## New elements -/

theorem settled_addNode (hr : d.Registered) (hs : d.Stacked) (lane : LaneHeader) (l : Line)
    {label : String} {kind : ElementKind} (hk : kind.IsNew label)
    (gateway : ∀ branches, kind ≠ .gateway branches) :
    (d.addNode lane l label kind).Settled (d.newElement lane l label kind).id := by
  let e := d.newElement lane l label kind
  have unopened : openedBy l e = [] := openedBy_eq_nil gateway
  refine ⟨⟨e, by simp [e], rfl, Element.branches_eq_nil_of_isNew hk⟩, fun g hg => ?_⟩
  have ids := List.mem_map_of_mem (f := (·.id)) hg
  rw [map_id_addNode, unopened] at ids
  obtain ⟨o, ho, same⟩ := List.mem_map.1 (by simpa using ids)
  exact same ▸ hs.id_ne_newElement hr ho lane l label kind

theorem settled_addBranch (hr : d.Registered) (hs : d.Stacked) {lane : LaneHeader} (l : Line)
    {g : OpenGateway} {outer : List OpenGateway} (sign : Sign) (label : Option String)
    (text : String) (hl : d.current = some lane) (hg : d.gateways = g :: outer) :
    (d.addBranch lane l g outer sign label text).Settled (d.newElement lane l text .task).id := by
  refine ⟨⟨_, hs.newElement_mem_addBranch l sign label text hl hg, rfl, rfl⟩, fun o ho => ?_⟩
  have apart (x : OpenGateway) (hx : x ∈ d.gateways) := hs.id_ne_newElement hr hx lane l text .task
  rw [addBranch_gateways] at ho
  obtain rfl | ho := List.mem_cons.1 ho
  · simpa using apart g (by simp [hg])
  · exact apart o (by simp [hg, ho])

/-! ## What open gateways pass on -/

/-- The flow inside the innermost branch, and behind branches that have ended, goes on at settled
elements. The tails of outer branches may be gateways that are still open. -/
structure Settles (d : Draft) : Prop where
  tail : ∀ g outer b t, d.gateways = g :: outer → g.body = some b → b.tail = some t → d.Settled t
  continuation : ∀ g ∈ d.gateways, ∀ t, g.continuation = some (some t) → d.Settled t

theorem settles_of_nil (h : d.gateways = []) : d.Settles where
  tail := by simp [h]
  continuation := by simp [h]

theorem Settles.finishBody (hd : d.Settles) {g : OpenGateway} {outer : List OpenGateway}
    (hg : d.gateways = g :: outer) {t : String}
    (ht : g.finishBody.continuation = some (some t)) : d.Settled t := by
  unfold OpenGateway.finishBody at ht
  split at ht
  · next tail hb _ => exact hd.tail g outer _ t hg hb (by simpa using ht)
  · exact hd.continuation g (by simp [hg]) t ht

/-- No two open gateways have the same id. -/
theorem Stacked.ids_nodup (hs : d.Stacked) (hr : d.Registered) :
    (d.gateways.map (·.id)).Nodup := by
  have apart : d.gateways.Pairwise fun inner outer => inner.id ≠ outer.id := by
    refine hs.slots.imp_of_mem fun {inner outer} hi ho lt same => ?_
    obtain ⟨x, -, place, name, -⟩ := hs.stands inner hi
    obtain ⟨y, -, place', name', -⟩ := hs.stands outer ho
    have ids : x.id = y.id := name.trans (same.trans name'.symm)
    obtain rfl : x = y := List.inj_on_of_nodup_map hr.elementIds_nodup
      (List.mem_of_getElem? place) (List.mem_of_getElem? place') ids
    exact Nat.ne_of_gt lt ((hr.order_eq place).symm.trans (hr.order_eq place'))
  exact List.pairwise_map.2 apart

/-- Behind a gateway that is closed the flow goes on at a settled element. -/
theorem Closes.settled_exit (h : Closes d d') (hr : d.Registered) (hs : d.Stacked)
    (hd : d.Settles) {g : OpenGateway} {outer : List OpenGateway} (hg : d.gateways = g :: outer)
    {t : String} (ht : g.exit = some t) : d'.Settled t := by
  unfold OpenGateway.exit at ht
  split at ht
  · next unbranched =>
    obtain rfl := Option.some.inj ht
    obtain ⟨e, branches, place, name, kind, shows', -⟩ := hs.stands g (by simp [hg])
    have nil : branches = [] := List.length_eq_zero_iff.1 (shows'.count.trans unbranched)
    refine ⟨⟨e, ?_, name, by rw [Element.branches_eq kind, nil]⟩, fun o ho => ?_⟩
    · rw [h.elements]
      exact List.mem_of_getElem? place
    · have distinct := hs.ids_nodup hr
      rw [hg, List.map_cons, List.nodup_cons] at distinct
      have inside : o.id ∈ outer.map (·.id) := by
        cases h with
        | @inner g' parent rest hg' =>
          obtain ⟨rfl, rfl⟩ := List.cons.inj (hg.symm.trans hg')
          obtain rfl | ho := List.mem_cons.1 ho
          · simp
          · simp [List.mem_map_of_mem ho]
        | last => simp at ho
      exact fun same => distinct.1 (same ▸ inside)
  · exact h.settled (hd.finishBody hg (Option.join_eq_some_iff.1 ht))

theorem Closes.settles (h : Closes d d') (hr : d.Registered) (hs : d.Stacked) (hd : d.Settles) :
    d'.Settles := by
  have keep {t : String} (ht : d.Settled t) := h.settled ht
  have exit {g : OpenGateway} {outer : List OpenGateway} (hg : d.gateways = g :: outer)
    {t : String} (ht : g.exit = some t) := h.settled_exit hr hs hd hg ht
  cases h with
  | @inner g parent outer hg =>
    refine ⟨?_, ?_⟩
    · intro o rest b t ho body tail
      obtain ⟨rfl, -⟩ := List.cons.inj ho
      obtain ⟨b', -, rfl⟩ := Option.map_eq_some_iff.1 body
      exact exit hg tail
    · intro o ho t ht
      refine keep ?_
      obtain rfl | ho := List.mem_cons.1 ho
      · exact hd.continuation parent (by simp [hg]) t ht
      · exact hd.continuation o (by simp [hg, ho]) t ht
  | last => exact settles_of_nil rfl

theorem Prepares.settles (h : Prepares l d d') (hr : d.Registered) (hs : d.Stacked)
    (hd : d.Settles) : d'.Settles := by
  cases h with
  | warned | named | broken | connected => exact { hd with }
  | closed h => exact h.settles hr hs hd
  | entered name hg => exact settles_of_nil ((openLane_gateways d name).trans hg)

/-- Behind an element that is no gateway, it is the end of the innermost branch. -/
theorem eq_of_tail_follow {gateways rest : List OpenGateway} {e : Element} {o : OpenGateway}
    {b : BranchBody} {t : String} (ho : follow gateways e = o :: rest) (body : o.body = some b)
    (tail : b.tail = some t) : t = e.id := by
  cases gateways with
  | nil => simp [follow] at ho
  | cons first outer =>
    rw [follow, List.modifyHead_cons] at ho
    obtain ⟨rfl, -⟩ := List.cons.inj ho
    obtain ⟨b', -, rfl⟩ := Option.map_eq_some_iff.1 body
    exact eq_of_tail tail

theorem Declares.settles (h : Declares l d d') (hr : d.Registered) (hs : d.Stacked)
    (hd : d.Settles) : d'.Settles := by
  have keep {t : String} (ht : d.Settled t) := h.settled hr hs ht
  cases h with
  | @node lane label kind hl hk hg =>
    refine ⟨?_, ?_⟩
    · intro o rest b t ho body tail
      rw [addNode_gateways] at ho
      by_cases gateway : ∃ branches, kind = .gateway branches
      · -- A new gateway has no branch that is read.
        obtain ⟨branches, rfl⟩ := gateway
        obtain ⟨rfl, -⟩ := List.cons.inj ho
        cases body
      · rw [openedBy_eq_nil fun branches h => gateway ⟨branches, h⟩, List.nil_append] at ho
        obtain rfl := eq_of_tail_follow ho body tail
        exact settled_addNode hr hs lane l hk fun branches h => gateway ⟨branches, h⟩
    · intro o ho t ht
      refine keep ?_
      rw [addNode_gateways, List.mem_append] at ho
      obtain ho | ho := ho
      · obtain rfl := eq_of_mem_openedBy ho
        cases ht
      · obtain ⟨g, hg, rfl | rfl⟩ := mem_follow ho
        · exact hd.continuation o hg t ht
        · exact hd.continuation g hg t ht
  | @branch lane g outer sign label text hl hg =>
    refine ⟨?_, ?_⟩
    · intro o rest b t ho body tail
      rw [addBranch_gateways] at ho
      obtain ⟨rfl, -⟩ := List.cons.inj ho
      cases body
      obtain rfl := Option.some.inj tail
      exact settled_addBranch hr hs l sign label text hl hg
    · intro o ho t ht
      refine keep ?_
      rw [addBranch_gateways] at ho
      obtain rfl | ho := List.mem_cons.1 ho
      · exact hd.finishBody hg ht
      · exact hd.continuation o (by simp [hg, ho]) t ht
  | aside =>
    exact ⟨fun g outer b t hg hb ht => keep (hd.tail g outer b t hg hb ht),
      fun g hg t ht => keep (hd.continuation g hg t ht)⟩

end Draft

end Swimlane
