import Swimlane.Proofs.Outline.Registry
import Swimlane.Proofs.Outline.Stack

/-!
# Coherent drafts

A draft remembers places: an open gateway remembers the slot of its element, the current lane is one
of its lanes, and a lane is found again by its name. In the draft of any lines all of them lead to
what they are meant for. So a line that closes a gateway, adds a branch or logs an element finds
what it looks for, and never has to pass over something that is missing.

## Main definitions

* `Draft.rank`: the place of an element in the list of its lane;
* `Draft.Coherent`: what a draft remembers is there;
* `Draft.readyFor`: a draft whose gateways have been closed for a line;
* `Draft.Serves`: a line finds in a draft what it looks for.

## Main statements

* `Draft.Stacked.serves`: every line finds what it looks for in a draft with a stack in order;
* `Outline.draft_coherent`: the draft of any lines is coherent and serves every further line.
-/

namespace Swimlane

open Relation (ReflTransGen)

namespace Draft

variable {d d' : Draft} {defaultLane : String} {l : Line}

/-- The place of a slot in the list of a lane: how many elements of the lane are in front of it. -/
def rank (d : Draft) (lane : LaneHeader) (slot : Nat) : Nat :=
  (d.elements.take slot).countP (·.lane = lane.id)

/-- What a draft remembers is there. Open gateways, from the outermost to the innermost, stand
deeper and deeper. Each but the innermost is in a branch, and each is in a branch once it has one.
Its slot holds its element, a gateway of the current lane with as many branches as are counted,
which stands in the list of that lane behind the elements of the lane in front of the slot. The
table of identifiers holds those of lanes and elements and no other, and a lane is found by its
name. -/
structure Coherent (d : Draft) : Prop where
  depths : (d.gateways.reverse.map (·.depth)).Pairwise (· < ·)
  bodies : ∀ g ∈ d.gateways.tail, g.body ≠ none
  counts : ∀ g ∈ d.gateways, g.body = none ↔ g.branches = 0
  slots : ∀ g ∈ d.gateways, ∃ lane ∈ d.document.lanes, d.current = some lane.toLaneHeader ∧
    ∃ e ∈ lane.elements, d.elements[g.slot]? = some e ∧
      lane.elements[d.rank lane.toLaneHeader g.slot]? = some e ∧ e.id = g.id ∧
      ∃ branches, e.kind = .gateway branches ∧ branches.length = g.branches
  ids : ∀ id, id ∈ d.ids ↔ id ∈ d.lanes.map (·.id) ∨ id ∈ d.elements.map (·.id)
  names : ∀ i lane, d.lanes[i]? = some lane →
    d.lanes.findIdx? (·.name = lane.name) = some i ∧ d.laneNamed lane.name = lane
  current : ∀ lane, d.current = some lane → lane ∈ d.lanes
  owners : ∀ e ∈ d.elements, ∃ lane ∈ d.lanes, lane.id = e.lane

/-! ## What is remembered -/

theorem Registered.laneNamed_eq (h : d.Registered) {lane : LaneHeader} (hl : lane ∈ d.lanes) :
    d.laneNamed lane.name = lane := by
  unfold laneNamed
  cases found : d.lanes.find? (·.name = lane.name) with
  | none => simpa using List.find?_eq_none.1 found lane hl
  | some other =>
    have same : other.name = lane.name := by simpa using List.find?_some found
    exact List.inj_on_of_nodup_map h.names (List.mem_of_find?_eq_some found) hl same

theorem Registered.findIdx?_name (h : d.Registered) {i : Nat} {lane : LaneHeader}
    (hl : d.lanes[i]? = some lane) : d.lanes.findIdx? (·.name = lane.name) = some i := by
  obtain ⟨hi, rfl⟩ := List.getElem?_eq_some_iff.1 hl
  refine List.findIdx?_eq_some_iff_getElem.2 ⟨hi, by simp, fun j hj => ?_⟩
  have apart := List.pairwise_iff_getElem.1 (List.pairwise_map.1 h.names) j i (by omega) hi hj
  simpa using apart

theorem Stands.counts {g : OpenGateway} (h : d.Stands g) : g.body = none ↔ g.branches = 0 := by
  obtain ⟨e, branches, -, -, -, shows', -⟩ := h
  rw [shows'.body_eq_none_iff, ← shows'.count, List.length_eq_zero_iff]

/-- An element stands in the list of its lane at the place of its slot. -/
theorem getElem?_filter_rank {lane : LaneHeader} {slot : Nat} {e : Element}
    (h : d.elements[slot]? = some e) (own : e.lane = lane.id) :
    (d.elements.filter (·.lane = lane.id))[d.rank lane slot]? = some e := by
  obtain ⟨hs, rfl⟩ := List.getElem?_eq_some_iff.1 h
  have split : d.elements.filter (·.lane = lane.id) =
      (d.elements.take slot).filter (·.lane = lane.id) ++
        d.elements[slot] :: (d.elements.drop (slot + 1)).filter (·.lane = lane.id) := by
    rw [← List.filter_cons_of_pos (by simpa using own), ← List.filter_append,
      List.cons_getElem_drop_succ, List.take_append_drop]
  rw [split, rank, List.countP_eq_length_filter, List.getElem?_append_right Nat.le.refl]
  simp

/-- The element of an open gateway stands in the lane of the document that is current. -/
theorem Stands.exists_lane (hd : d.Registered) {g : OpenGateway} (h : d.Stands g) :
    ∃ lane ∈ d.document.lanes, d.current = some lane.toLaneHeader ∧
      ∃ e ∈ lane.elements, d.elements[g.slot]? = some e ∧
        lane.elements[d.rank lane.toLaneHeader g.slot]? = some e ∧ e.id = g.id ∧
        ∃ branches, e.kind = .gateway branches ∧ branches.length = g.branches := by
  obtain ⟨e, branches, slot, id, kind, shows', current⟩ := h
  obtain ⟨lane, hl, own⟩ := Option.map_eq_some_iff.1 current
  have place := getElem?_filter_rank slot own.symm
  exact ⟨_, List.mem_map_of_mem (hd.current lane hl), hl, e, List.mem_of_getElem? place, slot,
    place, id, branches, kind, shows'.count⟩

theorem Registered.coherent (hd : d.Registered) (hs : d.Stacked) : d.Coherent where
  depths := by
    rw [List.map_reverse, List.pairwise_reverse, List.pairwise_map]
    exact hs.depths
  bodies := hs.bodies
  counts := fun g hg => (hs.stands g hg).counts
  slots := fun g hg => (hs.stands g hg).exists_lane hd
  ids := fun id => by rw [hd.ids.mem_iff, List.mem_append]
  names := fun i lane hl => ⟨hd.findIdx?_name hl, hd.laneNamed_eq (List.mem_of_getElem? hl)⟩
  current := hd.current
  owners := fun e he => List.mem_map.1 (hd.lanes e.lane (List.mem_map_of_mem he))

/-! ## What a line looks for -/

/-- The draft in which a line is carried out: the gateways that it does not belong to are closed. -/
def readyFor (d : Draft) (l : Line) : Draft :=
  d.closeGateways (OpenGateway.closedBy l.kind l.depth)

/-- A line finds in a draft what it looks for.
* A gateway that is closed inside of another one hands its exit to the branch around it.
* A branch below an open gateway is added to the element of that gateway and is read from then on.
* An element of the flow is logged on its own where no gateway is open, and inside of a branch
  elsewhere. -/
structure Serves (defaultLane : String) (d : Draft) (l : Line) : Prop where
  closing : ∀ d', ReflTransGen Closes d d' → ∀ g parent outer, d'.gateways = g :: parent :: outer →
    (parent.setTail g.exit).body.map (·.tail) = some g.exit
  branch : ∀ sign label text g outer, Statement.ofLine l = .branch sign label text →
    (d.readyFor l).gateways = g :: outer →
    ∃ e branches task, (d.readyFor l).elements[g.slot]? = some e ∧ e.kind = .gateway branches ∧
      (d.consume defaultLane l).elements[g.slot]? = some { e with
        kind := .gateway (branches ++ [⟨sign, label.getD sign.defaultLabel, task⟩]) } ∧
      (d.consume defaultLane l).gateways = g.startBody sign task :: outer
  orphan : ∀ sign label text, Statement.ofLine l = .branch sign label text →
    (d.readyFor l).gateways = [] →
    ∃ e, (d.consume defaultLane l).elements = (d.readyFor l).elements ++ [e] ∧
      (d.consume defaultLane l).events = (d.readyFor l).events ++ [.declared e.id]
  flow : ∀ kind label, Statement.ofLine l = .node kind label →
    ∃ e event joined, (d.consume defaultLane l).elements = (d.readyFor l).elements ++ [e] ∧
      (d.consume defaultLane l).events = (d.readyFor l).events ++ event :: joined ∧
      (event = .declared e.id ↔ (d.readyFor l).gateways = []) ∧
      (∀ g outer, (d.readyFor l).gateways = g :: outer →
        ∃ body, g.body = some body ∧ event = .branchStep body.tail e.id) ∧
      ∀ ev ∈ joined, ∃ sender receiver message, ev = .messagePaired sender receiver message

theorem consume_of_stated {s : Statement} (stated : Statement.ofLine l = s) (d : Draft)
    (defaultLane : String) : d.consume defaultLane l = (d.readyFor l).perform defaultLane l s := by
  rw [consume, stated]
  rfl

theorem Stacked.closes (hs : d.Stacked) (h : ReflTransGen Closes d d') : d'.Stacked :=
  invariant_of_changes (fun _ _ step => step.stacked) h hs

theorem Stacked.readyFor (hs : d.Stacked) (l : Line) : (d.readyFor l).Stacked :=
  hs.closes (closeGateways_closes d _)

/-- All but the innermost gateway have a branch that takes over an exit. -/
theorem Stacked.setTail_parent (hs : d.Stacked) {g parent : OpenGateway}
    {outer : List OpenGateway} (stack : d.gateways = g :: parent :: outer) (t : Option String) :
    (parent.setTail t).body.map (·.tail) = some t := by
  have body := hs.bodies parent (by simp [stack])
  obtain ⟨b, hb⟩ := Option.ne_none_iff_exists'.1 body
  simp [hb]

/-- The draft in which a branch is declared has the elements that the line found. -/
theorem performBranch_of_cons {g : OpenGateway} {outer : List OpenGateway}
    (stack : d.gateways = g :: outer) (defaultLane : String) (l : Line) (sign : Sign)
    (label : Option String) (text : String) :
    ∃ (d₁ : Draft) (lane : LaneHeader), d₁.elements = d.elements ∧
      d.performBranch defaultLane l sign label text =
        d₁.addBranch lane l g outer sign label text := by
  simp only [performBranch, stack]
  refine ⟨_, _, ?_, rfl⟩
  rw [enterLane_elements]
  split <;> rfl

theorem Stacked.serves_branch (hs : d.Stacked) {g : OpenGateway} {outer : List OpenGateway}
    (stack : d.gateways = g :: outer) (defaultLane : String) (l : Line) (sign : Sign)
    (label : Option String) (text : String) :
    ∃ e branches task, d.elements[g.slot]? = some e ∧ e.kind = .gateway branches ∧
      (d.performBranch defaultLane l sign label text).elements[g.slot]? = some { e with
        kind := .gateway (branches ++ [⟨sign, label.getD sign.defaultLabel, task⟩]) } ∧
      (d.performBranch defaultLane l sign label text).gateways =
        g.startBody sign task :: outer := by
  obtain ⟨e, branches, slot, -, kind, -, -⟩ := hs.stands g (by simp [stack])
  obtain ⟨d₁, lane, elements, same⟩ :=
    performBranch_of_cons stack defaultLane l sign label text
  refine ⟨e, branches, (d₁.newElement lane l text .task).id, slot, kind, ?_, ?_⟩
  · rw [same, addBranch_elements, elements, List.getElem?_modify_eq,
      getElem?_append_of_some slot]
    simp [Element.addBranch, kind, ElementKind.addBranch, newBranch]
  · rw [same, addBranch_gateways]

/-- Without an open gateway a branch is declared like any other task. -/
theorem performBranch_of_nil (closed : d.gateways = []) (defaultLane : String) (l : Line)
    (sign : Sign) (label : Option String) (text : String) :
    ∃ e, (d.performBranch defaultLane l sign label text).elements = d.elements ++ [e] ∧
      (d.performBranch defaultLane l sign label text).events = d.events ++ [.declared e.id] := by
  let w := d.warn l (.orphanBranch text)
  refine ⟨(w.enterLane defaultLane).newElement (w.lane defaultLane) l text .task, ?_, ?_⟩
  · simp only [performBranch, closed, addNode_elements, enterLane_elements]
    rfl
  · simp only [performBranch, closed, addNode_events, enterLane_gateways, enterLane_events]
    rw [show (d.warn l (.orphanBranch text)).gateways = [] from closed]
    rfl

theorem perform_node (d : Draft) (defaultLane : String) (l : Line) (kind : ElementKind)
    (label : String) :
    ∃ e waiting, (d.perform defaultLane l (.node kind label)).elements = d.elements ++ [e] ∧
      (d.perform defaultLane l (.node kind label)).events =
        d.events ++ flowEvent d.gateways e :: pairing waiting l e := by
  simp only [perform, addNode_elements, addNode_events, enterLane_elements, enterLane_gateways,
    enterLane_events]
  exact ⟨_, _, rfl, rfl⟩

/-- Behind the closing of gateways, an element of the flow finds the innermost one in a branch. -/
theorem exists_body_of_readyFor (flow : l.kind.declaresFlowNode = true) {g : OpenGateway}
    {outer : List OpenGateway} (stack : (d.readyFor l).gateways = g :: outer) :
    ∃ body, g.body = some body :=
  Option.ne_none_iff_exists'.1
    (OpenGateway.closedBy_eq_false flow (not_closes_of_closeGateways d _ stack)).2

/-- Every line finds what it looks for in a draft whose stack is in order. -/
theorem Stacked.serves (hs : d.Stacked) (defaultLane : String) (l : Line) :
    d.Serves defaultLane l where
  closing := fun d' h g parent outer stack => (hs.closes h).setTail_parent stack g.exit
  branch := fun sign label text g outer stated stack => by
    rw [consume_of_stated stated]
    exact (hs.readyFor l).serves_branch stack defaultLane l sign label text
  orphan := fun sign label text stated closed => by
    rw [consume_of_stated stated]
    exact performBranch_of_nil closed defaultLane l sign label text
  flow := fun kind label stated => by
    obtain ⟨e, waiting, elements, events⟩ := perform_node (d.readyFor l) defaultLane l kind label
    have flow := (Statement.kind_of_ofLine_node stated).1
    rw [consume_of_stated stated]
    refine ⟨e, _, _, elements, events, ?_, ?_, fun ev h => messages_pairing h⟩
    · cases stack : (d.readyFor l).gateways with
      | nil => simp [flowEvent]
      | cons g outer =>
        obtain ⟨body, hb⟩ := exists_body_of_readyFor flow stack
        simp [flowEvent_of_cons hb]
    · intro g outer stack
      obtain ⟨body, hb⟩ := exists_body_of_readyFor flow stack
      exact ⟨body, hb, by rw [stack, flowEvent_of_cons hb]⟩

end Draft

namespace Outline

/-- The draft of any lines is coherent, and whatever line comes next finds what it looks for. -/
theorem draft_coherent (defaultLane : String) (lines : List Line) :
    (draft defaultLane lines).Coherent ∧ ∀ l, (draft defaultLane lines).Serves defaultLane l :=
  have stacked := stacked_draft defaultLane lines
  ⟨(registered_draft defaultLane lines).coherent stacked, stacked.serves defaultLane⟩

end Outline

end Swimlane
