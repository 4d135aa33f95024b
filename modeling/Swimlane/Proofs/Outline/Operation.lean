import Swimlane.Outline

/-!
# What the operations on a draft do to its fields

Each operation that a line can lead to, described field by field, so that no later proof opens it.
Operations that only append a record (`warn`, `log`, `addReference`) unfold by themselves.

## Main definitions

* `Draft.flowEvent`, `Draft.follow`: the event of a new element of the flow, and the open gateways
  behind it;
* `Draft.openedBy`: the gateway that an element opens;
* `Draft.arrowOf`: the reference that the arrow of a line records;
* `Draft.pairing`: the event of a message that meets its other side.
-/

namespace Swimlane

namespace OpenGateway

@[simp] theorem setTail_id (g : OpenGateway) (t : Option String) : (g.setTail t).id = g.id := rfl

@[simp] theorem setTail_depth (g : OpenGateway) (t : Option String) :
    (g.setTail t).depth = g.depth := rfl

@[simp] theorem setTail_branches (g : OpenGateway) (t : Option String) :
    (g.setTail t).branches = g.branches := rfl

@[simp] theorem setTail_continuation (g : OpenGateway) (t : Option String) :
    (g.setTail t).continuation = g.continuation := rfl

@[simp] theorem setTail_body (g : OpenGateway) (t : Option String) :
    (g.setTail t).body = g.body.map fun b => { b with tail := t } := rfl

@[simp] theorem setTail_setTail (g : OpenGateway) (t u : Option String) :
    (g.setTail t).setTail u = g.setTail u := by
  simp [setTail, Function.comp_def]

theorem setTail_of_body_eq_none {g : OpenGateway} (h : g.body = none) (t : Option String) :
    g.setTail t = g := by
  obtain ⟨id, slot, depth, branches, body, continuation⟩ := g
  cases h
  rfl

@[simp] theorem finishBody_id (g : OpenGateway) : g.finishBody.id = g.id := by
  unfold finishBody
  split <;> rfl

@[simp] theorem finishBody_slot (g : OpenGateway) : g.finishBody.slot = g.slot := by
  unfold finishBody
  split <;> rfl

@[simp] theorem finishBody_depth (g : OpenGateway) : g.finishBody.depth = g.depth := by
  unfold finishBody
  split <;> rfl

@[simp] theorem startBody_id (g : OpenGateway) (sign : Sign) (task : String) :
    (g.startBody sign task).id = g.id := by
  simp [startBody]

@[simp] theorem startBody_slot (g : OpenGateway) (sign : Sign) (task : String) :
    (g.startBody sign task).slot = g.slot := by
  simp [startBody]

@[simp] theorem startBody_depth (g : OpenGateway) (sign : Sign) (task : String) :
    (g.startBody sign task).depth = g.depth := by
  simp [startBody]

@[simp] theorem startBody_branches (g : OpenGateway) (sign : Sign) (task : String) :
    (g.startBody sign task).branches = g.branches + 1 := rfl

@[simp] theorem startBody_body (g : OpenGateway) (sign : Sign) (task : String) :
    (g.startBody sign task).body = some ⟨sign, some task⟩ := rfl

@[simp] theorem startBody_continuation (g : OpenGateway) (sign : Sign) (task : String) :
    (g.startBody sign task).continuation = g.finishBody.continuation := rfl

end OpenGateway

namespace Draft

/-! ## Elements of the flow -/

/-- The event that logs an element of the flow. -/
def flowEvent : List OpenGateway → Element → Event
  | { body := some body, .. } :: _, e => .branchStep body.tail e.id
  | _, e => .declared e.id

/-- The open gateways behind an element of the flow: the branch that is read goes on at it. -/
def follow (gateways : List OpenGateway) (e : Element) : List OpenGateway :=
  gateways.modifyHead (·.setTail (if e.kind = .endEvent then none else some e.id))

/-- The gateway that an element opens. -/
def openedBy (l : Line) (e : Element) : List OpenGateway :=
  match e.kind with
  | .gateway _ => [{ id := e.id, slot := e.order, depth := l.depth }]
  | _ => []

/-- The reference that the arrow of a line records. -/
def arrowOf (lane : LaneHeader) (l : Line) (e : Element) : List Reference :=
  l.arrow.toList.map fun arrow =>
    let ends := arrow.direction.ends (.element e.id) (.named arrow.target)
    { kind := .sequenceFlow, source := ends.1, target := ends.2, label := none, lane := lane.id
      line := l.number, span := l.span }

/-- The other side of a message, if it waits. -/
def otherSide? (waiting : List WaitingMessage) (m : WaitingMessage) : Option WaitingMessage :=
  waiting.find? fun w => w.label = m.label && w.side != m.side

/-- The message side that an element is. -/
def messageOf? (l : Line) (e : Element) : Option WaitingMessage :=
  match e.kind with
  | .message side text => some ⟨text, e.id, side, e.order, l.number, l.span⟩
  | _ => none

/-- The event of a message that meets its other side. -/
def joinEvent (m w : WaitingMessage) : Event :=
  match m.side with
  | .send => .messagePaired m.element w.element m.label
  | .receive => .messagePaired w.element m.element m.label

/-- The events of an element that is a side of a message. -/
def pairing (waiting : List WaitingMessage) (l : Line) (e : Element) : List Event :=
  match messageOf? l e with
  | none => []
  | some m => ((otherSide? waiting m).map (joinEvent m)).toList

/-- The messages that wait behind an element. -/
def waitingAfter (waiting : List WaitingMessage) (l : Line) (e : Element) : List WaitingMessage :=
  match messageOf? l e with
  | none => waiting
  | some m =>
    match otherSide? waiting m with
    | none => waiting ++ [m]
    | some w => waiting.erase w

/-- A message that meets its other side logs the pair and nothing else. -/
theorem messages_pairing {waiting : List WaitingMessage} {l : Line} {e : Element} {ev : Event}
    (h : ev ∈ pairing waiting l e) :
    ∃ sender receiver label, ev = .messagePaired sender receiver label := by
  unfold pairing at h
  split at h
  · simp at h
  · obtain ⟨w, -, rfl⟩ := Option.map_eq_some_iff.1 (Option.mem_toList.1 h)
    unfold joinEvent
    split
    · exact ⟨_, _, _, rfl⟩
    · exact ⟨_, _, _, rfl⟩

theorem openedBy_eq_nil {l : Line} {e : Element} (h : ∀ branches, e.kind ≠ .gateway branches) :
    openedBy l e = [] := by
  unfold openedBy
  split
  · next hk => exact absurd hk (h _)
  · rfl

/-- A gateway that is opened has no branches yet. -/
theorem eq_of_mem_openedBy {l : Line} {e : Element} {g : OpenGateway} (h : g ∈ openedBy l e) :
    g = { id := e.id, slot := e.order, depth := l.depth } := by
  unfold openedBy at h
  split at h
  · exact List.mem_singleton.1 h
  · simp at h

/-- Where a branch goes on behind an element, if it goes on. -/
theorem eq_of_tail {e : Element} {id : String}
    (h : (if e.kind = .endEvent then none else some e.id) = some id) : id = e.id := by
  split at h
  · cases h
  · exact (Option.some.inj h).symm

/-- Behind an element of the flow the open gateways are the same, but for a tail. -/
theorem mem_follow {gateways : List OpenGateway} {e : Element} {g : OpenGateway}
    (h : g ∈ follow gateways e) :
    ∃ o ∈ gateways, g = o ∨ g = o.setTail (if e.kind = .endEvent then none else some e.id) := by
  cases gateways with
  | nil => simp [follow] at h
  | cons first outer =>
    rw [follow, List.modifyHead_cons, List.mem_cons] at h
    obtain rfl | h := h
    · exact ⟨first, by simp, .inr rfl⟩
    · exact ⟨g, by simp [h], .inl rfl⟩

theorem flowEvent_of_cons {g : OpenGateway} {outer : List OpenGateway} {b : BranchBody}
    (body : g.body = some b) (e : Element) :
    flowEvent (g :: outer) e = .branchStep b.tail e.id := by
  obtain ⟨id, slot, depth, branches, body', continuation⟩ := g
  cases body
  rfl

theorem logFlow_eq (d : Draft) (e : Element) :
    d.logFlow e =
      { d with
        events := d.events ++ [flowEvent d.gateways e]
        gateways := follow d.gateways e } := by
  unfold logFlow
  split
  · next h => simp [log, flowEvent, follow, h]
  · next g outer h =>
    split
    · next hb =>
      have same := OpenGateway.setTail_of_body_eq_none hb
      obtain ⟨id, slot, depth, branches, body, continuation⟩ := g
      cases hb
      simp [log, flowEvent, follow, h, same]
    · next b hb =>
      obtain ⟨id, slot, depth, branches, body, continuation⟩ := g
      cases hb
      simp [log, flowEvent, follow, h]

theorem track_eq (d : Draft) (lane : LaneHeader) (l : Line) (e : Element) :
    d.track lane l e = { d with references := d.references ++ arrowOf lane l e } := by
  unfold track arrowOf
  split
  · next h => simp [h]
  · next h => simp [h, addReference]

theorem start_eq (d : Draft) (l : Line) (e : Element) :
    d.start l e =
      { d with
        gateways := openedBy l e ++ d.gateways
        events := d.events ++ pairing d.waiting l e
        waiting := waitingAfter d.waiting l e } := by
  unfold start openedBy pairing waitingAfter messageOf?
  cases e.kind with
  | message side text =>
    simp only [pair, otherSide?, log]
    cases hw : d.waiting.find? fun w => w.label = text && w.side != side with
    | none => simp
    | some w => cases side <;> simp [joinEvent]
  | _ => simp

section addNode

variable (d : Draft) (lane : LaneHeader) (l : Line) (label : String) (kind : ElementKind)

/-- Declaring an element of the flow, with every field that changes. -/
theorem addNode_eq :
    d.addNode lane l label kind =
      let e := d.newElement lane l label kind
      { d with
        elements := d.elements ++ [e]
        ids := d.ids ++ [e.id]
        bases := d.bases ++ [(lane.id, kind.idBase lane.name label)]
        diagnostics := d.diagnostics ++ d.duplicateWarning lane e
        events := d.events ++ flowEvent d.gateways e :: pairing d.waiting l e
        gateways := openedBy l e ++ follow d.gateways e
        references := d.references ++ arrowOf lane l e
        waiting := waitingAfter d.waiting l e } := by
  simp [addNode, declare, logFlow_eq, track_eq, start_eq, newElement, Identifier.allocate]

@[simp] theorem addNode_lanes : (d.addNode lane l label kind).lanes = d.lanes := by
  rw [addNode_eq]

@[simp] theorem addNode_current : (d.addNode lane l label kind).current = d.current := by
  rw [addNode_eq]

@[simp] theorem addNode_elements :
    (d.addNode lane l label kind).elements = d.elements ++ [d.newElement lane l label kind] := by
  rw [addNode_eq]

@[simp] theorem addNode_ids :
    (d.addNode lane l label kind).ids = d.ids ++ [(d.newElement lane l label kind).id] := by
  rw [addNode_eq]

@[simp] theorem addNode_gateways :
    (d.addNode lane l label kind).gateways =
      openedBy l (d.newElement lane l label kind) ++
        follow d.gateways (d.newElement lane l label kind) := by
  rw [addNode_eq]

@[simp] theorem addNode_events :
    (d.addNode lane l label kind).events =
      d.events ++ flowEvent d.gateways (d.newElement lane l label kind) ::
        pairing d.waiting l (d.newElement lane l label kind) := by
  rw [addNode_eq]

@[simp] theorem addNode_references :
    (d.addNode lane l label kind).references =
      d.references ++ arrowOf lane l (d.newElement lane l label kind) := by
  rw [addNode_eq]

@[simp] theorem addNode_waiting :
    (d.addNode lane l label kind).waiting =
      waitingAfter d.waiting l (d.newElement lane l label kind) := by
  rw [addNode_eq]

end addNode

/-! ## Branches -/

section addBranch

variable (d : Draft) (lane : LaneHeader) (l : Line) (g : OpenGateway) (outer : List OpenGateway)
  (sign : Sign) (label : Option String) (text : String)

/-- The branch that a line adds to a gateway. -/
def newBranch : Branch :=
  ⟨sign, label.getD sign.defaultLabel, (d.newElement lane l text .task).id⟩

/-- Declaring the task of a branch, with every field that changes. -/
theorem addBranch_eq :
    d.addBranch lane l g outer sign label text =
      let e := d.newElement lane l text .task
      { d with
        elements := (d.elements ++ [e]).modify g.slot
          (·.addBranch (d.newBranch lane l sign label text))
        ids := d.ids ++ [e.id]
        bases := d.bases ++ [(lane.id, ElementKind.idBase .task lane.name text)]
        diagnostics := d.diagnostics ++ d.duplicateWarning lane e
        events := d.events ++ [.branchOpened g.id e.id (label.getD sign.defaultLabel)]
        gateways := g.startBody sign e.id :: outer
        references := d.references ++ arrowOf lane l e } := by
  simp [addBranch, declare, track_eq, log, newElement, newBranch, Identifier.allocate]

@[simp] theorem addBranch_lanes :
    (d.addBranch lane l g outer sign label text).lanes = d.lanes := by
  rw [addBranch_eq]

@[simp] theorem addBranch_current :
    (d.addBranch lane l g outer sign label text).current = d.current := by
  rw [addBranch_eq]

@[simp] theorem addBranch_elements :
    (d.addBranch lane l g outer sign label text).elements =
      (d.elements ++ [d.newElement lane l text .task]).modify g.slot
        (·.addBranch (d.newBranch lane l sign label text)) := by
  rw [addBranch_eq]

@[simp] theorem addBranch_ids :
    (d.addBranch lane l g outer sign label text).ids =
      d.ids ++ [(d.newElement lane l text .task).id] := by
  rw [addBranch_eq]

@[simp] theorem addBranch_gateways :
    (d.addBranch lane l g outer sign label text).gateways =
      g.startBody sign (d.newElement lane l text .task).id :: outer := by
  rw [addBranch_eq]

@[simp] theorem addBranch_events :
    (d.addBranch lane l g outer sign label text).events =
      d.events ++ [.branchOpened g.id (d.newElement lane l text .task).id
        (label.getD sign.defaultLabel)] := by
  rw [addBranch_eq]

@[simp] theorem addBranch_references :
    (d.addBranch lane l g outer sign label text).references =
      d.references ++ arrowOf lane l (d.newElement lane l text .task) := by
  rw [addBranch_eq]

@[simp] theorem addBranch_waiting :
    (d.addBranch lane l g outer sign label text).waiting = d.waiting := by
  rw [addBranch_eq]

end addBranch

/-! ## Closing gateways -/

@[simp] theorem closeGateways_elements (d : Draft) (closes : OpenGateway → Bool) :
    (d.closeGateways closes).elements = d.elements := by
  unfold closeGateways
  split <;> rfl

@[simp] theorem closeGateways_lanes (d : Draft) (closes : OpenGateway → Bool) :
    (d.closeGateways closes).lanes = d.lanes := by
  unfold closeGateways
  split <;> rfl

@[simp] theorem closeGateways_references (d : Draft) (closes : OpenGateway → Bool) :
    (d.closeGateways closes).references = d.references := by
  unfold closeGateways
  split <;> rfl

end Draft

end Swimlane
