import Swimlane.Proofs.Outline.Growth

/-!
# Ids that a draft passes on

Events, open gateways, waiting messages and references name elements by their ids. All of these ids
belong to elements of the flow that the draft has declared, and those that open gateways pass on
belong to the current lane.

## Main statements

* `Draft.HasNode`: an id of a declared element of the flow; it stays one;
* `Draft.Grounded`: every id that the draft passes on is of this kind, after every change.
-/

namespace Swimlane

/-- The ids that an event names. -/
def Event.ids : Event → List String
  | .declared id => [id]
  | .branchOpened gateway task _ => [gateway, task]
  | .branchStep after id => after.toList ++ [id]
  | .gatewayClosed gateway continuation => gateway :: continuation.toList
  | .messagePaired sender receiver _ => [sender, receiver]
  | .flowBreak => []

namespace OpenGateway

/-- The ids from which the flow may go on behind an open gateway, its own included. -/
def Names (g : OpenGateway) (id : String) : Prop :=
  id = g.id ∨ (∃ b, g.body = some b ∧ b.tail = some id) ∨ g.continuation = some (some id)

variable {g : OpenGateway} {id : String}

theorem names_of_finishBody (h : g.finishBody.continuation = some (some id)) : g.Names id := by
  unfold finishBody at h
  split at h
  · next tail hb _ => exact .inr (.inl ⟨_, hb, by simpa using h⟩)
  · exact .inr (.inr h)

theorem names_of_exit (h : g.exit = some id) : g.Names id := by
  unfold exit at h
  split at h
  · exact .inl (by simpa using h.symm)
  · exact names_of_finishBody (Option.join_eq_some_iff.1 h)

theorem names_of_setTail {t : Option String} (h : (g.setTail t).Names id) :
    g.Names id ∨ t = some id := by
  obtain h | ⟨b, hb, ht⟩ | h := h
  · exact .inl (.inl h)
  · obtain ⟨b', -, rfl⟩ := Option.map_eq_some_iff.1 hb
    exact .inr ht
  · exact .inl (.inr (.inr h))

theorem names_of_startBody {sign : Sign} {task : String} (h : (g.startBody sign task).Names id) :
    g.Names id ∨ id = task := by
  obtain h | ⟨b, hb, ht⟩ | h := h
  · exact .inl (.inl (by simpa using h))
  · cases hb
    exact .inr (by simpa using ht.symm)
  · exact .inl (names_of_finishBody h)

end OpenGateway

namespace Draft

/-- The id belongs to a declared element of the flow. -/
def HasNode (d : Draft) (id : String) : Prop := ∃ e ∈ d.elements, e.id = id ∧ e.isFlowNode = true

theorem HasNode.mono {d d' : Draft} {id : String} (h : d.HasNode id) (hd : d.Precedes d') :
    d'.HasNode id := by
  obtain ⟨e, he, rfl, flow⟩ := h
  obtain ⟨e', he', grows⟩ := hd.mem he
  exact ⟨e', he', grows.id, grows.isFlowNode.trans flow⟩

/-- The id belongs to a declared element of the flow in the current lane. -/
def HasLocalNode (d : Draft) (id : String) : Prop :=
  ∃ e ∈ d.elements, e.id = id ∧ e.isFlowNode = true ∧ d.current.map (·.id) = some e.lane

theorem HasLocalNode.mono {d d' : Draft} {id : String} (h : d.HasLocalNode id)
    (hd : d.Precedes d') (current : d'.current = d.current) : d'.HasLocalNode id := by
  obtain ⟨e, he, rfl, flow, lane⟩ := h
  obtain ⟨e', he', grows⟩ := hd.mem he
  exact ⟨e', he', grows.id, grows.isFlowNode.trans flow, by rw [current, grows.lane, lane]⟩

theorem HasLocalNode.hasNode {d : Draft} {id : String} (h : d.HasLocalNode id) : d.HasNode id := by
  obtain ⟨e, he, hid, flow, -⟩ := h
  exact ⟨e, he, hid, flow⟩

/-- Every id that the draft passes on belongs to a declared element of the flow. -/
structure Grounded (d : Draft) : Prop where
  events : ∀ ev ∈ d.events, ∀ id ∈ ev.ids, d.HasNode id
  gateways : ∀ g ∈ d.gateways, ∀ id, g.Names id → d.HasLocalNode id
  waiting : ∀ w ∈ d.waiting, d.HasNode w.element
  references : ∀ r ∈ d.references, r.kind ≠ .dataAssociation ∧
    ∀ id, r.source = .element id ∨ r.target = .element id → d.HasNode id

theorem grounded_empty : Grounded {} where
  events := by simp
  gateways := by simp
  waiting := by simp
  references := by simp

/-- What was grounded stays so; what a change adds has to be checked. -/
theorem Grounded.extend {d d' : Draft} (hd : d.Grounded) (later : d.Precedes d')
    (current : d'.gateways ≠ [] → d'.current = d.current)
    (events : ∀ ev ∈ d'.events, ev ∈ d.events ∨ ∀ id ∈ ev.ids, d'.HasNode id)
    (gateways : ∀ g ∈ d'.gateways, ∀ id, g.Names id →
      (∃ o ∈ d.gateways, o.Names id) ∨ d'.HasLocalNode id)
    (waiting : ∀ w ∈ d'.waiting, w ∈ d.waiting ∨ d'.HasNode w.element)
    (references : ∀ r ∈ d'.references, r ∈ d.references ∨ r.kind ≠ .dataAssociation ∧
      ∀ id, r.source = .element id ∨ r.target = .element id → d'.HasNode id) : d'.Grounded where
  events := fun ev hev => (events ev hev).elim
    (fun old id hid => (hd.events ev old id hid).mono later) id
  gateways := fun g hg id hid => (gateways g hg id hid).elim
    (fun ⟨o, ho, old⟩ => (hd.gateways o ho id old).mono later (current (List.ne_nil_of_mem hg))) (·)
  waiting := fun w hw => (waiting w hw).elim (fun old => (hd.waiting w old).mono later) id
  references := fun r hr => (references r hr).elim
    (fun old => ⟨(hd.references r old).1, fun id hid =>
      ((hd.references r old).2 id hid).mono later⟩) id

/-- A gateway that stays open when another one is closed names nothing new. -/
theorem Closes.names {d d' : Draft} (h : Closes d d') {o : OpenGateway} (ho : o ∈ d'.gateways)
    {id : String} (named : o.Names id) : ∃ o ∈ d.gateways, o.Names id := by
  cases h with
  | @inner g parent outer hg =>
    rcases List.mem_cons.1 ho with rfl | ho
    · rcases OpenGateway.names_of_setTail named with old | exit
      · exact ⟨parent, by simp [hg], old⟩
      · exact ⟨g, by simp [hg], OpenGateway.names_of_exit exit⟩
    · exact ⟨o, by simp [hg, ho], named⟩
  | last => cases ho

theorem Closes.grounded {d d' : Draft} (h : Closes d d') (hd : d.Grounded) : d'.Grounded := by
  have later := h.precedes
  have names : ∀ g ∈ d'.gateways, ∀ id, g.Names id → ∃ o ∈ d.gateways, o.Names id :=
    fun _ hg _ => h.names hg
  cases h with
  | inner =>
    exact hd.extend later (fun _ => rfl) (fun _ h => .inl h)
      (fun g hg id named => .inl (names g hg id named)) (fun _ h => .inl h) fun _ h => .inl h
  | @last g hg =>
    refine hd.extend later (fun _ => rfl) ?_ (by simp) (fun _ h => .inl h) fun _ h => .inl h
    intro ev hev
    obtain hev | hev := List.mem_append.1 hev
    · exact .inl hev
    · right
      intro id hid
      obtain rfl := List.mem_singleton.1 hev
      have named : g.Names id := by
        obtain rfl | hid := List.mem_cons.1 hid
        · exact .inl rfl
        · exact OpenGateway.names_of_exit (Option.mem_toList.1 hid)
      exact (hd.gateways g (by simp [hg]) id named).hasNode

theorem hasNode_lastFlowNode {d : Draft} {e : Element} (h : d.lastFlowNode? = some e) :
    d.HasNode e.id := by
  obtain ⟨he, flow⟩ := List.mem_filter.1 (List.mem_of_getLast? h)
  exact ⟨e, he, rfl, flow⟩

theorem openLane_grounded {d : Draft} (hd : d.Grounded) (name : String) (hg : d.gateways = []) :
    (d.openLane name).Grounded := by
  refine hd.extend (precedes_of_elements_eq (openLane_elements d name) (openLane_lanes d name))
    (fun h => absurd ((openLane_gateways d name).trans hg) h) ?_ ?_ ?_ ?_
  all_goals
    unfold openLane
    split <;> grind

theorem Prepares.grounded {l : Line} {d d' : Draft} (h : Prepares l d d') (hd : d.Grounded) :
    d'.Grounded := by
  have later := h.precedes
  cases h with
  | warned | named => exact { hd with }
  | closed h => exact h.grounded hd
  | entered name hg => exact openLane_grounded hd name hg
  | broken =>
    refine hd.extend later (fun _ => rfl) ?_ (fun g hg _ h => .inl ⟨g, hg, h⟩) (fun _ h => .inl h)
      fun _ h => .inl h
    intro ev hev
    obtain hev | hev := List.mem_append.1 hev
    · exact .inl hev
    · exact .inr (by simp [List.mem_singleton.1 hev, Event.ids])
  | @connected lane near direction target label hl hn =>
    refine hd.extend later (fun _ => rfl) (fun _ h => .inl h) (fun g hg _ h => .inl ⟨g, hg, h⟩)
      (fun _ h => .inl h) ?_
    intro r hr
    obtain hr | hr := List.mem_append.1 hr
    · exact .inl hr
    · obtain rfl := List.mem_singleton.1 hr
      refine .inr ⟨by simp, fun id hid => ?_⟩
      have near' : near = .element id := by
        cases direction <;> simpa [ArrowDirection.ends] using hid
      obtain ⟨text, rfl⟩ | ⟨e, he, rfl⟩ := hn
      · simp at near'
      · obtain rfl : e.id = id := by simpa using near'
        exact (hasNode_lastFlowNode he).mono later

/-- The arrow behind an element names only the element itself by its id. -/
theorem arrowOf_grounded {d : Draft} {lane : LaneHeader} {l : Line} {e : Element}
    (he : d.HasNode e.id) : ∀ r ∈ arrowOf lane l e, r.kind ≠ .dataAssociation ∧
      ∀ id, r.source = .element id ∨ r.target = .element id → d.HasNode id := by
  intro r hr
  obtain ⟨arrow, -, rfl⟩ := List.mem_map.1 hr
  refine ⟨by simp, fun id hid => ?_⟩
  obtain rfl : e.id = id := by
    cases hd : arrow.direction <;> simpa [hd, ArrowDirection.ends] using hid
  exact he

/-- The event of an element names the element and an id that a gateway passes on. -/
theorem mem_ids_of_flowEvent {gateways : List OpenGateway} {e : Element} {id : String}
    (h : id ∈ (flowEvent gateways e).ids) : id = e.id ∨ ∃ g ∈ gateways, g.Names id := by
  cases gateways with
  | nil => exact .inl (List.mem_singleton.1 h)
  | cons g outer =>
    cases hb : g.body with
    | none =>
      obtain ⟨gid, slot, depth, branches, body, continuation⟩ := g
      cases hb
      exact .inl (List.mem_singleton.1 h)
    | some b =>
      obtain ⟨gid, slot, depth, branches, body, continuation⟩ := g
      cases hb
      simp only [flowEvent, Event.ids, List.mem_append, Option.mem_toList, List.mem_singleton] at h
      obtain tail | rfl := h
      · exact .inr ⟨_, List.mem_cons_self, .inr (.inl ⟨b, rfl, tail⟩)⟩
      · exact .inl rfl

theorem mem_waiting_of_otherSide? {waiting : List WaitingMessage} {m w : WaitingMessage}
    (h : otherSide? waiting m = some w) : w ∈ waiting :=
  List.mem_of_find?_eq_some h

theorem element_of_messageOf? {l : Line} {e : Element} {m : WaitingMessage}
    (h : messageOf? l e = some m) : m.element = e.id := by
  unfold messageOf? at h
  split at h
  · simp only [Option.some.injEq] at h
    exact h ▸ rfl
  · simp at h

/-- A pairing names the element and a waiting one. -/
theorem mem_ids_of_pairing {waiting : List WaitingMessage} {l : Line} {e : Element} {ev : Event}
    (h : ev ∈ pairing waiting l e) {id : String} (hid : id ∈ ev.ids) :
    id = e.id ∨ ∃ w ∈ waiting, w.element = id := by
  unfold pairing at h
  cases hm : messageOf? l e with
  | none => simp [hm] at h
  | some m =>
    simp only [hm, Option.mem_toList, Option.map_eq_some_iff] at h
    obtain ⟨w, hw, rfl⟩ := h
    have element := element_of_messageOf? hm
    have waits := mem_waiting_of_otherSide? hw
    cases hs : m.side <;> grind [joinEvent, Event.ids]

theorem mem_waitingAfter {waiting : List WaitingMessage} {l : Line} {e : Element}
    {w : WaitingMessage} (h : w ∈ waitingAfter waiting l e) : w ∈ waiting ∨ w.element = e.id := by
  unfold waitingAfter at h
  cases hm : messageOf? l e with
  | none => simpa [hm] using Or.inl h
  | some m =>
    have element := element_of_messageOf? hm
    cases ho : otherSide? waiting m with
    | none => grind
    | some w' => grind [List.mem_of_mem_erase]

section

variable {d : Draft} {lane : LaneHeader} {l : Line}

/-- The gateways behind an element of the flow pass on what they did, and the new element. -/
theorem names_addNode {label : String} {kind : ElementKind} {g : OpenGateway} {id : String}
    (hg : g ∈ (d.addNode lane l label kind).gateways) (hid : g.Names id) :
    (∃ o ∈ d.gateways, o.Names id) ∨ id = (d.newElement lane l label kind).id := by
  rw [addNode_gateways, List.mem_append] at hg
  obtain hg | hg := hg
  · obtain rfl := eq_of_mem_openedBy hg
    exact .inr (by simpa [OpenGateway.Names] using hid)
  · obtain ⟨o, ho, rfl | rfl⟩ := mem_follow hg
    · exact .inl ⟨g, ho, hid⟩
    · obtain old | tail := OpenGateway.names_of_setTail hid
      · exact .inl ⟨o, ho, old⟩
      · exact .inr (eq_of_tail tail)

theorem hasLocalNode_addNode (hl : d.current = some lane) (l : Line) {label : String}
    {kind : ElementKind} (hk : kind.IsNew label) :
    (d.addNode lane l label kind).HasLocalNode (d.newElement lane l label kind).id :=
  ⟨d.newElement lane l label kind, by simp, rfl, hk.isFlowNode, by simp [hl, newElement]⟩

theorem hasLocalNode_addBranch (hl : d.current = some lane) (l : Line) (g : OpenGateway)
    (outer : List OpenGateway) (sign : Sign) (label : Option String) (text : String) :
    (d.addBranch lane l g outer sign label text).HasLocalNode
      (d.newElement lane l text .task).id := by
  let e := d.newElement lane l text .task
  let view (x : Element) := (x.id, x.isFlowNode, x.lane)
  have mapped : (d.addBranch lane l g outer sign label text).elements.map view =
      d.elements.map view ++ [view e] := by
    rw [addBranch_elements, map_modify_addBranch fun _ _ h => by
      simp only [view, h.id, h.isFlowNode, h.lane], List.map_append, List.map_singleton]
  have last : view e ∈ (d.addBranch lane l g outer sign label text).elements.map view := by
    rw [mapped]
    exact List.mem_append_right _ List.mem_cons_self
  obtain ⟨x, hx, heq⟩ := List.mem_map.1 last
  obtain ⟨id, flow, lane'⟩ : x.id = e.id ∧ x.isFlowNode = e.isFlowNode ∧ x.lane = e.lane := by
    simpa [view] using heq
  exact ⟨x, hx, id, flow, by simp [hl, lane', e, newElement]⟩

theorem Grounded.addNode (hd : d.Grounded) (hl : d.current = some lane) {label : String}
    {kind : ElementKind} (hk : kind.IsNew label)
    (later : d.Precedes (d.addNode lane l label kind)) :
    (d.addNode lane l label kind).Grounded := by
  have here := hasLocalNode_addNode hl l hk
  have new := here.hasNode
  refine hd.extend later (fun _ => addNode_current ..) ?_ ?_ ?_ ?_
  · intro ev hev
    rw [addNode_events, List.mem_append, List.mem_cons] at hev
    obtain hev | rfl | hev := hev
    · exact .inl hev
    · right
      intro id hid
      obtain rfl | ⟨g, hg, named⟩ := mem_ids_of_flowEvent hid
      · exact new
      · exact (hd.gateways g hg id named).hasNode.mono later
    · right
      intro id hid
      obtain rfl | ⟨w, hw, rfl⟩ := mem_ids_of_pairing hev hid
      · exact new
      · exact (hd.waiting w hw).mono later
  · intro g hg id hid
    obtain old | rfl := names_addNode hg hid
    · exact .inl old
    · exact .inr here
  · intro w hw
    rw [addNode_waiting] at hw
    obtain old | element := mem_waitingAfter hw
    · exact .inl old
    · exact .inr (element ▸ new)
  · intro r hr
    rw [addNode_references, List.mem_append] at hr
    exact hr.imp_right (arrowOf_grounded new r)

theorem Grounded.addBranch (hd : d.Grounded) (hl : d.current = some lane) {g : OpenGateway}
    {outer : List OpenGateway} {sign : Sign} {label : Option String} {text : String}
    (hg : d.gateways = g :: outer)
    (later : d.Precedes (d.addBranch lane l g outer sign label text)) :
    (d.addBranch lane l g outer sign label text).Grounded := by
  have here := hasLocalNode_addBranch hl l g outer sign label text
  have new := here.hasNode
  refine hd.extend later (fun _ => addBranch_current ..) ?_ ?_
    (fun w hw => .inl (by simpa using hw)) ?_
  · intro ev hev
    rw [addBranch_events, List.mem_append, List.mem_singleton] at hev
    refine hev.imp_right ?_
    rintro rfl id hid
    simp only [Event.ids, List.mem_cons, List.not_mem_nil, or_false] at hid
    obtain rfl | rfl := hid
    · exact (hd.gateways g (by simp [hg]) g.id (.inl rfl)).hasNode.mono later
    · exact new
  · intro o ho id hid
    rw [addBranch_gateways] at ho
    obtain rfl | ho := List.mem_cons.1 ho
    · obtain old | rfl := OpenGateway.names_of_startBody hid
      · exact .inl ⟨g, by simp [hg], old⟩
      · exact .inr here
    · exact .inl ⟨o, by simp [hg, ho], hid⟩
  · intro r hr
    rw [addBranch_references, List.mem_append] at hr
    exact hr.imp_right (arrowOf_grounded new r)

end

theorem Declares.grounded {l : Line} {d d' : Draft} (h : Declares l d d') (hd : d.Grounded) :
    d'.Grounded := by
  have later := h.precedes
  cases h with
  | node hl hk => exact hd.addNode hl hk later
  | branch sign label text hl hg => exact hd.addBranch hl hg later
  | aside =>
    exact hd.extend later (fun _ => rfl) (fun _ h => .inl h) (fun g hg _ h => .inl ⟨g, hg, h⟩)
      (fun _ h => .inl h) fun _ h => .inl h

end Draft

namespace Outline

open Draft

theorem grounded_draft (defaultLane : String) (lines : List Line) :
    (draft defaultLane lines).Grounded :=
  draft_invariant defaultLane grounded_empty (fun _ _ _ _ h => h.grounded)
    fun _ _ _ _ h => h.grounded

theorem grounded_finished (defaultLane : String) (lines : List Line) :
    (finished defaultLane lines).Grounded :=
  finished_invariant defaultLane (fun _ _ h => h.grounded) (grounded_draft defaultLane lines)

end Outline

end Swimlane
