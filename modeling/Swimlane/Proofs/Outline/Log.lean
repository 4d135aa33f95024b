import Swimlane.Proofs.Outline.Attachment
import Swimlane.Proofs.Outline.Grounded

/-!
# The log of a draft

The log only grows. It introduces every element of the flow once, in the order of their declaration,
and an event goes on only from elements that the log has introduced before it, none of them an end
event.

## Main definitions

* `Event.introduced?`: the element that an event introduces;
* `Event.sources`: the elements from which an event goes on.

## Main statements

* `Draft.Prepares.names`, `Draft.Declares.names`: what open gateways name was named before or is
  new;
* `Draft.Prepares.logs`, `Draft.Declares.logs`: the log grows by events that go on from what open
  gateways name;
* `Draft.Chronicled`: the log and the elements go together;
* `Draft.Ongoing`: nothing goes on from an end event.
-/

namespace Swimlane

open Relation (ReflTransGen)

/-- The id of the element that an event introduces. -/
def Event.introduced? : Event → Option String
  | .declared id => some id
  | .branchOpened _ task _ => some task
  | .branchStep _ id => some id
  | .gatewayClosed .. | .messagePaired .. | .flowBreak => none

/-- The ids from which an event goes on. -/
def Event.sources : Event → List String
  | .branchOpened gateway _ _ => [gateway]
  | .branchStep after _ => after.toList
  | .gatewayClosed _ continuation => continuation.toList
  | .declared _ | .messagePaired .. | .flowBreak => []

/-- The id of an element of the flow. -/
def Element.flowId? (e : Element) : Option String := if e.isFlowNode then some e.id else none

theorem Element.Grows.flowId? {e e' : Element} (h : e.Grows e') : e'.flowId? = e.flowId? := by
  simp only [Element.flowId?, h.isFlowNode, h.id]

theorem filterMap_flowId? (es : List Element) :
    es.filterMap Element.flowId? = (es.filter (·.isFlowNode)).map (·.id) := by
  induction es with
  | nil => rfl
  | cons e es ih => by_cases h : e.isFlowNode = true <;> simp [Element.flowId?, h, ih]

namespace Draft

variable {d d' : Draft} {l : Line}

/-! ## What a change logs -/

theorem introduced?_flowEvent (gateways : List OpenGateway) (e : Element) :
    (flowEvent gateways e).introduced? = some e.id := by
  unfold flowEvent
  split <;> rfl

theorem mem_sources_flowEvent {gateways : List OpenGateway} {e : Element} {id : String}
    (h : id ∈ (flowEvent gateways e).sources) : ∃ g ∈ gateways, g.Names id := by
  cases gateways with
  | nil => cases h
  | cons g outer =>
    obtain ⟨gid, slot, depth, branches, body, continuation⟩ := g
    cases body with
    | none => cases h
    | some b => exact ⟨_, List.mem_cons_self, .inr (.inl ⟨b, rfl, Option.mem_toList.1 h⟩)⟩

theorem introduced?_pairing (waiting : List WaitingMessage) (l : Line) (e : Element) :
    (pairing waiting l e).filterMap Event.introduced? = [] := by
  refine List.filterMap_eq_nil_iff.2 fun ev hev => ?_
  obtain ⟨sender, receiver, label, rfl⟩ := messages_pairing hev
  rfl

theorem sources_pairing {waiting : List WaitingMessage} {l : Line} {e : Element} {ev : Event}
    (h : ev ∈ pairing waiting l e) : ev.sources = [] := by
  obtain ⟨sender, receiver, label, rfl⟩ := messages_pairing h
  rfl

/-- The log grows by events that introduce the elements given and go on from what open gateways
name. -/
def Logs (d d' : Draft) (introduced : List String) : Prop :=
  ∃ new, d'.events = d.events ++ new ∧ new.filterMap Event.introduced? = introduced ∧
    ∀ ev ∈ new, ∀ id ∈ ev.sources, ∃ g ∈ d.gateways, g.Names id

theorem logs_of_events_eq (h : d'.events = d.events) : d.Logs d' [] :=
  ⟨[], by simp [h], rfl, by simp⟩

theorem Logs.isPrefix {introduced : List String} (h : d.Logs d' introduced) :
    d.events <+: d'.events := by
  obtain ⟨new, events, -⟩ := h
  exact events ▸ List.prefix_append _ _

theorem Closes.logs (h : Closes d d') : d.Logs d' [] := by
  cases h with
  | inner => exact logs_of_events_eq rfl
  | @last g hg =>
    refine ⟨[.gatewayClosed g.id g.exit], rfl, rfl, ?_⟩
    intro ev hev id hid
    obtain rfl := List.mem_singleton.1 hev
    exact ⟨g, by simp [hg], OpenGateway.names_of_exit (Option.mem_toList.1 hid)⟩

theorem Prepares.logs (h : Prepares l d d') : d.Logs d' [] := by
  cases h with
  | warned | named | connected => exact logs_of_events_eq rfl
  | closed h => exact h.logs
  | entered name => exact logs_of_events_eq (openLane_events d name)
  | broken => exact ⟨[.flowBreak], rfl, rfl, by simp [Event.sources]⟩

/-- A declaring change logs its element, if it is one of the flow. -/
theorem Declares.logs (h : Declares l d d') :
    ∃ introduced, d.Logs d' introduced ∧
      d'.elements.filterMap Element.flowId? =
        d.elements.filterMap Element.flowId? ++ introduced := by
  cases h with
  | @node lane label kind hl hk =>
    let e := d.newElement lane l label kind
    have flow : e.flowId? = some e.id := by
      simp [Element.flowId?, Element.isFlowNode, e, newElement, hk.isFlowNode]
    refine ⟨[e.id], ⟨_, addNode_events .., ?_, ?_⟩, ?_⟩
    · simp [introduced?_flowEvent, introduced?_pairing, e]
    · intro ev hev id hid
      rcases List.mem_cons.1 hev with rfl | hev
      · exact mem_sources_flowEvent hid
      · simp [sources_pairing hev] at hid
    · simp [addNode_elements, flow, e]
  | @branch lane g outer sign label text hl hg =>
    let e := d.newElement lane l text .task
    refine ⟨[e.id], ⟨_, addBranch_events .., rfl, ?_⟩, ?_⟩
    · intro ev hev id hid
      obtain rfl := List.mem_singleton.1 hev
      obtain rfl := List.mem_singleton.1 hid
      exact ⟨g, by simp [hg], .inl rfl⟩
    · have flow : e.flowId? = some e.id := rfl
      rw [addBranch_elements, filterMap_modify_addBranch fun _ _ h => h.flowId?]
      simp [flow, e]
  | @aside lane kind label hl hk =>
    refine ⟨[], logs_of_events_eq rfl, ?_⟩
    have beside : kind.isFlowNode = false := by
      rcases hk with ⟨associated, rfl⟩ | rfl <;> rfl
    simp [declare, Element.flowId?, Element.isFlowNode, newElement, beside]

/-! ## What open gateways name -/

theorem Prepares.names (h : Prepares l d d') {g : OpenGateway} (hg : g ∈ d'.gateways) {id : String}
    (named : g.Names id) : ∃ o ∈ d.gateways, o.Names id := by
  cases h with
  | warned | named | connected | broken => exact ⟨g, hg, named⟩
  | closed h => exact h.names hg named
  | entered name => exact ⟨g, openLane_gateways d name ▸ hg, named⟩

/-- The gateways behind an element of the flow name the element only if it is no end event. -/
theorem names_follow {gateways : List OpenGateway} {e : Element} {g : OpenGateway} {id : String}
    (hg : g ∈ follow gateways e) (named : g.Names id) :
    (∃ o ∈ gateways, o.Names id) ∨ id = e.id ∧ e.kind ≠ .endEvent := by
  obtain ⟨o, ho, rfl | rfl⟩ := mem_follow hg
  · exact .inl ⟨g, ho, named⟩
  · rcases OpenGateway.names_of_setTail named with old | tail
    · exact .inl ⟨o, ho, old⟩
    · by_cases ends : e.kind = .endEvent
      · simp [ends] at tail
      · exact .inr ⟨eq_of_tail tail, ends⟩

/-- The gateways behind a declaring change name the new element and nothing else that is new. It is
no end event then. -/
theorem Declares.names (h : Declares l d d') (hs : d.Stacked) {g : OpenGateway}
    (hg : g ∈ d'.gateways) {id : String} (named : g.Names id) :
    (∃ o ∈ d.gateways, o.Names id) ∨
      ∃ e ∈ d'.elements, e.id = id ∧ e.line = l.number ∧ e.kind ≠ .endEvent := by
  cases h with
  | @node lane label kind hl hk =>
    let e := d.newElement lane l label kind
    have new (kind' : e.kind ≠ .endEvent) : ∃ x ∈ (d.addNode lane l label kind).elements,
        x.id = e.id ∧ x.line = l.number ∧ x.kind ≠ .endEvent :=
      ⟨e, by simp [e], rfl, rfl, kind'⟩
    rw [addNode_gateways] at hg
    rcases List.mem_append.1 hg with opened | followed
    · obtain rfl := eq_of_mem_openedBy opened
      obtain rfl : id = e.id := by simpa [OpenGateway.Names] using named
      refine .inr (new fun ends => ?_)
      simp [openedBy, e, ends] at opened
    · rcases names_follow followed named with old | ⟨rfl, kind'⟩
      · exact .inl old
      · exact .inr (new kind')
  | @branch lane o outer sign label text hl open' =>
    rw [addBranch_gateways] at hg
    rcases List.mem_cons.1 hg with rfl | hg
    · rcases OpenGateway.names_of_startBody named with old | rfl
      · exact .inl ⟨o, by simp [open'], old⟩
      · have new := hs.newElement_mem_addBranch l sign label text hl open'
        exact .inr ⟨_, new, rfl, rfl, by simp [newElement]⟩
    · exact .inl ⟨g, by simp [open', hg], named⟩
  | aside => exact .inl ⟨g, hg, named⟩

theorem events_prefix_consume (defaultLane : String) (l : Line) (hd : d.Anchored) :
    d.events <+: (d.consume defaultLane l).events := by
  obtain ⟨d₁, prepares, last⟩ := consume_changes defaultLane l hd
  have first : d.events <+: d₁.events :=
    invariant_of_changes (P := fun x => d.events <+: x.events)
      (fun _ _ step earlier => earlier.trans step.logs.isPrefix) prepares (List.prefix_refl _)
  rcases last with same | declares
  · exact same ▸ first
  · obtain ⟨introduced, logs, -⟩ := declares.logs
    exact first.trans logs.isPrefix

/-- The log only grows. -/
theorem events_prefix_run (defaultLane : String) (hd : d.Anchored) (ls : List Line) :
    d.events <+: (d.run defaultLane ls).events := by
  induction ls generalizing d with
  | nil => exact List.prefix_refl _
  | cons l ls ih =>
    exact (events_prefix_consume defaultLane l hd).trans (ih (anchored_consume defaultLane l hd))

/-! ## The log and the elements -/

/-- The log introduces the elements of the flow in their order, and each of its events goes on from
elements that it has introduced before. -/
structure Chronicled (d : Draft) : Prop where
  introduced : d.events.filterMap Event.introduced? = d.elements.filterMap Element.flowId?
  sources : ∀ before ev, before ++ [ev] <+: d.events → ∀ id ∈ ev.sources,
    id ∈ before.filterMap Event.introduced?

theorem chronicled_empty : Chronicled {} where
  introduced := rfl
  sources := by simp

theorem Chronicled.mem_introduced (h : d.Chronicled) {id : String} (hid : d.HasNode id) :
    id ∈ d.events.filterMap Event.introduced? := by
  obtain ⟨e, he, rfl, flow⟩ := hid
  rw [h.introduced]
  exact List.mem_filterMap.2 ⟨e, he, by simp [Element.flowId?, flow]⟩

/-- An event of a longer log stands in the log or behind it. -/
theorem prefix_or_append {before events new : List Event} {ev : Event}
    (h : before ++ [ev] <+: events ++ new) :
    before ++ [ev] <+: events ∨ ∃ rest, before = events ++ rest ∧ rest ++ [ev] <+: new := by
  rcases List.prefix_or_prefix_of_prefix h (List.prefix_append events new) with old | long
  · exact .inl old
  · rcases List.prefix_concat_iff.1 long with same | ⟨rest, rfl⟩
    · exact .inl (same ▸ List.prefix_refl _)
    · rw [List.append_assoc, List.prefix_append_right_inj] at h
      exact .inr ⟨rest, rfl, h⟩

theorem Chronicled.extend (hd : d.Chronicled) (hg : d.Grounded) {introduced : List String}
    (logs : d.Logs d' introduced)
    (elements : d'.elements.filterMap Element.flowId? =
      d.elements.filterMap Element.flowId? ++ introduced) : d'.Chronicled := by
  obtain ⟨new, events, names, sources⟩ := logs
  refine ⟨by rw [events, List.filterMap_append, hd.introduced, names, elements], ?_⟩
  intro before ev hev id hid
  rw [events] at hev
  rcases prefix_or_append hev with old | ⟨rest, rfl, behind⟩
  · exact hd.sources before ev old id hid
  · obtain ⟨g, hmem, named⟩ := sources ev (behind.subset (by simp)) id hid
    have node := hd.mem_introduced (hg.gateways g hmem id named).hasNode
    rw [List.filterMap_append]
    exact List.mem_append_left _ node

theorem Closes.chronicled (h : Closes d d') (hg : d.Grounded) (hd : d.Chronicled) :
    d'.Chronicled :=
  hd.extend hg h.logs (by rw [h.elements, List.append_nil])

theorem Prepares.chronicled (h : Prepares l d d') (hg : d.Grounded) (hd : d.Chronicled) :
    d'.Chronicled :=
  hd.extend hg h.logs (by rw [h.elements, List.append_nil])

theorem Declares.chronicled (h : Declares l d d') (hg : d.Grounded) (hd : d.Chronicled) :
    d'.Chronicled := by
  obtain ⟨introduced, logs, elements⟩ := h.logs
  exact hd.extend hg logs elements

/-- No event introduces what another one has introduced. -/
theorem Chronicled.introduced_nodup (h : d.Chronicled) (hr : d.Registered) :
    (d.events.filterMap Event.introduced?).Nodup := by
  rw [h.introduced, filterMap_flowId?]
  exact hr.elementIds_nodup.sublist (List.filter_sublist.map _)

/-! ## End events -/

/-- The id of an element at which the flow can go on. -/
def GoesOn (d : Draft) (id : String) : Prop :=
  ∃ e ∈ d.elements, e.id = id ∧ e.kind ≠ .endEvent

theorem GoesOn.mono {id : String} (h : d.GoesOn id) (later : d.Precedes d') : d'.GoesOn id := by
  obtain ⟨e, he, rfl, kind⟩ := h
  obtain ⟨e', he', grows⟩ := later.mem he
  exact ⟨e', he', grows.id, fun ends => kind ((grows.kind_eq_iff (by simp)).1 ends)⟩

/-- Open gateways and events name no end event as a place where the flow goes on. -/
structure Ongoing (d : Draft) : Prop where
  gateways : ∀ g ∈ d.gateways, ∀ id, g.Names id → d.GoesOn id
  events : ∀ ev ∈ d.events, ∀ id ∈ ev.sources, d.GoesOn id

theorem ongoing_empty : Ongoing {} where
  gateways := by simp
  events := by simp

theorem Ongoing.extend (hd : d.Ongoing) (later : d.Precedes d') {introduced : List String}
    (logs : d.Logs d' introduced)
    (gateways : ∀ g ∈ d'.gateways, ∀ id, g.Names id →
      (∃ o ∈ d.gateways, o.Names id) ∨ d'.GoesOn id) : d'.Ongoing := by
  obtain ⟨new, events, -, sources⟩ := logs
  refine ⟨fun g hg id named => ?_, fun ev hev id hid => ?_⟩
  · rcases gateways g hg id named with ⟨o, ho, old⟩ | new
    · exact (hd.gateways o ho id old).mono later
    · exact new
  · rw [events] at hev
    rcases List.mem_append.1 hev with old | new
    · exact (hd.events ev old id hid).mono later
    · obtain ⟨g, hg, named⟩ := sources ev new id hid
      exact (hd.gateways g hg id named).mono later

theorem Closes.ongoing (h : Closes d d') (hd : d.Ongoing) : d'.Ongoing :=
  hd.extend h.precedes h.logs fun _ hg _ named => .inl (h.names hg named)

theorem Prepares.ongoing (h : Prepares l d d') (hd : d.Ongoing) : d'.Ongoing :=
  hd.extend h.precedes h.logs fun _ hg _ named => .inl (h.names hg named)

theorem Declares.ongoing (h : Declares l d d') (hs : d.Stacked) (hd : d.Ongoing) :
    d'.Ongoing := by
  obtain ⟨introduced, logs, -⟩ := h.logs
  refine hd.extend h.precedes logs fun g hg id named => ?_
  refine (h.names hs hg named).imp_right ?_
  rintro ⟨e, he, own, -, kind⟩
  exact ⟨e, he, own, kind⟩

end Draft

namespace Outline

open Draft

theorem chronicled_draft (defaultLane : String) (lines : List Line) :
    (draft defaultLane lines).Chronicled := by
  have run : (draft defaultLane lines).Grounded ∧ (draft defaultLane lines).Chronicled :=
    draft_invariant (P := fun d => d.Grounded ∧ d.Chronicled) defaultLane
      ⟨grounded_empty, chronicled_empty⟩
      (fun _ _ _ _ h hd => ⟨h.grounded hd.1, h.chronicled hd.1 hd.2⟩)
      fun _ _ _ _ h hd => ⟨h.grounded hd.1, h.chronicled hd.1 hd.2⟩
  exact run.2

theorem chronicled_finished (defaultLane : String) (lines : List Line) :
    (finished defaultLane lines).Chronicled := by
  have closed := finished_invariant (P := fun d => d.Grounded ∧ d.Chronicled) defaultLane
    (fun _ _ h hd => ⟨h.grounded hd.1, h.chronicled hd.1 hd.2⟩)
    ⟨grounded_draft defaultLane lines, chronicled_draft defaultLane lines⟩
  exact closed.2

theorem ongoing_finished (defaultLane : String) (lines : List Line) :
    (finished defaultLane lines).Ongoing := by
  have run : (draft defaultLane lines).Stacked ∧ (draft defaultLane lines).Ongoing :=
    draft_invariant (P := fun d => d.Stacked ∧ d.Ongoing) defaultLane
      ⟨stacked_of_nil rfl, ongoing_empty⟩
      (fun _ _ _ _ h hd => ⟨h.stacked hd.1, h.ongoing hd.2⟩)
      fun _ _ _ _ h hd => ⟨h.stacked hd.1, h.ongoing hd.1 hd.2⟩
  exact finished_invariant defaultLane (fun _ _ h => h.ongoing) run.2

end Outline

end Swimlane
