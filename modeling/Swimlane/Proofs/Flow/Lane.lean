import Swimlane.Proofs.Document
import Swimlane.Proofs.Flow.Thread
import Swimlane.Proofs.Outline.Log

/-!
# Threads keep to their lanes

An event of the flow is about elements of one lane, since a lane is left only when all gateways are
closed. So the thread of a lane is always an element of that lane, and the cursor, where there is
one, is the thread of its own lane. The flow passes from one lane to another only where the other
one has no thread.

## Main definitions

* `Draft.HasLocalEvents`: the events of a draft are each about one lane;
* `Event.IsLocal`: an event about one lane of a document;
* `Threads.KeepsLanes`: threads and a cursor that keep to their lanes;
* `Outline.KeepsLanes`: a log whose threads keep to their lanes all along.

## Main statements

* `Outline.isLocal_finished`: the events of every draft are local;
* `Threads.KeepsLanes.step`, `Threads.KeepsLanes.after`: local events keep the threads in their
  lanes;
* `Threads.KeepsLanes.before?_eq`: no cursor has to be passed over;
* `Outline.ofText_keepsLanes`: the threads of every text keep to their lanes.
-/

namespace Swimlane

/-- The ids of the flow that an event names. The ends of a message do not count, since they may be
in two lanes. -/
def Event.flowIds : Event → List String
  | .messagePaired .. => []
  | ev => ev.ids

theorem Event.mem_ids_of_mem_flowIds {ev : Event} {id : String} (h : id ∈ ev.flowIds) :
    id ∈ ev.ids := by
  cases ev with
  | messagePaired => cases h
  | _ => exact h

namespace Draft

variable {d d' : Draft} {l : Line}

/-! ## Events about one lane -/

/-- The log grows by events about the current lane. -/
def LogsHere (d d' : Draft) : Prop :=
  ∃ new, d'.events = d.events ++ new ∧ ∀ ev ∈ new, ∀ id ∈ ev.flowIds, d'.HasLocalNode id

theorem logsHere_of_events_eq (h : d'.events = d.events) : d.LogsHere d' := ⟨[], by simp [h]⟩

theorem Closes.logsHere (h : Closes d d') (hg : d.Grounded) : d.LogsHere d' := by
  have later := h.precedes
  cases h with
  | inner => exact logsHere_of_events_eq rfl
  | @last g open' =>
    refine ⟨_, rfl, fun ev hev id hid => ?_⟩
    obtain rfl := List.mem_singleton.1 hev
    have named : g.Names id := by
      rcases List.mem_cons.1 hid with rfl | exit
      · exact .inl rfl
      · exact OpenGateway.names_of_exit (Option.mem_toList.1 exit)
    exact (hg.gateways g (by simp [open']) id named).mono later rfl

theorem Prepares.logsHere (h : Prepares l d d') (hg : d.Grounded) : d.LogsHere d' := by
  cases h with
  | warned | named | connected => exact logsHere_of_events_eq rfl
  | closed h => exact h.logsHere hg
  | entered name => exact logsHere_of_events_eq (openLane_events d name)
  | broken => exact ⟨[.flowBreak], rfl, by simp [Event.flowIds, Event.ids]⟩

theorem Declares.logsHere (h : Declares l d d') (hg : d.Grounded) : d.LogsHere d' := by
  have later := h.precedes
  cases h with
  | @node lane label kind hl hk =>
    refine ⟨_, addNode_events .., fun ev hev id hid => ?_⟩
    rcases List.mem_cons.1 hev with rfl | paired
    · rcases mem_ids_of_flowEvent (Event.mem_ids_of_mem_flowIds hid) with rfl | ⟨g, open', named⟩
      · exact hasLocalNode_addNode hl l hk
      · exact (hg.gateways g open' id named).mono later (addNode_current ..)
    · obtain ⟨sender, receiver, label, rfl⟩ := messages_pairing paired
      cases hid
  | @branch lane g outer sign label text hl open' =>
    refine ⟨_, addBranch_events .., fun ev hev id hid => ?_⟩
    obtain rfl := List.mem_singleton.1 hev
    rcases List.mem_cons.1 hid with rfl | task
    · exact (hg.gateways g (by simp [open']) g.id (.inl rfl)).mono later (addBranch_current ..)
    · obtain rfl := List.mem_singleton.1 task
      exact hasLocalNode_addBranch hl l g outer sign label text
  | aside => exact logsHere_of_events_eq rfl

/-- The draft has an element of the flow with this id in a lane. -/
def HasNodeIn (d : Draft) (lane id : String) : Prop :=
  ∃ e ∈ d.elements, e.id = id ∧ e.lane = lane ∧ e.isFlowNode = true

theorem HasNodeIn.mono {lane id : String} (h : d.HasNodeIn lane id) (later : d.Precedes d') :
    d'.HasNodeIn lane id := by
  obtain ⟨e, he, rfl, rfl, flow⟩ := h
  obtain ⟨e', he', grows⟩ := later.mem he
  exact ⟨e', he', grows.id, grows.lane, grows.isFlowNode.trans flow⟩

/-- Each event is about elements of one lane. -/
def HasLocalEvents (d : Draft) : Prop :=
  ∀ ev ∈ d.events, ∃ lane, ∀ id ∈ ev.flowIds, d.HasNodeIn lane id

theorem HasLocalEvents.extend (hd : d.HasLocalEvents) (later : d.Precedes d')
    (logs : d.LogsHere d') : d'.HasLocalEvents := by
  obtain ⟨new, events, here⟩ := logs
  intro ev hev
  rw [events] at hev
  rcases List.mem_append.1 hev with old | new
  · obtain ⟨lane, nodes⟩ := hd ev old
    exact ⟨lane, fun id hid => (nodes id hid).mono later⟩
  · refine ⟨(d'.current.map (·.id)).getD "", fun id hid => ?_⟩
    obtain ⟨e, he, own, flow, lane⟩ := here ev new id hid
    exact ⟨e, he, own, by simp [lane], flow⟩

end Draft

namespace Outline

open Draft

theorem hasLocalEvents_finished (defaultLane : String) (lines : List Line) :
    (finished defaultLane lines).HasLocalEvents := by
  have run : (draft defaultLane lines).Grounded ∧ (draft defaultLane lines).HasLocalEvents :=
    draft_invariant (P := fun d => d.Grounded ∧ d.HasLocalEvents) defaultLane
      ⟨grounded_empty, by simp [HasLocalEvents]⟩
      (fun _ _ _ _ h hd => ⟨h.grounded hd.1, hd.2.extend h.precedes (h.logsHere hd.1)⟩)
      fun _ _ _ _ h hd => ⟨h.grounded hd.1, hd.2.extend h.precedes (h.logsHere hd.1)⟩
  have closed := finished_invariant (P := fun d => d.Grounded ∧ d.HasLocalEvents) defaultLane
    (fun _ _ h hd => ⟨h.grounded hd.1, hd.2.extend h.precedes (h.logsHere hd.1)⟩) run
  exact closed.2

end Outline

/-- An event about one lane of a document: its ids of the flow are found there, and those at which
it goes on are no end events. -/
structure Event.IsLocal (doc : Document) (ev : Event) : Prop where
  lane : ∃ lane, ∀ id ∈ ev.flowIds, ∃ e, doc.findLast? id = some e ∧ e.lane = lane ∧
    e.isFlowNode = true
  sources : ∀ id ∈ ev.sources, ∀ e, doc.findLast? id = some e → e.kind ≠ .endEvent

theorem Outline.isLocal_finished (defaultLane : String) (lines : List Line) :
    ∀ ev ∈ (finished defaultLane lines).events,
      ev.IsLocal (finished defaultLane lines).document := by
  have registered := registered_finished defaultLane lines
  intro ev hev
  obtain ⟨lane, nodes⟩ := hasLocalEvents_finished defaultLane lines ev hev
  refine ⟨⟨lane, fun id hid => ?_⟩, fun id hid e found => ?_⟩
  · obtain ⟨e, he, own, inLane, flow⟩ := nodes id hid
    exact ⟨e, (Draft.findLast?_eq_some registered).2 ⟨he, own⟩, inLane, flow⟩
  · obtain ⟨x, hx, own, kind⟩ := (ongoing_finished defaultLane lines).events ev hev id hid
    have same := (Draft.findLast?_eq_some registered).2 ⟨hx, own⟩
    exact Option.some.inj (same.symm.trans found) ▸ kind

/-! ## Threads -/

namespace Threads

variable {doc : Document} {t : Threads}

/-- An element of a lane from which the flow of the lane can go on. -/
def CanFollow (doc : Document) (lane id : String) : Prop :=
  ∃ e, doc.findLast? id = some e ∧ e.lane = lane ∧ e.isFlowNode = true ∧ e.kind ≠ .endEvent

/-- The thread of a lane is an element of the flow of that lane and no end event, and the cursor is
the thread of its lane. -/
structure KeepsLanes (doc : Document) (t : Threads) : Prop where
  thread : ∀ lane id, t.thread? lane = some id → CanFollow doc lane id
  cursor : ∀ c, t.cursor = some c → ∃ e, doc.findLast? c = some e ∧ t.thread? e.lane = some c

theorem keepsLanes_empty : KeepsLanes doc {} where
  thread := by simp [thread?]
  cursor := by simp

/-- A thread may end, or go on at an element of its lane. -/
theorem KeepsLanes.move (h : t.KeepsLanes doc) {lane : String} {exit : Option String}
    (follow : ∀ id, exit = some id → CanFollow doc lane id) :
    (t.move lane exit).KeepsLanes doc where
  thread lane' id own := by
    rw [thread?_move] at own
    split at own
    · next same => exact same ▸ follow id own
    · exact h.thread lane' id own
  cursor c own := by
    rw [cursor_move] at own
    obtain ⟨e, found, lane', -⟩ := follow c own
    exact ⟨e, found, by simp [thread?_move, lane', own]⟩

/-- What one event does. -/
theorem KeepsLanes.step (h : t.KeepsLanes doc) {ev : Event} (local' : ev.IsLocal doc) :
    (t.step doc ev).1.KeepsLanes doc := by
  obtain ⟨⟨lane, nodes⟩, sources⟩ := local'
  cases ev with
  | branchOpened | branchStep | messagePaired => exact h
  | flowBreak => exact keepsLanes_empty
  | declared id =>
    obtain ⟨e, found, rfl, flow⟩ := nodes id (by simp [Event.flowIds, Event.ids])
    simp only [Threads.step, found, declare_eq_move]
    apply h.move
    intro v goes
    obtain ⟨kind, same⟩ : e.kind ≠ .endEvent ∧ e.id = v := by simpa using goes
    rw [id_of_findLast? found] at same
    exact ⟨e, same ▸ found, rfl, flow, kind⟩
  | gatewayClosed gateway continuation =>
    obtain ⟨g, found, rfl, -⟩ := nodes gateway (by simp [Event.flowIds, Event.ids])
    have goes (v : String) (own : continuation = some v) : CanFollow doc g.lane v := by
      obtain ⟨e, found, lane, flow⟩ := nodes v (by simp [Event.flowIds, Event.ids, own])
      exact ⟨e, found, lane, flow, sources v (by simp [Event.sources, own]) e found⟩
    rw [step_gatewayClosed found fun v own => (goes v own).imp fun _ => And.left]
    exact h.move goes

/-- What a log does. -/
theorem KeepsLanes.after (h : t.KeepsLanes doc) {events : List Event}
    (local' : ∀ ev ∈ events, ev.IsLocal doc) : (after doc t events).KeepsLanes doc := by
  induction events generalizing t with
  | nil => exact h
  | cons ev events ih =>
    exact ih (h.step (local' ev (by simp))) fun ev' hev' => local' ev' (by simp [hev'])

/-- In a lane without thread the cursor is an element of another lane. -/
theorem KeepsLanes.cursor_foreign (h : t.KeepsLanes doc) {lane c : String}
    (free : t.thread? lane = none) (own : t.cursor = some c) :
    ∃ e, doc.findLast? c = some e ∧ e.lane ≠ lane := by
  obtain ⟨e, found, thread⟩ := h.cursor c own
  refine ⟨e, found, ?_⟩
  rintro rfl
  simp [thread] at free

/-- No cursor has to be passed over. -/
theorem KeepsLanes.before?_eq (h : t.KeepsLanes doc) (lane : String) :
    t.before? doc lane = (t.thread? lane).or t.cursor := by
  cases free : t.thread? lane with
  | some id => simp [before?, free]
  | none =>
    cases own : t.cursor with
    | none => simp [before?, free, own]
    | some c =>
      obtain ⟨e, found, foreign⟩ := h.cursor_foreign free own
      simp [before?, free, own, found, foreign]

/-- The ends of an edge that an event draws. If they are in two lanes, the element is declared
outside of all gateways, its lane has no thread, and it follows the cursor. -/
theorem KeepsLanes.ends (h : t.KeepsLanes doc) {ev : Event} (local' : ev.IsLocal doc) {edge : Edge}
    (drawn : (t.step doc ev).2 = some edge) (flow : edge.kind = .sequenceFlow) :
    ∃ x y, doc.findLast? edge.source = some x ∧ doc.findLast? edge.target = some y ∧
      (x.lane ≠ y.lane → ev = .declared y.id ∧ t.thread? y.lane = none ∧ t.cursor = some x.id) := by
  obtain ⟨⟨lane, nodes⟩, -⟩ := local'
  have inside {a b : String} (ha : a ∈ ev.flowIds) (hb : b ∈ ev.flowIds) :
      ∃ x y, doc.findLast? a = some x ∧ doc.findLast? b = some y ∧ x.lane = y.lane := by
    obtain ⟨x, hx, lane, -⟩ := nodes a ha
    obtain ⟨y, hy, lane', -⟩ := nodes b hb
    exact ⟨x, y, hx, hy, lane.trans lane'.symm⟩
  cases ev with
  | declared id =>
    obtain ⟨y, found, -⟩ := nodes id (by simp [Event.flowIds, Event.ids])
    simp only [Threads.step, found] at drawn
    obtain ⟨source, before, rfl⟩ := edgeTo?_eq_some drawn
    have target : doc.findLast? y.id = some y := by rw [id_of_findLast? found, found]
    rw [h.before?_eq, Option.or_eq_some_iff] at before
    rcases before with thread | ⟨free, own⟩
    · obtain ⟨x, hx, same, -⟩ := h.thread _ _ thread
      exact ⟨x, y, hx, target, fun apart => absurd same apart⟩
    · obtain ⟨x, hx, -⟩ := h.cursor source own
      refine ⟨x, y, hx, target, fun _ => ⟨?_, free, ?_⟩⟩
      · rw [id_of_findLast? found]
      · rw [own, id_of_findLast? hx]
  | branchOpened gateway task label =>
    obtain rfl := Option.some.inj drawn
    obtain ⟨x, y, hx, hy, same⟩ := inside (a := gateway) (b := task)
      (by simp [Event.flowIds, Event.ids]) (by simp [Event.flowIds, Event.ids])
    exact ⟨x, y, hx, hy, fun apart => absurd same apart⟩
  | branchStep after id =>
    cases draws_step drawn with
    | branchStep source =>
      obtain ⟨x, y, hx, hy, same⟩ := inside (a := source) (b := id)
        (by simp [Event.flowIds, Event.ids]) (by simp [Event.flowIds, Event.ids])
      exact ⟨x, y, hx, hy, fun apart => absurd same apart⟩
  | gatewayClosed | messagePaired | flowBreak => cases draws_step drawn <;> cases flow

/-- A gateway behind which the flow does not go on leaves its lane without thread and no cursor. -/
theorem closed_of_gatewayClosed {gateway : String} {g : Element}
    (found : doc.findLast? gateway = some g) :
    let t' := (t.step doc (.gatewayClosed gateway none)).1
    t'.thread? g.lane = none ∧ t'.cursor = none := by
  simp [step_gatewayClosed found, thread?_move, cursor_move]

end Threads

/-! ## Texts -/

/-- The threads of a log keep to their lanes all along. So in a lane without thread the cursor is
an element of another lane, and none has to be passed over; the flow passes from one lane to another
only where the other one has no thread, and there from the cursor; and behind a gateway where the
flow does not go on, its lane has no thread and there is no cursor. -/
structure Outline.KeepsLanes (o : Outline) : Prop where
  threads : ∀ log, log <+: o.events →
    (Threads.after o.document {} log).KeepsLanes o.document
  foreign : ∀ log, log <+: o.events → ∀ lane c,
    (Threads.after o.document {} log).thread? lane = none →
    (Threads.after o.document {} log).cursor = some c →
    ∃ e, o.document.findLast? c = some e ∧ e.lane ≠ lane
  before : ∀ log, log <+: o.events → ∀ lane,
    (Threads.after o.document {} log).before? o.document lane =
      ((Threads.after o.document {} log).thread? lane).or (Threads.after o.document {} log).cursor
  crossing : ∀ log ev, log ++ [ev] <+: o.events → ∀ edge,
    ((Threads.after o.document {} log).step o.document ev).2 = some edge →
    edge.kind = .sequenceFlow →
    ∃ x y, o.document.findLast? edge.source = some x ∧ o.document.findLast? edge.target = some y ∧
      (x.lane ≠ y.lane → ev = .declared y.id ∧
        (Threads.after o.document {} log).thread? y.lane = none ∧
        (Threads.after o.document {} log).cursor = some x.id)
  closed : ∀ log gateway, log ++ [.gatewayClosed gateway none] <+: o.events →
    ∃ g, o.document.findLast? gateway = some g ∧
      (Threads.after o.document {} (log ++ [.gatewayClosed gateway none])).thread? g.lane = none ∧
      (Threads.after o.document {} (log ++ [.gatewayClosed gateway none])).cursor = none

/-- The threads of every text keep to their lanes. -/
theorem Outline.ofText_keepsLanes (options : ReadOptions) (text : String) (o : Outline)
    (h : ofText options text = .ok o) : o.KeepsLanes := by
  obtain ⟨document, events, -⟩ := ofText_eq_ok h
  have local' : ∀ ev ∈ o.events, ev.IsLocal o.document := by
    rw [document, events]
    exact isLocal_finished _ _
  have threads (log : List Event) (start : log <+: o.events) :
      (Threads.after o.document {} log).KeepsLanes o.document :=
    Threads.keepsLanes_empty.after fun ev hev => local' ev (start.subset hev)
  refine ⟨threads, fun log start lane c => (threads log start).cursor_foreign,
    fun log start => (threads log start).before?_eq, fun log ev start edge drawn flow => ?_,
    fun log gateway start => ?_⟩
  · have earlier := (List.prefix_append log [ev]).trans start
    exact (threads log earlier).ends (local' ev (start.subset (by simp))) drawn flow
  · obtain ⟨⟨lane, nodes⟩, -⟩ := local' (.gatewayClosed gateway none) (start.subset (by simp))
    obtain ⟨g, found, -⟩ := nodes gateway (by simp [Event.flowIds, Event.ids])
    refine ⟨g, found, ?_⟩
    rw [Threads.after_append]
    exact Threads.closed_of_gatewayClosed found

/-- Flow that passes into two lanes without threads, and a gateway in which the flow ends. -/
theorem Outline.ofText_keepsLanes_crossing :
    ∃ o, ofText {} "@A\na\n@B\n?g\n  +b\n    !x\n@A\nd\n@C\ne" = .ok o ∧
      o.events = [.declared "a_a", .declared "b_g", .branchOpened "b_g" "b_b" "Yes",
        .branchStep (some "b_b") "b_x", .gatewayClosed "b_g" none, .declared "a_d",
        .declared "c_e"] ∧
      (Threads.run o.document {} o.events).map (fun e => (e.source, e.target)) =
        [("a_a", "b_g"), ("b_g", "b_b"), ("b_b", "b_x"), ("a_a", "a_d"), ("a_d", "c_e")] ∧
      o.KeepsLanes := by
  have read : ofText {} "@A\na\n@B\n?g\n  +b\n    !x\n@A\nd\n@C\ne" = .ok _ := rfl
  exact ⟨_, read, by decide +kernel, by decide +kernel, ofText_keepsLanes {} _ _ read⟩

end Swimlane
