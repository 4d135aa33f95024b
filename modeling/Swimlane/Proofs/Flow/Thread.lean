import Mathlib.Data.List.Induction
import Swimlane.Flow.Thread
import Swimlane.Proofs.Lookup

/-!
# Replaying the event log

What one event can do to the threads and which edge it can draw, and from this what can be said of
all edges of a log.

## Main definitions

* `Threads.Holds`: the elements from which the flow may go on;
* `Threads.Draws`: the edges that an event can draw;
* `Threads.Puts`: the elements that an event can put on the threads;
* `Threads.after`: the threads behind a log.

## Main statements

* `Threads.holds_step`, `Threads.draws_step`: all that an event can do;
* `Threads.run_forall`: what holds of the edges of every event holds of those of a log.
-/

namespace Swimlane.Threads

variable {doc : Document} {t : Threads}

/-- An element from which the flow may go on: it is on a thread or under the cursor. -/
def Holds (t : Threads) (id : String) : Prop :=
  (∃ lane, (lane, id) ∈ t.threads) ∨ t.cursor = some id

theorem not_holds_empty (id : String) : ¬ Holds {} id := by
  simp [Holds]

theorem holds_of_advance {lane id v : String} (h : (t.advance lane id).Holds v) :
    t.Holds v ∨ v = id := by
  obtain ⟨l, hl⟩ | hc := h
  · obtain hl | hl := List.mem_cons.1 hl
    · exact .inr (congrArg Prod.snd hl)
    · exact .inl (.inl ⟨l, (List.mem_filter.1 hl).1⟩)
  · exact .inr (Option.some.inj hc).symm

theorem holds_of_finish {lane v : String} (h : (t.finish lane).Holds v) : t.Holds v := by
  obtain ⟨l, hl⟩ | hc := h
  · exact .inl ⟨l, (List.mem_filter.1 hl).1⟩
  · simp [finish] at hc

theorem holds_of_before? {lane v : String} (h : t.before? doc lane = some v) : t.Holds v := by
  obtain h | ⟨-, h⟩ := Option.or_eq_some_iff.1 h
  · obtain ⟨l₁, l₂, hl, -⟩ := List.lookup_eq_some_iff.1 h
    exact .inl ⟨lane, by simp [hl]⟩
  · exact .inr (Option.filter_eq_some_iff.1 h).1

theorem id_of_findLast? {id : String} {e : Element} (h : doc.findLast? id = some e) :
    e.id = id := by
  simpa using List.find?_some h

/-- The edges that an event can draw from some threads. -/
inductive Draws (t : Threads) : Event → Edge → Prop
  | declared {source : String} (id : String) (h : t.Holds source) :
      Draws t (.declared id) { kind := .sequenceFlow, source, target := id }
  | branchOpened (gateway task label : String) :
      Draws t (.branchOpened gateway task label)
        { kind := .sequenceFlow, source := gateway, target := task, label := some label }
  | branchStep (source id : String) :
      Draws t (.branchStep (some source) id) { kind := .sequenceFlow, source, target := id }
  | messagePaired (sender receiver label : String) :
      Draws t (.messagePaired sender receiver label)
        { kind := .messageFlow, source := sender, target := receiver, label := some label }

theorem edgeTo?_eq_some {source : Option String} {e : Element} {edge : Edge}
    (h : edgeTo? source e = some edge) :
    ∃ s, source = some s ∧ edge = { kind := .sequenceFlow, source := s, target := e.id } := by
  unfold edgeTo? at h
  split at h
  · cases h
  · obtain ⟨s, hs, rfl⟩ := Option.map_eq_some_iff.1 h
    exact ⟨s, hs, rfl⟩

/-- Every edge of an event is one that it can draw. -/
theorem draws_step {ev : Event} {edge : Edge} (h : (t.step doc ev).2 = some edge) :
    t.Draws ev edge := by
  cases ev with
  | declared id =>
    cases he : doc.findLast? id with
    | none => simp [step, he] at h
    | some e =>
      simp only [step, he] at h
      obtain ⟨s, hs, rfl⟩ := edgeTo?_eq_some h
      rw [id_of_findLast? he]
      exact .declared id (holds_of_before? hs)
  | branchOpened gateway task label =>
    obtain rfl := Option.some.inj h
    exact .branchOpened gateway task label
  | branchStep after id =>
    obtain ⟨e, he, h⟩ := Option.bind_eq_some_iff.1 h
    obtain ⟨s, rfl, rfl⟩ := edgeTo?_eq_some h
    rw [id_of_findLast? he]
    exact .branchStep s id
  | gatewayClosed gateway continuation =>
    unfold step at h
    grind
  | messagePaired sender receiver label =>
    obtain rfl := Option.some.inj h
    exact .messagePaired sender receiver label
  | flowBreak => cases h

/-- An edge of the flow leads to the task of a branch or to an element that is no start event. -/
theorem kind_ne_startEvent_of_step {ev : Event} {edge : Edge}
    (h : (t.step doc ev).2 = some edge) (flow : edge.kind = .sequenceFlow) :
    (∃ gateway label, ev = .branchOpened gateway edge.target label) ∨
      ∃ e, doc.findLast? edge.target = some e ∧ e.kind ≠ .startEvent := by
  have ofEdgeTo {source : Option String} {id : String} {e : Element}
      (found : doc.findLast? id = some e) (drawn : edgeTo? source e = some edge) :
      doc.findLast? edge.target = some e ∧ e.kind ≠ .startEvent := by
    obtain ⟨s, -, rfl⟩ := edgeTo?_eq_some drawn
    refine ⟨by rw [id_of_findLast? found, found], fun start => ?_⟩
    simp [edgeTo?, start] at drawn
  cases ev with
  | declared id =>
    cases found : doc.findLast? id with
    | none => simp [step, found] at h
    | some e =>
      simp only [step, found] at h
      exact .inr ⟨e, ofEdgeTo found h⟩
  | branchOpened gateway task label =>
    obtain rfl := Option.some.inj h
    exact .inl ⟨gateway, label, rfl⟩
  | branchStep after id =>
    obtain ⟨e, found, drawn⟩ := Option.bind_eq_some_iff.1 h
    exact .inr ⟨e, ofEdgeTo found drawn⟩
  | gatewayClosed | messagePaired | flowBreak => cases draws_step h <;> cases flow

/-- The elements that an event can put on the threads: one outside of all gateways that is no end
event, or the one at which the flow goes on behind a gateway. -/
inductive Puts (doc : Document) : Event → String → Prop
  | declared {e : Element} (he : doc.findLast? e.id = some e) (hk : e.kind ≠ .endEvent) :
      Puts doc (.declared e.id) e.id
  | gatewayClosed (gateway v : String) : Puts doc (.gatewayClosed gateway (some v)) v

theorem holds_step {ev : Event} {v : String} (h : (t.step doc ev).1.Holds v) :
    t.Holds v ∨ Puts doc ev v := by
  cases ev with
  | declared id =>
    cases he : doc.findLast? id with
    | none => exact .inl (by simpa [step, he] using h)
    | some e =>
      obtain rfl := id_of_findLast? he
      simp only [step, he, declare] at h
      split at h
      · exact .inl (holds_of_finish h)
      · next kind =>
        obtain old | rfl := holds_of_advance h
        · exact .inl old
        · exact .inr (.declared he kind)
  | branchOpened | branchStep | messagePaired => exact .inl h
  | gatewayClosed gateway continuation =>
    cases hg : doc.findLast? gateway with
    | none => exact .inl (by simpa [step, hg] using h)
    | some g =>
      cases hc : continuation.bind doc.findLast? with
      | none =>
        simp only [step, hg, hc] at h
        exact .inl (holds_of_finish h)
      | some e =>
        simp only [step, hg, hc] at h
        obtain old | rfl := holds_of_advance h
        · exact .inl old
        · obtain ⟨c, rfl, he⟩ := Option.bind_eq_some_iff.1 hc
          obtain rfl := id_of_findLast? he
          exact .inr (.gatewayClosed gateway e.id)
  | flowBreak => exact absurd h (not_holds_empty v)

/-! ## Threads by lane -/

/-- Lets the thread of a lane go on at an element, or ends it. -/
def move (t : Threads) (lane : String) : Option String → Threads
  | none => t.finish lane
  | some id => t.advance lane id

theorem thread?_move (t : Threads) (lane : String) (exit : Option String) (lane' : String) :
    (t.move lane exit).thread? lane' = if lane' = lane then exit else t.thread? lane' := by
  cases exit with
  | none => exact lookup_filter_ne t.threads lane lane'
  | some id => exact lookup_put t.threads lane lane' id

theorem cursor_move (t : Threads) (lane : String) (exit : Option String) :
    (t.move lane exit).cursor = exit := by
  cases exit <;> rfl

theorem declare_eq_move (t : Threads) (e : Element) :
    t.declare e = t.move e.lane (if e.kind = .endEvent then none else some e.id) := by
  unfold declare
  split <;> rfl

/-- The end of an outermost gateway moves the thread of its lane. -/
theorem step_gatewayClosed {gateway : String} {g : Element} {continuation : Option String}
    (hg : doc.findLast? gateway = some g)
    (hc : ∀ id, continuation = some id → ∃ e, doc.findLast? id = some e) :
    t.step doc (.gatewayClosed gateway continuation) = (t.move g.lane continuation, none) := by
  cases continuation with
  | none => simp [step, hg, move]
  | some id =>
    obtain ⟨e, he⟩ := hc id rfl
    simp [step, hg, he, move, id_of_findLast? he]

/-! ## Logs -/

/-- The threads behind a log. -/
def after (doc : Document) (t : Threads) (events : List Event) : Threads :=
  events.foldl (fun t e => (t.step doc e).1) t

theorem after_append (es es' : List Event) :
    after doc t (es ++ es') = after doc (after doc t es) es' :=
  List.foldl_append

theorem run_append (es es' : List Event) :
    run doc t (es ++ es') = run doc t es ++ run doc (after doc t es) es' := by
  induction es generalizing t with
  | nil => rfl
  | cons e es ih => simp [run, ih, after]

/-- What is held behind a log has been put there by one of its events. -/
theorem puts_of_holds_after {events : List Event} {v : String} (h : (after doc {} events).Holds v) :
    ∃ ev ∈ events, Puts doc ev v := by
  induction events using List.reverseRecOn with
  | nil => exact absurd h (not_holds_empty v)
  | append_singleton events ev ih =>
    rw [after_append] at h
    obtain old | put := holds_step h
    · obtain ⟨ev', hev', put⟩ := ih old
      exact ⟨ev', by simp [hev'], put⟩
    · exact ⟨ev, by simp, put⟩

/-- An edge of a log is drawn by an event from the threads behind the events before it. -/
theorem exists_step_of_mem_run {events : List Event} {edge : Edge} (h : edge ∈ run doc t events) :
    ∃ before ev, before ++ [ev] <+: events ∧
      ((after doc t before).step doc ev).2 = some edge := by
  induction events generalizing t with
  | nil => cases h
  | cons ev events ih =>
    obtain first | rest := List.mem_append.1 h
    · exact ⟨[], ev, by simp, Option.mem_toList.1 first⟩
    · obtain ⟨before, ev', start, drawn⟩ := ih rest
      exact ⟨ev :: before, ev', by simpa using start, drawn⟩

theorem mem_run_of_step {events before : List Event} {ev : Event} {edge : Edge}
    (start : before ++ [ev] <+: events) (drawn : ((after doc t before).step doc ev).2 = some edge) :
    edge ∈ run doc t events := by
  obtain ⟨rest, rfl⟩ := start
  rw [run_append, run_append]
  simp [run, drawn]

/-- Events about messages leave the threads alone. -/
theorem after_of_messages {events : List Event}
    (h : ∀ ev ∈ events, ∃ sender receiver label, ev = .messagePaired sender receiver label) :
    after doc t events = t := by
  induction events with
  | nil => rfl
  | cons ev events ih =>
    obtain ⟨sender, receiver, label, rfl⟩ := h ev (by simp)
    exact ih fun ev hev => h ev (by simp [hev])

/-- Events about messages draw message flow only. -/
theorem kind_of_messages {events : List Event}
    (h : ∀ ev ∈ events, ∃ sender receiver label, ev = .messagePaired sender receiver label) :
    ∀ edge ∈ run doc t events, edge.kind = .messageFlow := by
  induction events with
  | nil => simp [run]
  | cons ev events ih =>
    obtain ⟨sender, receiver, label, rfl⟩ := h ev (by simp)
    intro edge hedge
    obtain first | rest := List.mem_append.1 hedge
    · rw [← Option.some.inj (Option.mem_toList.1 first)]
    · exact ih (fun ev hev => h ev (by simp [hev])) edge rest

/-- Let `P` hold of all that a log puts on the threads, and let every edge that an event draws from
such threads have `Q`. Then every edge of the log has. -/
theorem run_forall {P : String → Prop} {Q : Edge → Prop} {events : List Event}
    (init : ∀ v, t.Holds v → P v)
    (declared : ∀ v, .declared v ∈ events → P v)
    (closed : ∀ gateway v, .gatewayClosed gateway (some v) ∈ events → P v)
    (draws : ∀ t : Threads, (∀ v, t.Holds v → P v) → ∀ ev ∈ events, ∀ edge, t.Draws ev edge →
      Q edge) :
    ∀ edge ∈ run doc t events, Q edge := by
  induction events generalizing t with
  | nil => simp [run]
  | cons ev events ih =>
    intro edge hedge
    obtain first | rest := List.mem_append.1 hedge
    · exact draws t init ev (by simp) edge (draws_step (Option.mem_toList.1 first))
    · refine ih ?_ (fun v hv => declared v (by simp [hv])) (fun g v hv => closed g v (by simp [hv]))
        (fun t ht ev hev => draws t ht ev (by simp [hev])) edge rest
      intro v hv
      obtain old | put := holds_step hv
      · exact init v old
      · cases put with
        | declared => exact declared _ (by simp)
        | gatewayClosed gateway => exact closed gateway _ (by simp)

end Swimlane.Threads
