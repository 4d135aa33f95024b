import Swimlane.Proofs.Document
import Swimlane.Proofs.Flow.Distinct
import Swimlane.Proofs.Flow.Thread
import Swimlane.Proofs.Outline.Log
import Swimlane.Proofs.Source.Segment

/-!
# Texts that go on

What the first lines of a text come to is still there when the text goes on. Further lines may add
branches to a gateway, and the end of the text may close gateways earlier than a later line does;
nothing else that was said before changes, and no edge that the log has drawn is lost or moved.

## Main definitions

* `Document.Agrees`: two documents know the same element of an id;
* `Flow.logged`: the edges that the log draws, each once;
* `Outline.Extends`: an outline that goes on with another one.

## Main statements

* `Threads.run_congr`: documents that agree on what a log names draw the same edges from it;
* `Draft.closeGateways_events`: closing gateways logs at most one event;
* `Outline.ofText_take`: the first lines of every text.
-/

namespace Swimlane

/-! ## The flow of a log in two documents -/

/-- Two documents know the same element of an id, in the second perhaps with more branches. -/
def Document.Agrees (doc doc' : Document) (id : String) : Prop :=
  ∃ e e', doc.findLast? id = some e ∧ doc'.findLast? id = some e' ∧ e.Grows e'

namespace Threads

variable {doc doc' : Document} {t : Threads} {ev : Event} {e e' : Element}

theorem edgeTo?_congr (grows : e.Grows e') (source : Option String) :
    edgeTo? source e' = edgeTo? source e := by
  simp [edgeTo?, grows.id, grows.kind_eq_iff]

theorem declare_congr (grows : e.Grows e') : t.declare e' = t.declare e := by
  simp [declare, grows.id, grows.lane, grows.kind_eq_iff]

theorem before?_congr (held : ∀ v, t.Holds v → doc.Agrees doc' v) (lane : String) :
    t.before? doc' lane = t.before? doc lane := by
  cases cursor : t.cursor with
  | none => simp [before?, cursor]
  | some c =>
    obtain ⟨e, e', found, found', grows⟩ := held c (.inr cursor)
    simp only [before?, cursor, Option.filter, found, found', Option.map_some, grows.lane]

theorem step_congr (held : ∀ v, t.Holds v → doc.Agrees doc' v)
    (ids : ∀ id ∈ ev.ids, doc.Agrees doc' id) : t.step doc' ev = t.step doc ev := by
  cases ev with
  | declared id =>
    obtain ⟨e, e', found, found', grows⟩ := ids id (by simp [Event.ids])
    simp [step, found, found', declare_congr grows, edgeTo?_congr grows, before?_congr held,
      grows.lane]
  | branchStep after id =>
    obtain ⟨e, e', found, found', grows⟩ := ids id (by simp [Event.ids])
    simp [step, found, found', edgeTo?_congr grows]
  | gatewayClosed gateway continuation =>
    obtain ⟨g, g', found, found', grows⟩ := ids gateway (by simp [Event.ids])
    cases continuation with
    | none => simp [step, found, found', grows.lane]
    | some id =>
      obtain ⟨e, e', known, known', grows'⟩ := ids id (by simp [Event.ids])
      simp [step, found, found', known, known', grows.lane, grows'.id]
  | branchOpened | messagePaired | flowBreak => rfl

theorem Puts.mem_ids {v : String} (h : Puts doc ev v) : v ∈ ev.ids := by
  cases h <;> simp [Event.ids]

/-- Documents that agree on what is held and on what a log names draw the same edges from it. -/
theorem run_congr {events : List Event} (held : ∀ v, t.Holds v → doc.Agrees doc' v)
    (ids : ∀ ev ∈ events, ∀ id ∈ ev.ids, doc.Agrees doc' id) :
    run doc' t events = run doc t events := by
  induction events generalizing t with
  | nil => rfl
  | cons ev events ih =>
    have own := ids ev List.mem_cons_self
    rw [run, run, step_congr held own]
    refine congrArg _ (ih (fun v hv => ?_) fun ev hev => ids ev (List.mem_cons_of_mem _ hev))
    rcases holds_step hv with old | put
    · exact held v old
    · exact own v put.mem_ids

/-- The end of a gateway draws nothing. -/
theorem run_of_closed {events : List Event}
    (h : ∀ ev ∈ events, ∃ gateway continuation, ev = .gatewayClosed gateway continuation) :
    run doc t events = [] := by
  induction events generalizing t with
  | nil => rfl
  | cons ev events ih =>
    obtain ⟨gateway, continuation, rfl⟩ := h ev List.mem_cons_self
    have edgeless : (t.step doc (.gatewayClosed gateway continuation)).2 = none :=
      Option.eq_none_iff_forall_ne_some.2 fun edge drawn => by cases draws_step drawn
    rw [run, edgeless, ih fun ev hev => h ev (List.mem_cons_of_mem _ hev)]
    rfl

end Threads

/-- The edges that a log draws, each once. -/
def Flow.logged (doc : Document) (events : List Event) : List Edge :=
  (Outcome.distinct [] ((Threads.run doc {} events).map .edge)).filterMap Outcome.edge?

theorem Flow.logged_prefix_outcomes (doc : Document) (events : List Event)
    (references : List Reference) :
    logged doc events <+: (outcomes doc events references).filterMap Outcome.edge? := by
  rw [logged, outcomes, List.append_assoc]
  exact (Outcome.distinct_prefix ..).filterMap _

/-! ## The end of a text -/

theorem Draft.map_toLaneHeader_document (d : Draft) :
    d.document.lanes.map (·.toLaneHeader) = d.lanes := by
  simp [document, Function.comp_def]

theorem OpenGateway.closed_of_unwind {closes : OpenGateway → Bool} {g : OpenGateway}
    {outer : List OpenGateway} {ev : Event} (h : (unwind closes g outer).2 = some ev) :
    ∃ gateway continuation, ev = .gatewayClosed gateway continuation := by
  fun_induction unwind closes g outer with
  | case1 g => exact ⟨g.id, g.exit, (Option.some.inj h).symm⟩
  | case2 | case4 => cases h
  | case3 g parent outer closed ih => exact ih h

/-- Closing gateways logs at most one event, the end of the outermost one. -/
theorem Draft.closeGateways_events (d : Draft) (closes : OpenGateway → Bool) :
    ∃ closing, (d.closeGateways closes).events = d.events ++ closing ∧ closing.length ≤ 1 ∧
      ∀ ev ∈ closing, ∃ gateway continuation, ev = .gatewayClosed gateway continuation := by
  unfold closeGateways
  cases d.gateways with
  | nil => exact ⟨[], by simp⟩
  | cons g outer =>
    refine ⟨(OpenGateway.unwind closes g outer).2.toList, rfl, ?_, fun ev hev => ?_⟩
    · cases (OpenGateway.unwind closes g outer).2 <;> simp
    · exact OpenGateway.closed_of_unwind (Option.mem_toList.1 hev)

/-! ## First lines -/

namespace Outline

open Draft

/-- An outline goes on with another one behind a log: its lanes and elements come first there,
gateways perhaps with more branches; the log, and what the end of the text has added to it; and the
edges that the log draws, which are the first edges of all. -/
structure Extends (first whole : Outline) (log : List Event) : Prop where
  lanes : first.document.lanes.map (·.toLaneHeader) <+: whole.document.lanes.map (·.toLaneHeader)
  elements : ∀ (i : Nat) (e : Element), first.document.elements[i]? = some e →
    ∃ e', whole.document.elements[i]? = some e' ∧ e.Grows e'
  events : ∃ closing, first.events = log ++ closing ∧ closing.length ≤ 1 ∧
    (∀ ev ∈ closing, ∃ gateway continuation, ev = .gatewayClosed gateway continuation) ∧
      log <+: whole.events
  edges : Flow.logged first.document first.events <+: Flow.logged whole.document whole.events
  outcomes : Flow.logged whole.document whole.events <+:
    (Flow.outcomes whole.document whole.events whole.references).filterMap Outcome.edge?

/-- Behind its first lines a text goes on with what it has. -/
theorem precedes_finished (defaultLane : String) {ls lines : List Line} (h : ls <+: lines) :
    (draft defaultLane ls).Precedes (finished defaultLane lines) ∧
      (draft defaultLane ls).events <+: (finished defaultLane lines).events := by
  obtain ⟨rest, rfl⟩ := h
  have anchored := anchored_draft defaultLane ls
  have later := precedes_run defaultLane anchored rest
  have logged := events_prefix_run defaultLane anchored rest
  rw [← draft_append_run] at later logged
  obtain ⟨closing, events, -⟩ :=
    (draft defaultLane (ls ++ rest)).closeGateways_events fun _ => true
  exact ⟨later.trans (precedes_of_closes (closeGateways_closes _ _)),
    logged.trans ⟨closing, events.symm⟩⟩

/-- Documents of a text and of its first lines agree on what the log of the first lines names. -/
theorem agrees_of_precedes {d D D' : Draft} (grounded : d.Grounded) (hr : D.Registered)
    (hr' : D'.Registered) (elements : D.elements = d.elements) (later : d.Precedes D') :
    ∀ ev ∈ d.events, ∀ id ∈ ev.ids, D.document.Agrees D'.document id := by
  intro ev hev id hid
  obtain ⟨e, he, rfl, -⟩ := grounded.events ev hev id hid
  obtain ⟨e', he', grows⟩ := later.mem he
  exact ⟨e, e', (findLast?_eq_some hr).2 ⟨elements ▸ he, rfl⟩,
    (findLast?_eq_some hr').2 ⟨he', grows.id⟩, grows⟩

theorem logged_prefix {doc doc' : Document} {log closing events : List Event}
    (agrees : ∀ ev ∈ log, ∀ id ∈ ev.ids, doc.Agrees doc' id)
    (closed : ∀ ev ∈ closing, ∃ gateway continuation, ev = .gatewayClosed gateway continuation)
    (start : log <+: events) :
    Flow.logged doc (log ++ closing) <+: Flow.logged doc' events := by
  obtain ⟨rest, rfl⟩ := start
  have same : Threads.run doc' {} log = Threads.run doc {} log :=
    Threads.run_congr (fun v hv => absurd hv (Threads.not_holds_empty v)) agrees
  rw [Flow.logged, Flow.logged, Threads.run_append, Threads.run_append,
    Threads.run_of_closed closed, List.append_nil, same, List.map_append]
  exact (Outcome.distinct_prefix ..).filterMap _

theorem ofText_eq_error {options : ReadOptions} {text : String} {f : Failure} :
    ofText options text = .error f ↔ (scan options.maxDepth text).failure = some f := by
  cases failure : (scan options.maxDepth text).failure <;> simp [ofText, failure]

theorem exists_ofText_eq_ok {options : ReadOptions} {text : String} :
    (∃ o, ofText options text = .ok o) ↔ (scan options.maxDepth text).failure = none := by
  cases failure : (scan options.maxDepth text).failure <;> simp [ofText, failure]

/-- Where the first lines of a text fail, the text fails in the same way. Where the text is read, so
are its first lines, and the text goes on with what they come to. -/
theorem ofText_take (options : ReadOptions) (lines : List String)
    (newline : ∀ l ∈ lines, '\n' ∉ l.toList) (n : Nat) :
    (∀ f, ofText options ("\n".intercalate (lines.take n)) = .error f →
        ofText options ("\n".intercalate lines) = .error f) ∧
      ∀ whole, ofText options ("\n".intercalate lines) = .ok whole →
        ∃ first, ofText options ("\n".intercalate (lines.take n)) = .ok first ∧
          first.Extends whole (draft options.defaultLane
            (scan options.maxDepth ("\n".intercalate (lines.take n))).lines).events := by
  obtain ⟨failed, start⟩ := scan_take options.maxDepth newline n
  refine ⟨fun f h => ofText_eq_error.2 (failed f (ofText_eq_error.1 h)), fun whole h => ?_⟩
  have read : (scan options.maxDepth ("\n".intercalate (lines.take n))).failure = none := by
    refine Option.eq_none_iff_forall_ne_some.2 fun f hf => ?_
    rw [exists_ofText_eq_ok.1 ⟨whole, h⟩] at failed
    cases failed f hf
  obtain ⟨first, hfirst⟩ := exists_ofText_eq_ok.2 read
  refine ⟨first, hfirst, ?_⟩
  obtain ⟨document, events, -⟩ := ofText_eq_ok hfirst
  obtain ⟨document', events', -⟩ := ofText_eq_ok h
  generalize (scan options.maxDepth ("\n".intercalate (lines.take n))).lines = ls at *
  generalize (scan options.maxDepth ("\n".intercalate lines)).lines = ls' at *
  have registered := registered_finished options.defaultLane ls
  have registered' := registered_finished options.defaultLane ls'
  have elements := finished_elements options.defaultLane ls
  obtain ⟨later, logged⟩ := precedes_finished options.defaultLane start
  obtain ⟨closing, closed, short, ends⟩ :=
    (draft options.defaultLane ls).closeGateways_events fun _ => true
  have agrees := agrees_of_precedes (grounded_draft options.defaultLane ls) registered registered'
    elements later
  refine ⟨?_, ?_, ⟨closing, events.trans closed, short, ends, events' ▸ logged⟩, ?_,
    Flow.logged_prefix_outcomes ..⟩
  · rw [document, document', map_toLaneHeader_document, map_toLaneHeader_document, finished,
      closeGateways_lanes]
    exact later.lanes
  · rw [document, document', document_elements registered, document_elements registered', elements]
    exact later.elements
  · rw [events, events', document, document']
    have drawn := logged_prefix agrees ends logged
    rwa [← closed] at drawn

/-- Two lines of a text end inside of a gateway, which gets another branch when the text goes on. -/
theorem ofText_take_branching :
    (∀ l ∈ ["?a", "  +x", "  -y", "z"], '\n' ∉ l.toList) ∧
      ∃ whole, ofText {} ("\n".intercalate ["?a", "  +x", "  -y", "z"]) = .ok whole ∧
        whole.events = [.declared "default_a", .branchOpened "default_a" "default_x" "Yes",
          .branchOpened "default_a" "default_y" "No",
          .gatewayClosed "default_a" (some "default_x"), .declared "default_z"] ∧
        ∃ first, ofText {} ("\n".intercalate ["?a", "  +x"]) = .ok first ∧
          first.Extends whole
            [.declared "default_a", .branchOpened "default_a" "default_x" "Yes"] := by
  have newline : ∀ l ∈ ["?a", "  +x", "  -y", "z"], '\n' ∉ l.toList := by decide
  have read : ofText {} ("\n".intercalate ["?a", "  +x", "  -y", "z"]) = .ok _ := rfl
  have log : (draft "Default" (scan 64 ("\n".intercalate ["?a", "  +x"])).lines).events =
      [.declared "default_a", .branchOpened "default_a" "default_x" "Yes"] := by decide +kernel
  obtain ⟨first, hfirst, goes⟩ := (ofText_take {} _ newline 2).2 _ read
  exact ⟨newline, _, read, by decide +kernel, first, hfirst, log ▸ goes⟩

end Outline

end Swimlane
