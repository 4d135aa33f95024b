import Swimlane.Proofs.Coverage
import Swimlane.Proofs.Flow.Forest

/-!
# Breaks

A break cuts the flow at its line, wherever it stands: the gateways that are open there are closed,
and no thread goes on. What stands behind it goes on only from what stands behind it as well, so no
edge of the log joins the two sides, and the edges behind the break are those that the rest of the
log draws on its own.

## Main definitions

* `Draft.Since`: a draft that goes on from another one without open gateways;
* `Document.HasBefore`, `Document.HasBehind`: elements on the two sides of a line;
* `Outline.BreaksAt`: a break of an outline.

## Main statements

* `Draft.since_run`: further lines go on from what stands on them;
* `Outline.consume_break`: a break closes all gateways;
* `Threads.ends_of_mem_run`: the edges of a log join what its events name;
* `Outline.ofText_breaksAt`: the breaks of every text.
-/

namespace Swimlane

namespace Draft

variable {b d d' : Draft} {l : Line} {n : Nat}

/-! ## Lines behind a number -/

/-- The id belongs to an element behind a line. -/
def HasBehind (d : Draft) (n : Nat) (id : String) : Prop := ∃ e ∈ d.elements, e.id = id ∧ n < e.line

theorem HasBehind.mono {id : String} (h : d.HasBehind n id) (later : d.Precedes d') :
    d'.HasBehind n id := by
  obtain ⟨e, he, rfl, behind⟩ := h
  obtain ⟨e', he', grows⟩ := later.mem he
  exact ⟨e', he', grows.id, grows.line ▸ behind⟩

/-- The line of an element, and its id if it is one of the flow. -/
def place (e : Element) : Option String × Nat := (e.flowId?, e.line)

/-- A draft goes on from another one behind a line: its further elements stand behind the line, and
so do the elements from which its further events and its open gateways go on. -/
structure Since (n : Nat) (b d : Draft) : Prop where
  elements : ∃ more, d.elements.map place = b.elements.map place ++ more ∧ ∀ x ∈ more, n < x.2
  events : ∃ more, d.events = b.events ++ more ∧ ∀ ev ∈ more, ∀ id ∈ ev.sources, d.HasBehind n id
  gateways : ∀ g ∈ d.gateways, ∀ id, g.Names id → d.HasBehind n id

theorem since_of_nil (h : b.gateways = []) : Since n b b where
  elements := ⟨[], by simp⟩
  events := ⟨[], by simp⟩
  gateways := by simp [h]

theorem Since.extend (hd : Since n b d) (later : d.Precedes d')
    (elements : ∃ more, d'.elements.map place = d.elements.map place ++ more ∧ ∀ x ∈ more, n < x.2)
    {introduced : List String} (logs : d.Logs d' introduced)
    (names : ∀ g ∈ d'.gateways, ∀ id, g.Names id →
      (∃ o ∈ d.gateways, o.Names id) ∨ d'.HasBehind n id) : Since n b d' := by
  have passed {id : String} (old : ∃ o ∈ d.gateways, o.Names id) : d'.HasBehind n id := by
    obtain ⟨o, ho, named⟩ := old
    exact (hd.gateways o ho id named).mono later
  obtain ⟨more, places, behind⟩ := hd.elements
  obtain ⟨more', places', behind'⟩ := elements
  obtain ⟨log, events, sources⟩ := hd.events
  obtain ⟨log', events', -, sources'⟩ := logs
  refine ⟨⟨more ++ more', by simp [places', places], by grind⟩,
    ⟨log ++ log', by simp [events', events], fun ev hev id hid => ?_⟩,
    fun g hg id named => (names g hg id named).elim passed (·)⟩
  rcases List.mem_append.1 hev with old | new
  · exact (sources ev old id hid).mono later
  · exact passed (sources' ev new id hid)

theorem Closes.since (h : Closes d d') (hd : Since n b d) : Since n b d' :=
  hd.extend h.precedes ⟨[], by simp [h.elements]⟩ h.logs fun _ hg _ named => .inl (h.names hg named)

theorem Prepares.since (h : Prepares l d d') (hd : Since n b d) : Since n b d' :=
  hd.extend h.precedes ⟨[], by simp [h.elements]⟩ h.logs fun _ hg _ named => .inl (h.names hg named)

theorem Declares.since (h : Declares l d d') (hs : d.Stacked) (behind : n < l.number)
    (hd : Since n b d) : Since n b d' := by
  obtain ⟨introduced, logs, -⟩ := h.logs
  obtain ⟨e, next, -, -, -, elements⟩ := h.exists_next
  refine hd.extend h.precedes ⟨[place e], elements fun x x' grows => ?_, ?_⟩ logs
    fun g hg id named => (h.names hs hg named).imp_right ?_
  · simp [place, grows.flowId?, grows.line]
  · simp [place, next.line, behind]
  · rintro ⟨x, hx, own, line, -⟩
    exact ⟨x, hx, own, line ▸ behind⟩

/-- Lines behind a number go on from what stands behind it. -/
theorem since_run (defaultLane : String) (anchored : b.Anchored) (closed : b.gateways = [])
    {ls : List Line} (behind : ∀ l ∈ ls, n < l.number) : Since n b (b.run defaultLane ls) := by
  have run := run_invariant (P := fun d => d.Stacked ∧ Since n b d) defaultLane anchored ls
    ⟨stacked_of_nil closed, since_of_nil closed⟩
    (fun _ _ _ _ h hd => ⟨h.stacked hd.1, h.since hd.2⟩)
    fun l hl _ _ h hd => ⟨h.stacked hd.1, h.since hd.1 (behind l hl) hd.2⟩
  exact run.2

/-- Elements of the flow on some lines, by their places. -/
theorem map_id_filter (p : Nat → Bool) (es : List Element) :
    (es.filter fun e => e.isFlowNode && p e.line).map (·.id) =
      ((es.map place).filter (p ·.2)).filterMap Prod.fst := by
  induction es with
  | nil => rfl
  | cons e es ih =>
    by_cases flow : e.isFlowNode = true <;> by_cases hp : p e.line = true <;>
      simp [place, Element.flowId?, flow, hp, ih]

end Draft

/-! ## Edges on two sides of a line -/

namespace Document

/-- The id belongs to an element before a line. -/
def HasBefore (doc : Document) (n : Nat) (id : String) : Prop :=
  ∃ e ∈ doc.elements, e.id = id ∧ e.line < n

/-- The id belongs to an element behind a line. -/
def HasBehind (doc : Document) (n : Nat) (id : String) : Prop :=
  ∃ e ∈ doc.elements, e.id = id ∧ n < e.line

instance (doc : Document) (n : Nat) (id : String) : Decidable (doc.HasBehind n id) :=
  inferInstanceAs (Decidable (∃ e ∈ doc.elements, e.id = id ∧ n < e.line))

theorem not_hasBefore_of_hasBehind {doc : Document} {n : Nat} {id : String}
    (ids : (doc.elements.map (·.id)).Nodup) (h : doc.HasBehind n id) : ¬ doc.HasBefore n id := by
  rintro ⟨e, he, own, before⟩
  obtain ⟨e', he', own', behind⟩ := h
  obtain rfl := List.inj_on_of_nodup_map ids he he' (own.trans own'.symm)
  omega

end Document

namespace Threads

variable {doc : Document}

/-- Behind a break the log draws what it would draw on its own. -/
theorem run_flowBreak (before after : List Event) :
    run doc {} (before ++ .flowBreak :: after) = run doc {} before ++ run doc {} after := by
  rw [run_append]
  rfl

/-- The flow of a log joins what its events introduce and what they go on from. -/
theorem ends_of_mem_run {P : String → Prop} {events : List Event}
    (introduced : ∀ id ∈ events.filterMap Event.introduced?, P id)
    (sources : ∀ ev ∈ events, ∀ id ∈ ev.sources, P id) :
    ∀ edge ∈ run doc {} events, edge.kind = .sequenceFlow → P edge.source ∧ P edge.target := by
  refine run_forall (P := P) (fun v hv => absurd hv (not_holds_empty v)) ?_ ?_ ?_
  · exact fun v hv => introduced v (List.mem_filterMap.2 ⟨_, hv, rfl⟩)
  · exact fun gateway v hv => sources _ hv v (by simp [Event.sources])
  · intro t held ev hev edge draws flow
    constructor
    · exact (draws.source flow).elim (sources ev hev _) (held _)
    · exact introduced _ (List.mem_filterMap.2 ⟨ev, hev, draws.introduced? flow⟩)

end Threads

/-- A log that introduces no element twice draws no edge of the flow twice. -/
theorem Flow.filter_logged {doc : Document} {events : List Event}
    (h : (events.filterMap Event.introduced?).Nodup) :
    (logged doc events).filter (·.kind = .sequenceFlow) =
      (Threads.run doc {} events).filter (·.kind = .sequenceFlow) := by
  refine Outcome.filter_distinct _ [] (by simp) ?_
  have targets : (((Threads.run doc {} events).filter (·.kind = .sequenceFlow)).map
      (·.target)).Nodup := h.sublist (Threads.targets_sublist events)
  exact List.Nodup.of_map (·.2.2) (by simpa [Function.comp_def, Edge.key] using targets)

/-- The flow that a log draws behind a break, told by a property that the flow before the break does
not have. -/
theorem Flow.filter_logged_flowBreak {doc : Document} {before after : List Event} {p : Edge → Bool}
    (nodup : ((before ++ .flowBreak :: after).filterMap Event.introduced?).Nodup)
    (apart : ∀ e ∈ Threads.run doc {} before, e.kind = .sequenceFlow → p e = false)
    (all : ∀ e ∈ Threads.run doc {} after, e.kind = .sequenceFlow → p e = true) :
    (logged doc (before ++ .flowBreak :: after)).filter (fun e => e.kind = .sequenceFlow && p e) =
      (logged doc after).filter (·.kind = .sequenceFlow) := by
  have nodup' : (after.filterMap Event.introduced?).Nodup := by
    rw [List.filterMap_append] at nodup
    exact nodup.of_append_right
  have first : ((Threads.run doc {} before).filter (·.kind = .sequenceFlow)).filter p = [] :=
    List.filter_eq_nil_iff.2 (by simpa using apart)
  have second : ((Threads.run doc {} after).filter (·.kind = .sequenceFlow)).filter p =
      (Threads.run doc {} after).filter (·.kind = .sequenceFlow) :=
    List.filter_eq_self.2 (by simpa using all)
  calc (logged doc (before ++ .flowBreak :: after)).filter (fun e => e.kind = .sequenceFlow && p e)
    _ = ((logged doc (before ++ .flowBreak :: after)).filter
        (·.kind = .sequenceFlow)).filter p := by
      simp only [List.filter_filter, Bool.and_comm]
    _ = (Threads.run doc {} after).filter (·.kind = .sequenceFlow) := by
      rw [filter_logged nodup, Threads.run_flowBreak, List.filter_append, List.filter_append, first,
        second, List.nil_append]
    _ = (logged doc after).filter (·.kind = .sequenceFlow) := (filter_logged nodup').symm

namespace Outline

open Draft

/-! ## Breaks -/

/-- A break closes all gateways, whatever its depth is. -/
theorem consume_break (defaultLane : String) (ls : List Line) {l : Line}
    (cut : Statement.ofLine l = .flowBreak) :
    (draft defaultLane ls).consume defaultLane l = (finished defaultLane ls).log .flowBreak := by
  have kind := Statement.kind_of_ofLine_flowBreak cut
  have all : OpenGateway.closedBy l.kind l.depth = fun _ => true := by
    funext g
    simp [kind, OpenGateway.closedBy]
  rw [consume, all, cut]
  rfl

/-- The draft behind a break goes on without what stands before it. -/
theorem since_break (defaultLane : String) {ls rest : List Line} {l : Line}
    (cut : Statement.ofLine l = .flowBreak) (behind : ∀ l' ∈ rest, l.number < l'.number) :
    Since l.number ((finished defaultLane ls).log .flowBreak)
      (finished defaultLane (ls ++ l :: rest)) := by
  have run : draft defaultLane (ls ++ l :: rest) =
      ((finished defaultLane ls).log .flowBreak).run defaultLane rest := by
    rw [draft_append_run, run_cons, consume_break defaultLane ls cut]
  have anchored := anchored_consume defaultLane l (anchored_draft defaultLane ls)
  rw [consume_break defaultLane ls cut] at anchored
  have closed : ((finished defaultLane ls).log .flowBreak).gateways = [] :=
    closeGateways_eq_nil _ fun _ => rfl
  have since := since_run defaultLane anchored closed behind
  rw [← run] at since
  exact finished_invariant defaultLane (fun _ _ h => h.since) since

section

variable {ls rest : List Line} {l : Line}

theorem line_lt_of_mem_finished {defaultLane : String} (before : ∀ l' ∈ ls, l'.number < l.number)
    {e : Element} (he : e ∈ (finished defaultLane ls).elements) : e.line < l.number := by
  rw [finished_elements] at he
  have line := (lines_sublist defaultLane ls).subset (List.mem_map_of_mem he)
  obtain ⟨l', hl', same⟩ := List.mem_map.1 line
  exact same ▸ before l' hl'

/-- The log on the two sides of a break. -/
theorem log_break (defaultLane : String) (cut : Statement.ofLine l = .flowBreak)
    (before : ∀ l' ∈ ls, l'.number < l.number) (behind : ∀ l' ∈ rest, l.number < l'.number) :
    let d := finished defaultLane ls
    let D := finished defaultLane (ls ++ l :: rest)
    ∃ after, D.events = d.events ++ .flowBreak :: after ∧
      (d.events.filterMap Event.introduced? =
        (D.elements.filter fun e => e.isFlowNode && e.line < l.number).map (·.id)) ∧
      (after.filterMap Event.introduced? =
        (D.elements.filter fun e => e.isFlowNode && l.number < e.line).map (·.id)) ∧
      ∀ ev ∈ after, ∀ id ∈ ev.sources, D.HasBehind l.number id := by
  intro d D
  obtain ⟨⟨more, places, later⟩, ⟨after, events, sources⟩, -⟩ := since_break defaultLane cut behind
  have events : D.events = d.events ++ .flowBreak :: after := by simpa [log] using events
  have places : D.elements.map place = d.elements.map place ++ more := places
  have early : ∀ x ∈ d.elements.map place, x.2 < l.number := by
    intro x hx
    obtain ⟨e, he, rfl⟩ := List.mem_map.1 hx
    exact line_lt_of_mem_finished before he
  have first := (chronicled_finished defaultLane ls).introduced
  have whole : D.events.filterMap Event.introduced? = D.elements.filterMap Element.flowId? :=
    (chronicled_finished defaultLane (ls ++ l :: rest)).introduced
  have flows (es : List Element) : es.filterMap Element.flowId? =
      (es.map place).filterMap Prod.fst := by
    simp [List.filterMap_map, Function.comp_def, place]
  -- Both drafts are chronicled, so the log has gained what the elements have gained.
  have introduced : after.filterMap Event.introduced? = more.filterMap Prod.fst := by
    refine (List.append_right_inj (d.events.filterMap Event.introduced?)).1 ?_
    calc d.events.filterMap Event.introduced? ++ after.filterMap Event.introduced?
      _ = D.events.filterMap Event.introduced? := by
        rw [events, List.filterMap_append]
        rfl
      _ = (d.elements.map place).filterMap Prod.fst ++ more.filterMap Prod.fst := by
        rw [whole, flows, places, List.filterMap_append]
      _ = d.events.filterMap Event.introduced? ++ more.filterMap Prod.fst := by rw [first, flows]
  refine ⟨after, events, ?_, ?_, sources⟩
  · have all : (d.elements.map place).filter (·.2 < l.number) = d.elements.map place :=
      List.filter_eq_self.2 (by simpa using early)
    have others : more.filter (·.2 < l.number) = [] :=
      List.filter_eq_nil_iff.2 fun x hx => by simpa using (later x hx).le
    rw [first, flows, map_id_filter (· < l.number), places, List.filter_append, all, others,
      List.append_nil]
  · have others : (d.elements.map place).filter (l.number < ·.2) = [] :=
      List.filter_eq_nil_iff.2 fun x hx => by simpa using (early x hx).le
    have all : more.filter (l.number < ·.2) = more :=
      List.filter_eq_self.2 (by simpa using later)
    rw [introduced, map_id_filter (l.number < ·), places, List.filter_append, others, all,
      List.nil_append]

end

/-- A break of an outline on a line: the events before it introduce the elements of the flow before
the line, and those behind it the elements behind the line. No edge that the log draws joins the two
sides, and the edges behind the line are those that the rest of the log draws from no threads. -/
structure BreaksAt (o : Outline) (n : Nat) (before after : List Event) : Prop where
  events : o.events = before ++ .flowBreak :: after
  introduced_before : before.filterMap Event.introduced? =
    (o.document.elements.filter fun e => e.isFlowNode && e.line < n).map (·.id)
  introduced_after : after.filterMap Event.introduced? =
    (o.document.elements.filter fun e => e.isFlowNode && n < e.line).map (·.id)
  apart : ∀ edge ∈ Threads.run o.document {} o.events, edge.kind = .sequenceFlow →
    ¬ (o.document.HasBefore n edge.source ∧ o.document.HasBehind n edge.target) ∧
    ¬ (o.document.HasBehind n edge.source ∧ o.document.HasBefore n edge.target)
  fresh : (Flow.logged o.document o.events).filter (fun edge => edge.kind = .sequenceFlow &&
      o.document.HasBehind n edge.source && o.document.HasBehind n edge.target) =
    (Flow.logged o.document after).filter (·.kind = .sequenceFlow)

/-- A log on two sides of a line breaks there, if no side goes on from the other one. -/
theorem breaksAt_of_log {o : Outline} {n : Nat} {before after : List Event}
    (ids : (o.document.elements.map (·.id)).Nodup)
    (nodup : (o.events.filterMap Event.introduced?).Nodup)
    (events : o.events = before ++ .flowBreak :: after)
    (introduced : before.filterMap Event.introduced? =
      (o.document.elements.filter fun e => e.isFlowNode && e.line < n).map (·.id))
    (introduced' : after.filterMap Event.introduced? =
      (o.document.elements.filter fun e => e.isFlowNode && n < e.line).map (·.id))
    (sources : ∀ ev ∈ before, ∀ id ∈ ev.sources, id ∈ before.filterMap Event.introduced?)
    (sources' : ∀ ev ∈ after, ∀ id ∈ ev.sources, o.document.HasBehind n id) :
    o.BreaksAt n before after := by
  have early : ∀ id ∈ before.filterMap Event.introduced?, o.document.HasBefore n id := by
    rw [introduced]
    intro id hid
    obtain ⟨e, he, rfl⟩ := List.mem_map.1 hid
    exact ⟨e, by grind, rfl, by grind⟩
  have late : ∀ id ∈ after.filterMap Event.introduced?, o.document.HasBehind n id := by
    rw [introduced']
    intro id hid
    obtain ⟨e, he, rfl⟩ := List.mem_map.1 hid
    exact ⟨e, by grind, rfl, by grind⟩
  have first : ∀ edge ∈ Threads.run o.document {} before, edge.kind = .sequenceFlow →
      o.document.HasBefore n edge.source ∧ o.document.HasBefore n edge.target :=
    Threads.ends_of_mem_run early fun ev hev id hid => early id (sources ev hev id hid)
  have second : ∀ edge ∈ Threads.run o.document {} after, edge.kind = .sequenceFlow →
      o.document.HasBehind n edge.source ∧ o.document.HasBehind n edge.target :=
    Threads.ends_of_mem_run late sources'
  have only {id : String} (behind : o.document.HasBehind n id) : ¬ o.document.HasBefore n id :=
    Document.not_hasBefore_of_hasBehind ids behind
  refine ⟨events, introduced, introduced', fun edge drawn flow => ?_, ?_⟩
  · rw [events, Threads.run_flowBreak] at drawn
    rcases List.mem_append.1 drawn with drawn | drawn
    · obtain ⟨source, target⟩ := first edge drawn flow
      exact ⟨fun both => only both.2 target, fun both => only both.1 source⟩
    · obtain ⟨source, target⟩ := second edge drawn flow
      exact ⟨fun both => only source both.1, fun both => only target both.2⟩
  · rw [events] at nodup ⊢
    simp only [Bool.and_assoc]
    apply Flow.filter_logged_flowBreak nodup
    · intro edge drawn flow
      have other : ¬ o.document.HasBehind n edge.source := fun behind =>
        only behind (first edge drawn flow).1
      simp [other]
    · exact fun edge drawn flow => by simpa using second edge drawn flow

/-- The breaks of every text. Before a break the log is that of the lines before it. -/
theorem ofText_breaksAt (options : ReadOptions) (text : String) (o : Outline)
    (h : ofText options text = .ok o) (p : Text.Piece) (hp : p ∈ Text.pieces text.toList)
    (cut : p.IsBreak) : ∃ after, o.BreaksAt p.number (finished options.defaultLane
      ((scan options.maxDepth text).lines.takeWhile (·.number < p.number))).events after := by
  have written : p.isWritten = true := by
    cases chars : Text.trim p.chars with
    | nil => simp [Text.Piece.IsBreak, chars] at cut
    | cons => simp [Text.Piece.isWritten, chars]
  obtain ⟨l, hl, line⟩ := (scan_isTwoPass options.maxDepth text).exists_line
    (exists_ofText_eq_ok.1 ⟨o, h⟩) (List.mem_filter.2 ⟨hp, written⟩)
  have number : l.number = p.number := line ▸ rfl
  have cut : Statement.ofLine l = .flowBreak := by
    rw [line]
    exact (Text.Piece.isBreak_iff _).1 cut
  have numbers := List.pairwise_map.1 (scan_numbers_pairwise options.maxDepth text)
  obtain ⟨document, events, -⟩ := ofText_eq_ok h
  obtain ⟨ls, rest, split⟩ := List.append_of_mem hl
  rw [split] at numbers document events ⊢
  obtain ⟨-, behind, before⟩ := List.pairwise_append.1 numbers
  have behind : ∀ l' ∈ rest, l.number < l'.number := (List.pairwise_cons.1 behind).1
  have before : ∀ l' ∈ ls, l'.number < l.number := fun l' hl' => before l' hl' l (by simp)
  have taken : (ls ++ l :: rest).takeWhile (·.number < p.number) = ls := by
    rw [List.takeWhile_append_of_pos (by simpa [← number] using before)]
    simp [number]
  rw [taken, ← number]
  have registered := registered_finished options.defaultLane (ls ++ l :: rest)
  have chronicled := chronicled_finished options.defaultLane (ls ++ l :: rest)
  have elements := document_elements registered
  obtain ⟨after, log, introduced, introduced', sources⟩ :=
    log_break options.defaultLane cut before behind
  -- The log before the break is that of a whole draft, which goes on only from what it introduces.
  refine ⟨after, breaksAt_of_log ?_ ?_ (events.trans log) ?_ ?_ ?_ ?_⟩
  · rw [document, elements]
    exact registered.elementIds_nodup
  · rw [events]
    exact chronicled.introduced_nodup registered
  · rw [document, elements, introduced]
  · rw [document, elements, introduced']
  · intro ev hev id hid
    obtain ⟨earlier, later, split⟩ := List.append_of_mem hev
    have start : earlier ++ [ev] <+: (finished options.defaultLane ls).events :=
      ⟨later, by simp [split]⟩
    have known := (chronicled_finished options.defaultLane ls).sources earlier ev start id hid
    exact ((List.prefix_append _ _).trans start).filterMap _ |>.subset known
  · intro ev hev id hid
    rw [document, Document.HasBehind, elements]
    exact sources ev hev id hid

/-- A break inside of a branch. The gateway is closed, and what stands behind the break is no longer
part of it. -/
theorem ofText_breaksAt_branch :
    ∃ o, ofText {} "a\n?g\n  +b\n    ---\n    c\n  -d" = .ok o ∧
      o.events = [.declared "default_a", .declared "default_g",
        .branchOpened "default_g" "default_b" "Yes", .gatewayClosed "default_g" (some "default_b"),
        .flowBreak, .declared "default_c", .declared "default_d"] ∧
      ∃ p ∈ Text.pieces "a\n?g\n  +b\n    ---\n    c\n  -d".toList, p.IsBreak ∧ p.number = 4 ∧
        ∃ after, o.BreaksAt 4 [.declared "default_a", .declared "default_g",
          .branchOpened "default_g" "default_b" "Yes",
          .gatewayClosed "default_g" (some "default_b")] after := by
  have read : ofText {} "a\n?g\n  +b\n    ---\n    c\n  -d" = .ok _ := rfl
  let p : Text.Piece := ⟨4, 10, "    ---".toList⟩
  have hp : p ∈ Text.pieces "a\n?g\n  +b\n    ---\n    c\n  -d".toList := by decide +kernel
  have cut : p.IsBreak := by decide +kernel
  have log : (finished "Default" ((scan 64 "a\n?g\n  +b\n    ---\n    c\n  -d").lines.takeWhile
      (·.number < 4))).events = [.declared "default_a", .declared "default_g",
        .branchOpened "default_g" "default_b" "Yes",
        .gatewayClosed "default_g" (some "default_b")] := by decide +kernel
  exact ⟨_, read, by decide +kernel, p, hp, cut, rfl,
    log ▸ ofText_breaksAt {} _ _ read p hp cut⟩

end Outline

end Swimlane
