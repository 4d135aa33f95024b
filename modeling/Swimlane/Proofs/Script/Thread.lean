import Swimlane.Proofs.Outline.Grounded
import Swimlane.Proofs.Script.Branch

/-!
# Scripts outside of all gateways

Between the items of a script, with all gateways closed, the threads of the log stand where the
frontier of the script is. Items move both in the same way.

## Main definitions

* `Draft.Tracks`: threads that stand at a frontier;
* `Draft.AtTop`: a draft between two items of a script;
* `Draft.DeclaredTop`: what a statement outside of all gateways does.

## Main statements

* `Draft.Tracks.before?_eq`: a statement follows the same position in both;
* `Script.run_items`: the log of a script draws the links of the script.
-/

namespace Swimlane

open List (Forall₂)
open Script (Frontier)

namespace Draft

/-- The threads stand where the frontier is. The element under the cursor is on the thread of its
own lane. -/
structure Tracks (D : Draft) (t : Threads) (f : Frontier) : Prop where
  threads : ∀ lane ∈ D.lanes, t.thread? lane.id = (f.thread lane.name).map D.idAt
  cursor : t.cursor = f.cursor.map D.idAt
  home : ∀ id, t.cursor = some id → ∃ e ∈ D.elements, e.id = id ∧ t.thread? e.lane = some id

section

variable {D : Draft} {t : Threads} {f : Frontier} {lane : LaneHeader}

theorem tracks_empty (D : Draft) (name : String) : D.Tracks {} { lane := name } where
  threads := fun _ _ => rfl
  cursor := rfl
  home := by simp

/-- A statement follows the same position in both. The cursor never lies in the lane of a statement
that has no thread, so that it is not passed over. -/
theorem Tracks.before?_eq (h : D.Tracks t f) (reg : D.Registered) (hl : lane ∈ D.lanes)
    (name : lane.name = f.lane) :
    t.before? D.document lane.id = f.before.map D.idAt := by
  have thread : t.thread? lane.id = (f.thread f.lane).map D.idAt := name ▸ h.threads lane hl
  cases hp : f.thread f.lane with
  | some p => simp [Threads.before?, thread, Frontier.before, hp]
  | none =>
    have elsewhere : t.cursor.filter
        (fun c => (D.document.findLast? c).map (·.lane) != some lane.id) = t.cursor := by
      cases hc : t.cursor with
      | none => rfl
      | some id =>
        obtain ⟨e, he, hid, onThread⟩ := h.home id hc
        have found := (findLast?_eq_some reg).2 ⟨he, hid⟩
        have apart : e.lane ≠ lane.id := by
          intro same
          simp [same, thread, hp] at onThread
        simp [Option.filter, found, apart]
    rw [Threads.before?, elsewhere, thread, hp, h.cursor]
    simp [Frontier.before, hp]

/-- Moving the thread of the current lane moves the frontier. -/
theorem Tracks.move (h : D.Tracks t f) (reg : D.Registered) (hl : lane ∈ D.lanes)
    (name : lane.name = f.lane) (exit : Option Nat)
    (found : ∀ n, exit = some n → ∃ e ∈ D.elements, e.id = D.idAt n ∧ e.lane = lane.id) :
    D.Tracks (t.move lane.id (exit.map D.idAt)) (f.advance exit) where
  threads := by
    intro other ho
    have same : other.id = lane.id ↔ other.name = f.lane := by
      rw [← name]
      constructor
      · intro hid
        rw [List.inj_on_of_nodup_map reg.laneIds_nodup ho hl hid]
      · intro hname
        rw [List.inj_on_of_nodup_map reg.names ho hl hname]
    by_cases hid : other.id = lane.id
    · simp [Threads.thread?_move, hid, Frontier.advance, same.1 hid]
    · simp [Threads.thread?_move, hid, Frontier.advance, mt same.2 hid, h.threads other ho]
  cursor := Threads.cursor_move ..
  home := by
    intro id hid
    rw [Threads.cursor_move] at hid
    obtain ⟨n, hn, rfl⟩ := Option.map_eq_some_iff.1 hid
    obtain ⟨e, he, same, own⟩ := found n hn
    exact ⟨e, he, same, by simp [Threads.thread?_move, own, hn]⟩

end

/-! ## Statements -/

/-- Between two items of a script: elements have been declared up to a position and links have been
drawn, and once all gateways are closed the threads stand at the frontier. -/
structure AtTop (D d : Draft) (defaultLane : String) (f : Frontier) (position : Nat)
    (drawn : List Script.Link) : Prop where
  lane : (d.lane defaultLane).name = f.lane
  length : d.elements.length = position
  tracks : D.Tracks (D.threads (d.close 0)) f
  sequence : D.sequence (d.close 0) = drawn.map (·.edge D.idAt)

theorem close_lane (d : Draft) (depth : Nat) (defaultLane : String) :
    (d.close depth).lane defaultLane = d.lane defaultLane := by
  unfold close closeGateways
  split <;> rfl

section

variable {D d : Draft} {defaultLane : String} {f : Frontier} {n : Nat} {drawn : List Script.Link}
  {l : Line}

/-- A lane changes the lane of the next statement and nothing else. -/
theorem AtTop.consume_lane (h : D.AtTop d defaultLane f n drawn) {name : String}
    (read : Script.Row.ReadAs ⟨0, .lane name⟩ l) :
    D.AtTop (d.consume defaultLane l) defaultLane { f with lane := name } n drawn := by
  have eq : d.consume defaultLane l = (d.close 0).openLane name := by
    rw [consume, read.depth, closeGateways_top (.inl read.kind), read.statement]
    rfl
  have closed : ((d.close 0).openLane name).close 0 = (d.close 0).openLane name :=
    close_of_nil ((openLane_gateways ..).trans (close_zero_gateways d)) 0
  have events := openLane_events (d.close 0) name
  rw [eq]
  refine
    { lane := by simp [Draft.lane, openLane_current, laneNamed_name]
      length := by rw [openLane_elements, close, closeGateways_elements, h.length]
      tracks := ?_
      sequence := by rw [closed, Draft.sequence, events]; exact h.sequence }
  rw [closed, Draft.threads, events]
  exact { h.tracks with }

/-- A break ends all threads. -/
theorem AtTop.consume_break (h : D.AtTop d defaultLane f n drawn)
    (read : Script.Row.ReadAs ⟨0, .flowBreak⟩ l) :
    D.AtTop (d.consume defaultLane l) defaultLane { lane := f.lane } n drawn := by
  have eq : d.consume defaultLane l = (d.close 0).log .flowBreak := by
    rw [consume, read.depth, closeGateways_top (.inr (.inl read.kind)), read.statement]
    rfl
  have closed : ((d.close 0).log .flowBreak).close 0 = (d.close 0).log .flowBreak :=
    close_of_nil (d := (d.close 0).log .flowBreak) (close_zero_gateways d) 0
  have events : ((d.close 0).log .flowBreak).events = (d.close 0).events ++ [.flowBreak] := rfl
  rw [eq]
  refine
    { lane := (congrArg LaneHeader.name (close_lane d 0 defaultLane)).trans h.lane
      length := (congrArg List.length (closeGateways_elements d _)).trans h.length
      tracks := ?_
      sequence := ?_ }
  · rw [closed, threads_of_events events (by simp)]
    exact tracks_empty D f.lane
  · rw [closed, sequence_of_events events (by simp), h.sequence]
    simp [Threads.step]

end

/-- A statement outside of all gateways has been declared as `e`, in a lane. -/
structure DeclaredTop (D d d' : Draft) (l : Line) (f : Frontier) (n : Nat) (lane : LaneHeader)
    (e : Element) : Prop where
  laneName : lane.name = f.lane
  laneMem : lane ∈ D.lanes
  current : d'.current = some lane
  id : e.id = D.idAt n
  found : ∃ e' ∈ D.elements, e'.id = e.id ∧ e'.lane = lane.id
  length : d'.elements.length = n + 1
  gateways : d'.gateways = openedBy l e
  threads : D.threads d' = (D.threads (d.close 0)).move lane.id
    (if e.kind = .endEvent then none else some e.id)
  sequence : D.sequence d' = D.sequence (d.close 0) ++
    (Threads.edgeTo? (f.before.map D.idAt) e).toList

section

variable {D d : Draft} {depth : Nat} {lane : LaneHeader} {g : OpenGateway}
  {outer : List OpenGateway} {position : Nat}

/-- The ids that an open gateway passes on belong to its lane. -/
theorem AtGateway.mem_of_names (h : D.AtGateway d depth lane g outer position) (hd : d.Grounded)
    (later : d.Precedes D) {id : String} (hid : g.Names id) :
    ∃ e ∈ D.elements, e.id = id ∧ e.lane = lane.id := by
  have grounded : (d.close (depth + 2)).Grounded :=
    invariant_of_changes (fun _ _ h => h.grounded) (closeGateways_closes d _) hd
  rw [close_eq_of_cons h.stack] at grounded
  obtain ⟨e, he, rfl, -, own⟩ := grounded.gateways g List.mem_cons_self id hid
  obtain ⟨e', he', grows⟩ := later.mem he
  exact ⟨e', he', grows.id, by simpa [h.current, grows.lane] using own.symm⟩

/-- Closing an outermost gateway moves the thread of its lane to its exit. -/
theorem AtGateway.close_zero (h : D.AtGateway d depth lane g [] position) (reg : D.Registered)
    (hd : d.Grounded) (later : d.Precedes D) :
    D.threads (d.close 0) = (D.threads d).move lane.id g.exit ∧
      D.sequence (d.close 0) = D.sequence d := by
  have events : (d.close 0).events = d.events ++ [.gatewayClosed g.id g.exit] := by
    rw [← close_close (Nat.zero_le (depth + 2)), close_last h.stack (Nat.zero_le _),
      close_eq_of_cons h.stack]
  obtain ⟨e, he, id, own⟩ := h.mem_of_names hd later (.inl rfl)
  have gateway := (findLast?_eq_some reg).2 ⟨he, id⟩
  have exit (id : String) (hid : g.exit = some id) : ∃ e, D.document.findLast? id = some e := by
    obtain ⟨x, hx, hid, -⟩ := h.mem_of_names hd later (OpenGateway.names_of_exit hid)
    exact ⟨x, (findLast?_eq_some reg).2 ⟨hx, hid⟩⟩
  rw [threads_of_events events (by simp), sequence_of_events events (by simp),
    Threads.step_gatewayClosed gateway exit, own]
  simp

end

/-- A statement outside of all gateways follows the frontier and moves the thread of its lane. -/
theorem consume_top (defaultLane : String) {D d : Draft} (reg : D.Registered) {l : Line}
    {f : Frontier} {kind : ElementKind} {label : String} (depth : l.depth = 0)
    (state : Statement.ofLine l = .node kind label) {n : Nat} {drawn : List Script.Link}
    (h : D.AtTop d defaultLane f n drawn) (hd : (d.consume defaultLane l).Registered)
    (later : (d.consume defaultLane l).Precedes D) :
    ∃ lane e, e.kind = kind ∧ D.DeclaredTop d (d.consume defaultLane l) l f n lane e := by
  let c := (d.close 0).enterLane defaultLane
  let lane := d.lane defaultLane
  have closed : c.gateways = [] := by
    rw [enterLane_gateways, close_zero_gateways]
  have length : c.elements.length = n := by
    rw [enterLane_elements, close, closeGateways_elements, h.length]
  have current : c.current = some lane := by
    rw [enterLane_current, close_lane]
  have eq : d.consume defaultLane l = c.addNode lane l label kind := by
    have flow := (Statement.kind_of_ofLine_node state).1
    rw [consume, depth, closeGateways_top (.inr (.inr flow)), state]
    simp only [perform, c, lane, close_lane]
  rw [eq] at hd later ⊢
  let e := c.newElement lane l label kind
  have id : e.id = D.idAt n := by
    rw [← length]
    exact (idAt_addNode later).symm
  have current' := (addNode_current c lane l label kind).trans current
  have laneMem : lane ∈ D.lanes := later.lanes.subset (hd.current lane current')
  obtain ⟨e', found, grows⟩ := findLast?_addNode reg later
  have messages (ev : Event) (hev : ev ∈ pairing c.waiting l e) := messages_pairing hev
  have events : (c.addNode lane l label kind).events =
      (d.close 0).events ++ .declared e.id :: pairing c.waiting l e := by
    rw [addNode_events, enterLane_events, closed]
    rfl
  have own : e'.lane = lane.id := grows.lane
  have before := h.tracks.before?_eq reg laneMem h.lane
  refine ⟨lane, e, rfl,
    { laneName := h.lane
      laneMem
      current := current'
      id
      found := ⟨e', ((findLast?_eq_some reg).1 found).1, grows.id, own⟩
      length := by simp [length]
      gateways := ?_
      threads := ?_
      sequence := ?_ }⟩
  · rw [addNode_gateways, closed]
    simp [follow, e]
  · rw [threads_of_events events messages]
    have isEnd : e'.kind = .endEvent ↔ e.kind = .endEvent := grows.kind_eq_iff (by simp)
    simp only [Threads.step, e, found, Threads.declare_eq_move, own, grows.id, isEnd]
  · rw [sequence_of_events events messages]
    simp only [Threads.step, e, found, own, before, edgeTo?_grows grows, sequence_edgeTo?]

end Draft

namespace Script

open Draft

theorem Frontier.advance_advance (f : Frontier) (a b : Option Nat) :
    (f.advance a).advance b = f.advance b := by
  simp only [Frontier.advance, Frontier.mk.injEq, true_and, and_true]
  funext lane
  split <;> rfl

theorem Leaf.eq_of_exit {leaf : Leaf} {n k : Nat} (h : leaf.exit n = some k) : k = n := by
  cases leaf <;> simp_all [Leaf.exit]

variable {D : Draft} {f : Frontier} {done : List Line} {n : Nat} {drawn : List Link}

/-- A leaf outside of all gateways. -/
theorem Leaf.run_top (defaultLane : String) (reg : D.Registered) {leaf : Leaf} {l : Line}
    (read : Row.ReadAs ⟨0, .leaf leaf⟩ l)
    (h : D.AtTop (Outline.draft defaultLane done) defaultLane f n drawn)
    (later : (Outline.draft defaultLane (done ++ [l])).Precedes D) :
    D.AtTop (Outline.draft defaultLane (done ++ [l])) defaultLane (f.advance (leaf.exit n)) (n + 1)
      (drawn ++ leaf.links f.before n) := by
  have hd := Outline.registered_draft defaultLane (done ++ [l])
  rw [Outline.draft_append] at hd later ⊢
  obtain ⟨lane, e, kind, top⟩ := consume_top defaultLane reg read.depth read.statement h hd later
  have notGateway : openedBy l e = [] := openedBy_eq_nil fun branches hk => by
    rw [kind] at hk
    cases leaf <;> simp [Leaf.kind] at hk
  have closed := close_of_nil (top.gateways.trans notGateway) 0
  refine
    { lane := by simp [Draft.lane, top.current, top.laneName, Frontier.advance]
      length := top.length
      tracks := ?_
      sequence := ?_ }
  · rw [closed, top.threads, Leaf.exit_eq kind top.id]
    refine h.tracks.move reg top.laneMem top.laneName _ fun k hk => ?_
    obtain ⟨e', he', id, own⟩ := top.found
    exact ⟨e', he', by rw [id, top.id, Leaf.eq_of_exit hk], own⟩
  · rw [closed, top.sequence, Leaf.edgeTo?_links kind top.id, h.sequence, List.map_append]

/-- A gateway outside of all gateways, with its branches. -/
theorem run_top_gateway (defaultLane : String) (reg : D.Registered) {label : String}
    {arms : List Arm} {ls : List Line}
    (read : Forall₂ Row.ReadAs ((Step.gateway label arms).rows 0) ls)
    (h : D.AtTop (Outline.draft defaultLane done) defaultLane f n drawn)
    (later : (Outline.draft defaultLane (done ++ ls)).Precedes D) :
    D.AtTop (Outline.draft defaultLane (done ++ ls)) defaultLane
      (f.advance ((Step.gateway label arms).exit n)) (n + (Step.gateway label arms).size)
      (drawn ++ (Step.gateway label arms).links f.before n) := by
  obtain ⟨l, ls, row, rest, rfl⟩ := List.forall₂_cons_left_iff.1 read
  have grounded := Outline.grounded_draft defaultLane (done ++ l :: ls)
  have hd := Outline.registered_draft defaultLane (done ++ [l])
  rw [Outline.draft_append_run, run_cons] at grounded later ⊢
  rw [Outline.draft_append] at hd
  have anchored := anchored_consume defaultLane l (Outline.anchored_draft defaultLane done)
  have first := (precedes_run defaultLane anchored ls).trans later
  obtain ⟨lane, e, kind, top⟩ := consume_top defaultLane reg row.depth row.statement h hd first
  have stack : ((Outline.draft defaultLane done).consume defaultLane l).gateways =
      [{ id := e.id, slot := e.order, depth := 0 }] := by
    rw [top.gateways]
    simp [openedBy, kind, row.depth]
  have at' : D.AtGateway ((Outline.draft defaultLane done).consume defaultLane l) 0 lane _ [] n :=
    ⟨top.current, by rw [close_of_lt stack (by simp)]; exact stack, rfl, top.id⟩
  obtain ⟨added, g, inner, count, exit⟩ :=
    run_armsRows defaultLane reg arms rest at' top.length later
  have leave := exit_gateway label inner.id (by simpa using count) exit
  obtain ⟨threads, sequence⟩ := inner.close_zero reg grounded later
  refine
    { lane := by simp [Draft.lane, inner.current, top.laneName, Frontier.advance]
      length := by rw [added.length, top.length, Step.size]; omega
      tracks := ?_
      sequence := ?_ }
  · -- The gateway itself goes on the thread first, and its exit afterwards.
    obtain ⟨e', he', id, own⟩ := top.found
    have opened := h.tracks.move reg top.laneMem top.laneName (some n) fun k hk =>
      ⟨e', he', by rw [id, top.id, ← Option.some.inj hk], own⟩
    rw [threads, added.threads, top.threads, leave, ← f.advance_advance (some n), kind,
      if_neg (by simp), top.id]
    refine opened.move reg top.laneMem top.laneName _ fun k hk => ?_
    exact inner.mem_of_names grounded later (OpenGateway.names_of_exit (by simp [leave, hk]))
  · rw [sequence, added.sequence, top.sequence, h.sequence,
      edgeTo?_linkFrom (by simp [kind]) top.id]
    simp [Step.links]

/-- A script runs as its tree tells: item by item the links of the script are drawn. -/
theorem run_items (defaultLane : String) (reg : D.Registered) (items : List Item) {ls : List Line}
    (read : Forall₂ Row.ReadAs (rows items) ls)
    (h : D.AtTop (Outline.draft defaultLane done) defaultLane f n drawn)
    (later : (Outline.draft defaultLane (done ++ ls)).Precedes D) :
    D.sequence ((Outline.draft defaultLane (done ++ ls)).close 0) =
      (drawn ++ flowFrom f n items).map (·.edge D.idAt) := by
  induction items generalizing done ls f n drawn with
  | nil =>
    obtain rfl := List.forall₂_nil_left_iff.1 read
    simpa [flowFrom] using h.sequence
  | cons item items ih =>
    obtain ⟨first, second, rfl, readFirst, readSecond⟩ := exists_append_of_forall₂ read
    have middle : (Outline.draft defaultLane (done ++ first)).Precedes D := by
      refine Precedes.trans ?_ later
      rw [← List.append_assoc, Outline.draft_append_run defaultLane (done ++ first)]
      exact precedes_run defaultLane (Outline.anchored_draft defaultLane (done ++ first)) second
    rw [← List.append_assoc] at later ⊢
    cases item with
    | lane name =>
      obtain ⟨l, rest, row, hn, rfl⟩ := List.forall₂_cons_left_iff.1 readFirst
      obtain rfl := List.forall₂_nil_left_iff.1 hn
      refine ih readSecond ?_ later
      rw [Outline.draft_append]
      exact h.consume_lane row
    | flowBreak =>
      obtain ⟨l, rest, row, hn, rfl⟩ := List.forall₂_cons_left_iff.1 readFirst
      obtain rfl := List.forall₂_nil_left_iff.1 hn
      refine ih readSecond ?_ later
      rw [Outline.draft_append]
      exact h.consume_break row
    | step s =>
      rw [flowFrom, ← List.append_assoc]
      refine ih readSecond ?_ later
      cases s with
      | leaf leaf =>
        obtain ⟨l, rest, row, hn, rfl⟩ := List.forall₂_cons_left_iff.1 readFirst
        obtain rfl := List.forall₂_nil_left_iff.1 hn
        exact leaf.run_top defaultLane reg row h middle
      | gateway label arms => exact run_top_gateway defaultLane reg readFirst h middle

end Script

end Swimlane
