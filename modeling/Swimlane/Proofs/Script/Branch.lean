import Swimlane.Proofs.Document
import Swimlane.Proofs.Flow.Thread
import Swimlane.Proofs.Outline.Closing
import Swimlane.Proofs.Script.Reading

/-!
# Scripts inside branches

The lines of a statement inside a branch, taken one after the other, have the effect that the tree
of the statement tells: they draw its links, leave the threads alone, and the branch goes on at its
exit. The exit is visible only once the gateways from the depth of the statement on are closed,
which the next line at this depth will do.

Links are drawn over the document `D` that comes out in the end, so that positions have their ids.

## Main definitions

* `Draft.idAt`, `Script.Link.edge`: the id at a position, and the edge of a link;
* `Draft.sequence`, `Draft.threads`: what the log of a draft draws, and where it leads;
* `Draft.InBranch`: a draft whose next line stands in a branch;
* `Draft.Adds`: what lines in a branch do.

## Main statements

* `Step.run_rows`, `run_armsRows`, `run_bodyRows`: statements, branches and bodies do what their
  trees tell.
-/

namespace Swimlane

open List (Forall₂)

/-- The edge of a link, between the elements at its positions. -/
def Script.Link.edge (id : Nat → String) (link : Script.Link) : Edge :=
  { kind := .sequenceFlow, source := id link.source, target := id link.target, label := link.label }

namespace Draft

/-! ## Logs over a document -/

/-- The id of the element at a position. -/
def idAt (d : Draft) (n : Nat) : String := ((d.elements.map (·.id))[n]?).getD ""

theorem idAt_of_precedes {d D : Draft} (later : d.Precedes D) {n : Nat} {id : String}
    (h : (d.elements.map (·.id))[n]? = some id) : D.idAt n = id := by
  obtain ⟨more, hm⟩ := later.map_elements fun _ _ grows => grows.id
  rw [idAt, ← hm, List.getElem?_append_left (List.getElem?_eq_some_iff.1 h).1, h, Option.getD_some]

/-- The sequence flow that the log of a draft draws over the document of another. -/
def sequence (D d : Draft) : List Edge :=
  (Threads.run D.document {} d.events).filter (·.kind = .sequenceFlow)

/-- The threads behind the log of a draft over the document of another. -/
def threads (D d : Draft) : Threads := Threads.after D.document {} d.events

/-- Where the threads are behind an event at the end of a log. Messages that are paired behind it
change nothing. -/
theorem threads_of_events {D d d' : Draft} {ev : Event} {messages : List Event}
    (h : d'.events = d.events ++ ev :: messages)
    (hm : ∀ ev ∈ messages, ∃ sender receiver label, ev = .messagePaired sender receiver label) :
    D.threads d' = ((D.threads d).step D.document ev).1 := by
  simp only [threads, h, Threads.after_append]
  exact Threads.after_of_messages hm

/-- What an event at the end of a log draws. -/
theorem sequence_of_events {D d d' : Draft} {ev : Event} {messages : List Event}
    (h : d'.events = d.events ++ ev :: messages)
    (hm : ∀ ev ∈ messages, ∃ sender receiver label, ev = .messagePaired sender receiver label) :
    D.sequence d' = D.sequence d ++
      ((D.threads d).step D.document ev).2.toList.filter (·.kind = .sequenceFlow) := by
  have apart (t : Threads) :
      (Threads.run D.document t messages).filter (·.kind = .sequenceFlow) = [] := by
    refine List.filter_eq_nil_iff.2 fun edge hedge => ?_
    simp [Threads.kind_of_messages hm edge hedge]
  simp only [sequence, h, Threads.run_append, Threads.run, List.filter_append, apart,
    List.append_nil]
  rfl

/-- Growing does not change the edge that leads to an element. -/
theorem edgeTo?_grows {e e' : Element} (h : e.Grows e') (source : Option String) :
    Threads.edgeTo? source e' = Threads.edgeTo? source e := by
  have isStart : e'.kind = .startEvent ↔ e.kind = .startEvent := h.kind_eq_iff (by simp)
  simp only [Threads.edgeTo?, isStart, h.id]

theorem sequence_edgeTo? (source : Option String) (e : Element) :
    (Threads.edgeTo? source e).toList.filter (·.kind = .sequenceFlow) =
      (Threads.edgeTo? source e).toList := by
  refine List.filter_eq_self.2 fun edge hedge => ?_
  obtain ⟨s, -, rfl⟩ := Threads.edgeTo?_eq_some (Option.mem_toList.1 hedge)
  rfl

/-! ## Lines -/

theorem anchored_of_current {d : Draft} {lane : LaneHeader} (h : d.current = some lane) :
    d.Anchored := fun _ => by simp [h]

/-- In a branch a statement continues the innermost gateway that is left open. -/
theorem consume_statement (defaultLane : String) {d : Draft} {l : Line} {kind : ElementKind}
    {label : String} (state : Statement.ofLine l = .node kind label) {g : OpenGateway}
    {outer : List OpenGateway} (stack : (d.close l.depth).gateways = g :: outer)
    (depth : g.depth < l.depth) (body : g.body ≠ none) {lane : LaneHeader}
    (hl : d.current = some lane) :
    d.consume defaultLane l =
      addNode { d with gateways := g :: outer } lane l label kind := by
  have flow := (Statement.kind_of_ofLine_node state).1
  rw [consume, closeGateways_statement flow stack depth body, close_eq_of_cons stack, state]
  simp [perform, enterLane, Draft.lane, hl]

/-- A branch one deeper than the gateway is added to it. -/
theorem consume_branch (defaultLane : String) {d : Draft} {l : Line} {sign : Sign}
    {label : Option String} {task : String}
    (state : Statement.ofLine l = .branch sign label task) {g : OpenGateway}
    {outer : List OpenGateway} (stack : (d.close (l.depth + 1)).gateways = g :: outer)
    (depth : l.depth = g.depth + 1) {lane : LaneHeader} (hl : d.current = some lane) :
    d.consume defaultLane l =
      addBranch { d with gateways := g :: outer } lane l g outer sign label task := by
  rw [consume, Statement.kind_of_ofLine_branch state, closeGateways_branch,
    close_eq_of_cons stack, state]
  simp [perform, performBranch, enterLane, Draft.lane, hl, depth]

/-! ## Inside a branch -/

/-- The next line at a depth stands in a branch of the gateway `g`, behind the position `before`. -/
structure InBranch (D d : Draft) (depth : Nat) (lane : LaneHeader) (g : OpenGateway)
    (outer : List OpenGateway) (before : Option Nat) : Prop where
  current : d.current = some lane
  stack : (d.close depth).gateways = g :: outer
  below : g.depth < depth
  tail : g.body.map (·.tail) = some (before.map D.idAt)

/-- The next lines one deeper are branches of the gateway `g`, which stands at a position. -/
structure AtGateway (D d : Draft) (depth : Nat) (lane : LaneHeader) (g : OpenGateway)
    (outer : List OpenGateway) (position : Nat) : Prop where
  current : d.current = some lane
  stack : (d.close (depth + 2)).gateways = g :: outer
  depth : g.depth = depth
  id : g.id = D.idAt position

/-- Some elements are declared inside a branch, and their links are drawn. -/
structure Adds (D d d' : Draft) (size : Nat) (links : List Script.Link) : Prop where
  current : d'.current = d.current
  length : d'.elements.length = d.elements.length + size
  threads : D.threads d' = D.threads d
  sequence : D.sequence d' = D.sequence d ++ links.map (·.edge D.idAt)

section

variable {D d d' d'' : Draft} {depth m n : Nat} {lane : LaneHeader} {g : OpenGateway}
  {outer : List OpenGateway} {before : Option Nat} {links links' : List Script.Link}

theorem Adds.refl (D d : Draft) : D.Adds d d 0 [] where
  current := rfl
  length := rfl
  threads := rfl
  sequence := by simp

theorem Adds.trans (h : D.Adds d d' m links) (h' : D.Adds d' d'' n links') :
    D.Adds d d'' (m + n) (links ++ links') where
  current := h'.current.trans h.current
  length := by rw [h'.length, h.length, Nat.add_assoc]
  threads := h'.threads.trans h.threads
  sequence := by rw [h'.sequence, h.sequence, List.map_append, List.append_assoc]

theorem InBranch.body_ne_none (h : D.InBranch d depth lane g outer before) : g.body ≠ none := by
  intro bodiless
  simpa [bodiless] using h.tail

/-- A branch goes on where it stood. -/
theorem InBranch.setTail_eq (h : D.InBranch d depth lane g outer before) :
    g.setTail (before.map D.idAt) = g := by
  obtain ⟨b, hb, ht⟩ := Option.map_eq_some_iff.1 h.tail
  obtain ⟨id, slot, depth, branches, body, continuation⟩ := g
  cases hb
  rw [← ht]
  rfl

/-- Behind a statement the branch goes on at another position. -/
theorem InBranch.advance (h : D.InBranch d depth lane g outer before)
    (current : d'.current = d.current) {exit : Option Nat}
    (stack : (d'.close depth).gateways = g.setTail (exit.map D.idAt) :: outer) :
    D.InBranch d' depth lane (g.setTail (exit.map D.idAt)) outer exit where
  current := current.trans h.current
  stack := stack
  below := h.below
  tail := by
    obtain ⟨b, hb, -⟩ := Option.map_eq_some_iff.1 h.tail
    simp [hb]

/-- The id that a new element of the flow gets. -/
theorem idAt_addNode {l : Line} {label : String} {kind : ElementKind}
    (later : (d.addNode lane l label kind).Precedes D) :
    D.idAt d.elements.length = (d.newElement lane l label kind).id :=
  idAt_of_precedes later (by simp)

/-- The id that the task of a new branch gets. -/
theorem idAt_addBranch {l : Line} {sign : Sign} {label : Option String} {task : String}
    (later : (d.addBranch lane l g outer sign label task).Precedes D) :
    D.idAt d.elements.length = (d.newElement lane l task .task).id := by
  refine idAt_of_precedes later ?_
  rw [addBranch_elements, map_modify_addBranch fun _ _ grows => grows.id]
  simp

/-- A declared element is found in the document that comes out in the end. -/
theorem findLast?_addNode (reg : D.Registered) {l : Line} {label : String} {kind : ElementKind}
    (later : (d.addNode lane l label kind).Precedes D) :
    ∃ e, D.document.findLast? (d.newElement lane l label kind).id = some e ∧
      (d.newElement lane l label kind).Grows e := by
  obtain ⟨e, he, grows⟩ := later.mem (e := d.newElement lane l label kind) (by simp)
  exact ⟨e, (findLast?_eq_some reg).2 ⟨he, grows.id⟩, grows⟩

/-- An element that is declared in a branch follows the tail of the branch. -/
theorem InBranch.adds_addNode (reg : D.Registered) (h : D.InBranch d depth lane g outer before)
    {l : Line} {label : String} {kind : ElementKind}
    (later : (addNode { d with gateways := g :: outer } lane l label kind).Precedes D)
    (drawn : (Threads.edgeTo? (before.map D.idAt) (d.newElement lane l label kind)).toList =
      links.map (·.edge D.idAt)) :
    D.Adds d (addNode { d with gateways := g :: outer } lane l label kind) 1 links := by
  let e := d.newElement lane l label kind
  have messages (ev : Event) (hev : ev ∈ pairing d.waiting l e) := messages_pairing hev
  obtain ⟨b, hb, ht⟩ := Option.map_eq_some_iff.1 h.tail
  have event : flowEvent (g :: outer) e = .branchStep (before.map D.idAt) e.id := by
    obtain ⟨id, slot, depth, branches, body, continuation⟩ := g
    cases hb
    simp [flowEvent, ht]
  have events : (addNode { d with gateways := g :: outer } lane l label kind).events =
      d.events ++ .branchStep (before.map D.idAt) e.id :: pairing d.waiting l e := by
    rw [← event]
    exact addNode_events ..
  obtain ⟨e', he', grows⟩ := findLast?_addNode reg later
  have found : D.document.findLast? e.id = some e' := he'
  exact
    { current := addNode_current ..
      length := by simp
      threads := threads_of_events events messages
      sequence := by
        rw [sequence_of_events events messages, ← drawn]
        simp only [Threads.step, found, Option.bind_some, edgeTo?_grows grows, sequence_edgeTo?]
        rfl }

end

end Draft

namespace Script

open Draft

/-! ## Rows -/

variable {D d : Draft} {depth n : Nat} {lane : LaneHeader} {g : OpenGateway}
  {outer : List OpenGateway} {before : Option Nat} {l : Line}

/-- The edge to an element is the link to its position. -/
theorem edgeTo?_linkFrom {e : Element} (hk : e.kind ≠ .startEvent) (id : e.id = D.idAt n) :
    (Threads.edgeTo? (before.map D.idAt) e).toList =
      (linkFrom before n).map (·.edge D.idAt) := by
  cases before <;> simp [Threads.edgeTo?, hk, linkFrom, Link.edge, id]

theorem Leaf.edgeTo?_links {leaf : Leaf} {e : Element} (hk : e.kind = leaf.kind)
    (id : e.id = D.idAt n) :
    (Threads.edgeTo? (before.map D.idAt) e).toList =
      (leaf.links before n).map (·.edge D.idAt) := by
  cases leaf with
  | start label => simp [Threads.edgeTo?, hk, Leaf.kind, Leaf.links]
  | _ => exact edgeTo?_linkFrom (by simp [hk, Leaf.kind]) id

/-- Where a branch goes on behind a leaf. -/
theorem Leaf.exit_eq {leaf : Leaf} {e : Element} (hk : e.kind = leaf.kind)
    (id : e.id = D.idAt n) :
    (if e.kind = .endEvent then none else some e.id) = (leaf.exit n).map D.idAt := by
  cases leaf <;> simp [hk, id, Leaf.kind, Leaf.exit]

/-- A leaf in a branch. -/
theorem Leaf.consume_row {leaf : Leaf} (defaultLane : String) (reg : D.Registered)
    (read : Row.ReadAs ⟨depth, .leaf leaf⟩ l) (h : D.InBranch d depth lane g outer before)
    (later : (d.consume defaultLane l).Precedes D) :
    D.Adds d (d.consume defaultLane l) 1 (leaf.links before d.elements.length) ∧
      ((d.consume defaultLane l).close depth).gateways =
        g.setTail ((leaf.exit d.elements.length).map D.idAt) :: outer := by
  obtain ⟨-, rfl, -, state⟩ := read
  rw [consume_statement defaultLane state h.stack h.below h.body_ne_none h.current] at later ⊢
  have id := (idAt_addNode later).symm
  refine ⟨h.adds_addNode reg later (Leaf.edgeTo?_links rfl id), ?_⟩
  have stack : (addNode { d with gateways := g :: outer } lane l leaf.label leaf.kind).gateways =
      g.setTail ((leaf.exit d.elements.length).map D.idAt) :: outer := by
    rw [addNode_gateways, openedBy_eq_nil, ← Leaf.exit_eq rfl id]
    · rfl
    · cases leaf <;> simp [newElement, Leaf.kind]
  rw [close_of_lt stack h.below, stack]

/-- A gateway in a branch. It is open from then on. -/
theorem consume_gateway_row (defaultLane : String) (reg : D.Registered) {label : String}
    (read : Row.ReadAs ⟨depth, .gateway label⟩ l) (h : D.InBranch d depth lane g outer before)
    (later : (d.consume defaultLane l).Precedes D) :
    D.Adds d (d.consume defaultLane l) 1 (linkFrom before d.elements.length) ∧
      (d.consume defaultLane l).gateways =
        { id := D.idAt d.elements.length, slot := d.elements.length, depth } ::
          g.setTail (some (D.idAt d.elements.length)) :: outer := by
  obtain ⟨-, rfl, -, state⟩ := read
  rw [consume_statement defaultLane state h.stack h.below h.body_ne_none h.current] at later ⊢
  have id := (idAt_addNode later).symm
  refine ⟨h.adds_addNode reg later (edgeTo?_linkFrom (by simp [newElement]) id), ?_⟩
  rw [addNode_gateways, idAt_addNode later]
  rfl

/-- A branch of a gateway. -/
theorem consume_branch_row (defaultLane : String) {sign : Sign} {label : Option String}
    {task : String} (read : Row.ReadAs ⟨depth + 1, .branch sign label task⟩ l) {position : Nat}
    (h : D.AtGateway d depth lane g outer position)
    (later : (d.consume defaultLane l).Precedes D) :
    D.Adds d (d.consume defaultLane l) 1
        [⟨position, d.elements.length, some (label.getD sign.defaultLabel)⟩] ∧
      D.InBranch (d.consume defaultLane l) (depth + 2) lane
        (g.startBody sign (D.idAt d.elements.length)) outer (some d.elements.length) := by
  obtain ⟨-, row, -, state⟩ := read
  have deep : l.depth = g.depth + 1 := by rw [row, h.depth]
  have stack : (d.close (l.depth + 1)).gateways = g :: outer := by rw [row]; exact h.stack
  rw [consume_branch defaultLane state stack deep h.current] at later ⊢
  have id := idAt_addBranch later
  have events := addBranch_events { d with gateways := g :: outer } lane l g outer sign label task
  refine ⟨⟨addBranch_current .., by simp, threads_of_events events (by simp), ?_⟩, ?_⟩
  · rw [sequence_of_events events (by simp), ← id, h.id]
    rfl
  · have open' :=
      addBranch_gateways { d with gateways := g :: outer } lane l g outer sign label task
    have below : (g.startBody sign (D.idAt d.elements.length)).depth < depth + 2 := by
      simp [h.depth]
    rw [← id] at open'
    refine ⟨(addBranch_current ..).trans h.current, ?_, below, rfl⟩
    rw [close_of_lt open' below]
    exact open'

/-- The continuation of a gateway, once the branch that is read is over. -/
theorem finishBody_continuation (g : OpenGateway) :
    g.finishBody.continuation =
      g.continuation.or ((g.body.filter (·.sign = .positive)).map (·.tail)) := by
  obtain ⟨id, slot, depth, branches, body, continuation⟩ := g
  cases continuation with
  | some c => simp [OpenGateway.finishBody]
  | none =>
    match body with
    | none => rfl
    | some ⟨.positive, tail⟩ => rfl
    | some ⟨.negative, tail⟩ => rfl

/-- A branch decides where the flow goes on, if it is positive and none before it is. -/
theorem getD_continuation (g : OpenGateway) (sign : Sign) (task : String)
    (tail other : Option String) :
    ((g.startBody sign task).setTail tail).finishBody.continuation.getD other =
      g.finishBody.continuation.getD (if sign = .positive then tail else other) := by
  rw [finishBody_continuation]
  cases hc : g.finishBody.continuation with
  | some c => simp [hc]
  | none => cases sign <;> simp [hc, Option.filter]

/-- A gateway goes on as its tree tells. -/
theorem exit_gateway (label : String) {arms : List Arm} {n : Nat} (id : g.id = D.idAt n)
    (count : g.branches = arms.length)
    (exit : g.finishBody.continuation.join = (armsExit (n + 1) arms).map D.idAt) :
    g.exit = ((Step.gateway label arms).exit n).map D.idAt := by
  cases arms with
  | nil => simp [OpenGateway.exit, count, id, Step.exit]
  | cons arm arms => simp [OpenGateway.exit, count, exit, Step.exit]

theorem exists_append_of_forall₂ {rows rows' : List Row} {ls : List Line}
    (h : Forall₂ Row.ReadAs (rows ++ rows') ls) :
    ∃ first second, ls = first ++ second ∧ Forall₂ Row.ReadAs rows first ∧
      Forall₂ Row.ReadAs rows' second := by
  induction rows generalizing ls with
  | nil => exact ⟨[], ls, rfl, .nil, h⟩
  | cons row rows ih =>
    obtain ⟨l, ls, read, rest, rfl⟩ := List.forall₂_cons_left_iff.1 h
    obtain ⟨first, second, rfl, hf, hs⟩ := ih rest
    exact ⟨l :: first, second, rfl, .cons read hf, hs⟩

/-! ## Statements, branches and bodies -/

-- The induction is on the tree. It is carried by what the draft shows once the gateways from the
-- depth of the statement on are closed, whatever the stack around it.
mutual

/-- The rows of a statement in a branch do what the statement tells. -/
theorem Step.run_rows (defaultLane : String) (reg : D.Registered) (s : Step) {depth : Nat}
    {d : Draft} {ls : List Line} (read : Forall₂ Row.ReadAs (s.rows depth) ls) {lane : LaneHeader}
    {g : OpenGateway} {outer : List OpenGateway} {before : Option Nat}
    (h : D.InBranch d depth lane g outer before) {n : Nat} (length : d.elements.length = n)
    (later : (d.run defaultLane ls).Precedes D) :
    D.Adds d (d.run defaultLane ls) s.size (s.links before n) ∧
      D.InBranch (d.run defaultLane ls) depth lane (g.setTail ((s.exit n).map D.idAt)) outer
        (s.exit n) := by
  subst length
  match s with
  | .leaf leaf =>
    obtain ⟨l, ls, row, rest, rfl⟩ := List.forall₂_cons_left_iff.1 read
    obtain rfl := List.forall₂_nil_left_iff.1 rest
    obtain ⟨adds, stack⟩ := leaf.consume_row defaultLane reg row h later
    exact ⟨adds, h.advance adds.current stack⟩
  | .gateway label arms =>
    obtain ⟨l, ls, row, rest, rfl⟩ := List.forall₂_cons_left_iff.1 read
    rw [run_cons] at later ⊢
    have anchored := anchored_consume defaultLane l (anchored_of_current h.current)
    have first := (precedes_run defaultLane anchored ls).trans later
    obtain ⟨adds, stack⟩ := consume_gateway_row defaultLane reg row h first
    have at' : D.AtGateway (d.consume defaultLane l) depth lane _ _ d.elements.length :=
      ⟨adds.current.trans h.current, by rw [close_of_lt stack (by simp)]; exact stack, rfl, rfl⟩
    obtain ⟨added, g', inner, count, exit⟩ :=
      run_armsRows defaultLane reg arms rest at' adds.length later
    refine ⟨adds.trans added, h.advance (added.current.trans adds.current) ?_⟩
    -- The gateway is still open. Closing it hands its exit to the branch around it.
    have close := close_inner inner.stack (Nat.le_of_eq inner.depth.symm) h.below
    rw [close_close (Nat.le_add_right depth 2)] at close
    have leave := exit_gateway label inner.id (by simpa using count) exit
    rw [close, leave, OpenGateway.setTail_setTail]

/-- The rows of branches add the branches to their gateway. The continuation of the gateway is the
one it had, or else the exit of the first positive branch. -/
theorem run_armsRows (defaultLane : String) (reg : D.Registered) (arms : List Arm)
    {depth : Nat} {d : Draft} {ls : List Line}
    (read : Forall₂ Row.ReadAs (armsRows depth arms) ls) {lane : LaneHeader} {g : OpenGateway}
    {outer : List OpenGateway} {position : Nat}
    (h : D.AtGateway d depth lane g outer position) {n : Nat} (length : d.elements.length = n)
    (later : (d.run defaultLane ls).Precedes D) :
    D.Adds d (d.run defaultLane ls) (armsSize arms) (armsLinks position n arms) ∧
      ∃ g', D.AtGateway (d.run defaultLane ls) depth lane g' outer position ∧
        g'.branches = g.branches + arms.length ∧
        g'.finishBody.continuation.join =
          g.finishBody.continuation.getD ((armsExit n arms).map D.idAt) := by
  match arms with
  | [] =>
    obtain rfl := List.forall₂_nil_left_iff.1 read
    refine ⟨.refl D d, g, h, rfl, ?_⟩
    cases g.finishBody.continuation <;> rfl
  | .mk sign label task body :: arms =>
    subst length
    obtain ⟨l, rest, row, restRead, rfl⟩ := List.forall₂_cons_left_iff.1 read
    obtain ⟨first, second, rfl, readFirst, readSecond⟩ := exists_append_of_forall₂ restRead
    rw [run_cons, run_append] at later ⊢
    have anchored := anchored_consume defaultLane l (anchored_of_current h.current)
    have later₂ :=
      (precedes_run defaultLane (anchored_run defaultLane anchored first) second).trans later
    have later₁ := (precedes_run defaultLane anchored first).trans later₂
    obtain ⟨opened, inBranch⟩ := consume_branch_row defaultLane row h later₁
    obtain ⟨adds, inner⟩ :=
      run_bodyRows defaultLane reg body readFirst inBranch opened.length later₂
    have back : D.AtGateway ((d.consume defaultLane l).run defaultLane first) depth lane _ outer
        position := ⟨inner.current, inner.stack, by simp [h.depth], by simp [h.id]⟩
    obtain ⟨added, g', at', count, exit⟩ := run_armsRows defaultLane reg arms readSecond back
      (by rw [adds.length, opened.length]) later
    have branches : g'.branches = g.branches + (arms.length + 1) := by
      rw [count, OpenGateway.setTail_branches, OpenGateway.startBody_branches]
      omega
    refine ⟨by simpa [armsSize, armsLinks, Nat.add_assoc] using (opened.trans adds).trans added,
      g', at', branches, ?_⟩
    -- The body has set the tail of its branch; it counts if the branch is the first positive one.
    rw [exit, getD_continuation]
    cases sign <;> rfl

/-- The rows of a body do what its statements tell, one after the other. -/
theorem run_bodyRows (defaultLane : String) (reg : D.Registered) (steps : List Step)
    {depth : Nat} {d : Draft} {ls : List Line}
    (read : Forall₂ Row.ReadAs (bodyRows depth steps) ls) {lane : LaneHeader} {g : OpenGateway}
    {outer : List OpenGateway} {before : Option Nat}
    (h : D.InBranch d depth lane g outer before) {n : Nat} (length : d.elements.length = n)
    (later : (d.run defaultLane ls).Precedes D) :
    D.Adds d (d.run defaultLane ls) (bodySize steps) (bodyLinks before n steps) ∧
      D.InBranch (d.run defaultLane ls) depth lane
        (g.setTail ((bodyExit before n steps).map D.idAt)) outer (bodyExit before n steps) := by
  match steps with
  | [] =>
    obtain rfl := List.forall₂_nil_left_iff.1 read
    refine ⟨.refl D d, ?_⟩
    rw [bodyExit, h.setTail_eq]
    exact h
  | s :: steps =>
    obtain ⟨first, second, rfl, readFirst, readSecond⟩ := exists_append_of_forall₂ read
    rw [run_append] at later ⊢
    have anchored := anchored_run defaultLane (anchored_of_current h.current) first
    obtain ⟨adds, inner⟩ := s.run_rows defaultLane reg readFirst h length
      ((precedes_run defaultLane anchored second).trans later)
    obtain ⟨added, last⟩ := run_bodyRows defaultLane reg steps readSecond inner
      (by rw [adds.length, length]) later
    rw [OpenGateway.setTail_setTail] at last
    exact ⟨adds.trans added, last⟩

end

end Script

end Swimlane
