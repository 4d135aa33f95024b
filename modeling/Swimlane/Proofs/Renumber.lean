import Mathlib.Order.Monotone.Basic
import Swimlane.Proofs.Document

/-!
# Line numbers and spans are only carried along

Where a line stands in its text goes into positions and nowhere else. So lines that are given other
numbers, and whose spans are forgotten, lead to the same draft, the same outline and the same graph,
with other positions written on them. Only the diagnostics of a graph are put in the order of their
lines; that order stays as long as the numbers keep theirs.

## Main definitions

* `Line.renumber`, `Draft.renumber`, `Outline.renumber`, `ProcessGraph.renumber`: what is left when
  lines get other numbers and spans are forgotten.

## Main statements

* `Draft.consume_renumber`: a line with another position does the same;
* `Outline.ofDraft_renumber`, `ProcessGraph.ofOutline_renumber`: so does a whole outline;
* `ProcessGraph.ofText_renumber`: texts of which the same is read have the same graph.
-/

namespace Swimlane

/-! ## Positions -/

def Line.renumber (f : Nat → Nat) (l : Line) : Line :=
  { l with number := f l.number, span := default }

def Diagnostic.renumber (f : Nat → Nat) (x : Diagnostic) : Diagnostic :=
  { x with line := f x.line, span := default }

def Element.renumber (f : Nat → Nat) (e : Element) : Element :=
  { e with line := f e.line, span := default }

def Reference.renumber (f : Nat → Nat) (r : Reference) : Reference :=
  { r with line := f r.line, span := default }

def WaitingMessage.renumber (f : Nat → Nat) (m : WaitingMessage) : WaitingMessage :=
  { m with line := f m.line, span := default }

def Draft.renumber (f : Nat → Nat) (d : Draft) : Draft :=
  { d with
    elements := d.elements.map (·.renumber f)
    waiting := d.waiting.map (·.renumber f)
    references := d.references.map (·.renumber f)
    diagnostics := d.diagnostics.map (·.renumber f) }

def Lane.renumber (f : Nat → Nat) (lane : Lane) : Lane :=
  { lane with elements := lane.elements.map (·.renumber f) }

def Document.renumber (f : Nat → Nat) (doc : Document) : Document :=
  { doc with lanes := doc.lanes.map (·.renumber f) }

def Outline.renumber (f : Nat → Nat) (o : Outline) : Outline :=
  { document := o.document.renumber f
    events := o.events
    references := o.references.map (·.renumber f)
    unmatched := o.unmatched.map (·.renumber f)
    diagnostics := o.diagnostics.map (·.renumber f) }

def Outcome.renumber (f : Nat → Nat) : Outcome → Outcome
  | .edge e => .edge e
  | .looseData element associated => .looseData (element.renumber f) associated
  | .looseReference reference missing => .looseReference (reference.renumber f) missing

/-- A graph with other line numbers and without spans. -/
def ProcessGraph.renumber (f : Nat → Nat) (g : ProcessGraph) : ProcessGraph :=
  { document := g.document.renumber f
    connections := g.connections
    diagnostics := g.diagnostics.map (·.renumber f) }

variable (f : Nat → Nat)

@[simp] theorem Finding.toDiagnostic_renumber (x : Finding) (l : Line) :
    (x.toDiagnostic l.number l.span).renumber f =
      x.toDiagnostic (l.renumber f).number (l.renumber f).span := rfl

@[simp] theorem WaitingMessage.warning_renumber (m : WaitingMessage) :
    (m.renumber f).warning = m.warning.renumber f := rfl

@[simp] theorem Statement.ofLine_renumber (l : Line) : ofLine (l.renumber f) = ofLine l := rfl

/-! ## Drafts -/

namespace Draft

variable (d : Draft) (l : Line) (lane : LaneHeader) (e : Element)

@[simp] theorem warn_renumber (x : Finding) :
    (d.renumber f).warn (l.renumber f) x = (d.warn l x).renumber f := by
  simp [warn, renumber]

@[simp] theorem log_renumber (ev : Event) : (d.renumber f).log ev = (d.log ev).renumber f := rfl

@[simp] theorem lane_renumber (defaultLane : String) :
    (d.renumber f).lane defaultLane = d.lane defaultLane := rfl

@[simp] theorem openLane_renumber (name : String) :
    (d.renumber f).openLane name = (d.openLane name).renumber f := by
  have named : (d.renumber f).laneNamed name = d.laneNamed name := rfl
  unfold openLane
  rw [named]
  simp only [renumber]
  cases d.lanes.find? (·.name = name) <;> rfl

@[simp] theorem enterLane_renumber (defaultLane : String) :
    (d.renumber f).enterLane defaultLane = (d.enterLane defaultLane).renumber f := by
  unfold enterLane
  rw [openLane_renumber, apply_ite (renumber f)]
  rfl

@[simp] theorem newElement_renumber (label : String) (kind : ElementKind) :
    (d.renumber f).newElement lane (l.renumber f) label kind =
      (d.newElement lane l label kind).renumber f := by
  simp [newElement, renumber, Element.renumber, Line.renumber]

theorem getLast?_filter_renumber (p : Element → Bool) (h : ∀ e, p (e.renumber f) = p e)
    (es : List Element) :
    ((es.map (·.renumber f)).filter p).getLast? = ((es.filter p).getLast?).map (·.renumber f) := by
  have same : p ∘ (·.renumber f) = p := funext h
  rw [List.filter_map, same, List.getLast?_map]

/-- The last elements that lines refer to are the same ones. -/
theorem lastFlowNode?_renumber :
    (d.renumber f).lastFlowNode?.map (·.id) = d.lastFlowNode?.map (·.id) := by
  rw [lastFlowNode?, renumber, getLast?_filter_renumber f _ fun _ => rfl, Option.map_map]
  rfl

theorem lastSubject?_renumber :
    (d.renumber f).lastSubject?.map (·.id) = d.lastSubject?.map (·.id) := by
  rw [lastSubject?, renumber, getLast?_filter_renumber f _ fun _ => rfl, Option.map_map]
  rfl

@[simp] theorem declare_renumber :
    (d.renumber f).declare lane (e.renumber f) = (d.declare lane e).renumber f := by
  have warning : (d.renumber f).duplicateWarning lane (e.renumber f) =
      (d.duplicateWarning lane e).map (·.renumber f) := by
    unfold duplicateWarning
    rw [apply_ite (List.map _)]
    rfl
  simp only [declare, warning]
  simp [renumber, Element.renumber]

@[simp] theorem logFlow_renumber :
    (d.renumber f).logFlow (e.renumber f) = (d.logFlow e).renumber f := by
  have event : flowEvent d.gateways (e.renumber f) = flowEvent d.gateways e := by
    rcases d.gateways with _ | ⟨⟨_, _, _, _, _ | _, _⟩, _⟩ <;> rfl
  rw [logFlow_eq, logFlow_eq]
  simp only [renumber, event]
  rfl

@[simp] theorem track_renumber :
    (d.renumber f).track lane (l.renumber f) (e.renumber f) = (d.track lane l e).renumber f := by
  have arrow : arrowOf lane (l.renumber f) (e.renumber f) =
      (arrowOf lane l e).map (·.renumber f) := by
    simp only [arrowOf, List.map_map]
    rfl
  simp [track_eq, arrow, renumber]

/-- Of the waiting messages the first fitting one is taken out, wherever it stands. -/
theorem erase_of_find? {p : WaitingMessage → Bool} {ms : List WaitingMessage} {m : WaitingMessage}
    (h : ms.find? p = some m) : ms.erase m = ms.eraseP p := by
  induction ms with
  | nil => rfl
  | cons first rest ih =>
    by_cases fits : p first = true
    · have same : first = m := by simpa [fits] using h
      simp [same ▸ fits, same]
    · have found : rest.find? p = some m := by simpa [fits] using h
      have ne : first ≠ m := fun same => fits (same ▸ List.find?_some found)
      simp [fits, ne, ih found]

@[simp] theorem pair_renumber (m : WaitingMessage) :
    (d.renumber f).pair (m.renumber f) = (d.pair m).renumber f := by
  have found : (d.renumber f).waiting.find?
        (fun w => w.label = (m.renumber f).label && w.side != (m.renumber f).side) =
      (d.waiting.find? fun w => w.label = m.label && w.side != m.side).map (·.renumber f) := by
    rw [renumber, List.find?_map]
    rfl
  unfold pair
  cases h : d.waiting.find? fun w => w.label = m.label && w.side != m.side with
  | none =>
    rw [h] at found
    rw [found]
    simp [renumber]
  | some w =>
    rw [h] at found
    rw [found]
    simp only [Option.map_some, erase_of_find? found, erase_of_find? h]
    simp only [renumber, log, List.eraseP_map]
    rfl

@[simp] theorem start_renumber :
    (d.renumber f).start (l.renumber f) (e.renumber f) = (d.start l e).renumber f := by
  unfold start
  cases kind : e.kind with
  | message side text =>
    simp only [Element.renumber, kind]
    exact pair_renumber f d ⟨text, e.id, side, e.order, l.number, l.span⟩
  | gateway => simp [Element.renumber, kind, renumber, Line.renumber]
  | _ => simp [Element.renumber, kind]

@[simp] theorem addNode_renumber (label : String) (kind : ElementKind) :
    (d.renumber f).addNode lane (l.renumber f) label kind =
      (d.addNode lane l label kind).renumber f := by
  simp [addNode]

theorem map_modify_renumber (es : List Element) (slot : Nat) (branch : Branch) :
    (es.map (·.renumber f)).modify slot (·.addBranch branch) =
      (es.modify slot (·.addBranch branch)).map (·.renumber f) := by
  induction es generalizing slot with
  | nil => simp
  | cons e es ih =>
    cases slot with
    | zero => rfl
    | succ slot => simp [ih]

@[simp] theorem addBranch_renumber (g : OpenGateway) (outer : List OpenGateway) (sign : Sign)
    (label : Option String) (text : String) :
    (d.renumber f).addBranch lane (l.renumber f) g outer sign label text =
      (d.addBranch lane l g outer sign label text).renumber f := by
  have task : ((d.newElement lane l text .task).renumber f).id =
      (d.newElement lane l text .task).id := rfl
  simp only [addBranch, newElement_renumber, declare_renumber, track_renumber, task]
  simp [renumber, map_modify_renumber, log]

@[simp] theorem closeGateways_renumber (closes : OpenGateway → Bool) :
    (d.renumber f).closeGateways closes = (d.closeGateways closes).renumber f := by
  have gateways : (d.renumber f).gateways = d.gateways := rfl
  unfold closeGateways
  rw [gateways]
  cases d.gateways <;> rfl

@[simp] theorem performBranch_renumber (defaultLane : String) (sign : Sign) (label : Option String)
    (text : String) :
    (d.renumber f).performBranch defaultLane (l.renumber f) sign label text =
      (d.performBranch defaultLane l sign label text).renumber f := by
  have gateways : (d.renumber f).gateways = d.gateways := rfl
  unfold performBranch
  rw [gateways]
  cases d.gateways with
  | nil => simp
  | cons g outer =>
    have warned : (if (l.renumber f).depth = g.depth
          then (d.renumber f).warn (l.renumber f) (.branchDepth text) else d.renumber f) =
        (if l.depth = g.depth then d.warn l (.branchDepth text) else d).renumber f := by
      rw [apply_ite (renumber f), warn_renumber]
      rfl
    simp only [warned, enterLane_renumber, lane_renumber, addBranch_renumber]

@[simp] theorem performConnection_renumber (defaultLane : String) (label source : Option String)
    (direction : ArrowDirection) (target : String) :
    (d.renumber f).performConnection defaultLane (l.renumber f) label source direction target =
      (d.performConnection defaultLane l label source direction target).renumber f := by
  have near : ((d.renumber f).lastFlowNode?.map fun e => Endpoint.element e.id) =
      d.lastFlowNode?.map fun e => Endpoint.element e.id := by
    simpa [Option.map_map, Function.comp_def] using
      congrArg (Option.map Endpoint.element) (lastFlowNode?_renumber f d)
  unfold performConnection
  rw [near]
  cases (source.map Endpoint.named).or (d.lastFlowNode?.map fun e => .element e.id) with
  | none =>
    simp only [warn_renumber]
    rfl
  | some near =>
    simp only [enterLane_renumber, lane_renumber]
    simp [renumber, addReference, Reference.renumber, Line.renumber]

theorem perform_renumber (defaultLane : String) (s : Statement) :
    (d.renumber f).perform defaultLane (l.renumber f) s =
      (d.perform defaultLane l s).renumber f := by
  cases s with
  | process name =>
    have known : (d.renumber f).processName = d.processName := rfl
    unfold perform
    simp only [known]
    cases d.processName with
    | none => rfl
    | some existing => exact warn_renumber f d l _
  | note text => simp [perform, lastSubject?_renumber]
  | empty => exact warn_renumber f d l _
  | badConnection => exact warn_renumber f d l _
  | _ => simp [perform]

/-- A line with another position does the same to a draft. -/
theorem consume_renumber (defaultLane : String) :
    (d.renumber f).consume defaultLane (l.renumber f) =
      (d.consume defaultLane l).renumber f := by
  have closes : OpenGateway.closedBy (l.renumber f).kind (l.renumber f).depth =
      OpenGateway.closedBy l.kind l.depth := rfl
  simp [consume, closes, perform_renumber]

theorem run_renumber (defaultLane : String) (ls : List Line) :
    (d.renumber f).run defaultLane (ls.map (·.renumber f)) =
      (d.run defaultLane ls).renumber f := by
  induction ls generalizing d with
  | nil => rfl
  | cons l ls ih => rw [List.map_cons, run_cons, run_cons, consume_renumber, ih]

theorem document_renumber : (d.renumber f).document = d.document.renumber f := by
  simp [document, renumber, Document.renumber, Lane.renumber, List.filter_map, Function.comp_def,
    Element.renumber]

end Draft

namespace Outline

theorem draft_renumber (defaultLane : String) (ls : List Line) :
    draft defaultLane (ls.map (·.renumber f)) = (draft defaultLane ls).renumber f :=
  Draft.run_renumber f {} defaultLane ls

/-- Ending a draft with other positions. -/
theorem ofDraft_renumber (warnings : List Diagnostic) (d : Draft) :
    ofDraft (warnings.map (·.renumber f)) (d.renumber f) = (ofDraft warnings d).renumber f := by
  simp only [ofDraft, Draft.closeGateways_renumber, Draft.document_renumber]
  simp [renumber, Draft.renumber]

end Outline

/-! ## Flow -/

namespace StableSort

variable {α β : Type}

theorem insert_map {le : β → β → Bool} {le' : α → α → Bool} {g : α → β}
    (h : ∀ a b, le (g a) (g b) = le' a b) (a : α) (as : List α) :
    insert le (g a) (as.map g) = (insert le' a as).map g := by
  induction as with
  | nil => rfl
  | cons b bs ih =>
    simp only [List.map_cons, insert, h, ih]
    split <;> rfl

/-- Sorting sees nothing but how the keys compare. -/
theorem byKey_map {key : β → Nat} {key' : α → Nat} {g : α → β}
    (h : ∀ a b, key (g a) ≤ key (g b) ↔ key' a ≤ key' b) (as : List α) :
    byKey key (as.map g) = (byKey key' as).map g := by
  unfold byKey
  induction as with
  | nil => rfl
  | cons a as ih =>
    simp only [List.map_cons, sort, ih]
    exact insert_map (fun a b => decide_eq_decide.2 (h a b)) a _

end StableSort

namespace Document

variable (doc : Document)

@[simp] theorem laneElements_renumber :
    (doc.renumber f).laneElements = doc.laneElements.map (·.renumber f) := by
  simp [laneElements, renumber, Lane.renumber, List.flatMap_map, List.map_flatMap]

@[simp] theorem elements_renumber :
    (doc.renumber f).elements = doc.elements.map (·.renumber f) := by
  rw [elements, laneElements_renumber]
  exact StableSort.byKey_map (fun _ _ => Iff.rfl) _

@[simp] theorem findLast?_renumber (id : String) :
    (doc.renumber f).findLast? id = (doc.findLast? id).map (·.renumber f) := by
  rw [findLast?, laneElements_renumber, ← List.map_reverse, List.find?_map]
  rfl

theorem qualified?_renumber (name : List Char) :
    (doc.renumber f).qualified? name = (doc.qualified? name).map (·.renumber f) := by
  unfold qualified?
  split
  · rfl
  · simp only [renumber, List.filter_map, List.flatMap_map]
    simp only [Lane.renumber, ← List.map_flatMap, List.find?_map]
    rfl

theorem unqualified?_renumber (name : List Char) (lane : String) :
    (doc.renumber f).unqualified? name lane = (doc.unqualified? name lane).map (·.renumber f) := by
  have target : isTarget name ∘ (·.renumber f) = isTarget name := rfl
  simp only [unqualified?, elements_renumber, List.filter_map, target, List.find?_map,
    List.head?_map, ← Option.map_or]
  rfl

/-- A text names the same element, whatever the positions are. -/
@[simp] theorem resolve?_renumber (text lane : String) :
    (doc.renumber f).resolve? text lane = doc.resolve? text lane := by
  simp only [resolve?, qualified?_renumber, unqualified?_renumber, ← Option.map_or, Option.map_map]
  rfl

@[simp] theorem endpoint_renumber (lane : String) (e : Endpoint) :
    (doc.renumber f).endpoint lane e = doc.endpoint lane e := by
  cases e with
  | named text => simp [endpoint]
  | element id =>
    simp only [endpoint, findLast?_renumber]
    cases doc.findLast? id <;> rfl

end Document

/-- Positions do not matter for the edge that an event draws. -/
theorem Threads.step_renumber (doc : Document) (t : Threads) (ev : Event) :
    t.step (doc.renumber f) ev = t.step doc ev := by
  have known (id : String) : ((doc.renumber f).findLast? id).map (·.lane) =
      (doc.findLast? id).map (·.lane) := by
    rw [Document.findLast?_renumber, Option.map_map]
    rfl
  have before (lane : String) : t.before? (doc.renumber f) lane = t.before? doc lane := by
    simp only [before?, known]
  cases ev with
  | declared id =>
    simp only [step, Document.findLast?_renumber, before]
    cases doc.findLast? id <;> rfl
  | branchStep after id =>
    simp only [step, Document.findLast?_renumber]
    cases doc.findLast? id <;> rfl
  | gatewayClosed gateway continuation =>
    have exit : continuation.bind (doc.renumber f).findLast? =
        (continuation.bind doc.findLast?).map (·.renumber f) := by
      cases continuation with
      | none => rfl
      | some id => exact Document.findLast?_renumber f doc id
    simp only [step, exit]
    rw [Document.findLast?_renumber]
    cases doc.findLast? gateway with
    | none => rfl
    | some g => cases continuation.bind doc.findLast? <;> rfl
  | branchOpened | messagePaired | flowBreak => rfl

theorem Threads.run_renumber (doc : Document) (t : Threads) (events : List Event) :
    run (doc.renumber f) t events = run doc t events := by
  induction events generalizing t with
  | nil => rfl
  | cons ev events ih => rw [run, run, step_renumber, ih]

namespace Outcome

variable (doc : Document)

theorem ofData?_renumber (e : Element) :
    ofData? (doc.renumber f) (e.renumber f) = (ofData? doc e).map (·.renumber f) := by
  have kind : (e.renumber f).kind = e.kind := rfl
  have lane : (e.renumber f).lane = e.lane := rfl
  simp only [ofData?, kind, lane, Document.resolve?_renumber]
  cases e.kind with
  | dataObject associated =>
    cases associated with
    | none => rfl
    | some text =>
      simp only
      cases doc.resolve? text e.lane <;> rfl
  | _ => rfl

theorem ofReference_renumber (r : Reference) :
    ofReference (doc.renumber f) (r.renumber f) = (ofReference doc r).renumber f := by
  simp only [ofReference, Document.endpoint_renumber]
  simp only [Reference.renumber]
  cases doc.endpoint r.lane r.source <;> cases doc.endpoint r.lane r.target <;> rfl

theorem distinct_renumber (seen : List (ConnectionKind × String × String)) (os : List Outcome) :
    distinct seen (os.map (·.renumber f)) = (distinct seen os).map (·.renumber f) := by
  induction os generalizing seen with
  | nil => rfl
  | cons o os ih =>
    cases o with
    | edge e =>
      have same : (edge e).renumber f = edge e := rfl
      simp only [List.map_cons, same, distinct, ih]
      split <;> rfl
    | looseData | looseReference => exact congrArg (_ :: ·) (ih seen)

theorem edge?_renumber (o : Outcome) : (o.renumber f).edge? = o.edge? := by cases o <;> rfl

theorem warning?_renumber (o : Outcome) :
    (o.renumber f).warning? = o.warning?.map (·.renumber f) := by cases o <;> rfl

end Outcome

theorem Flow.outcomes_renumber (doc : Document) (events : List Event) (refs : List Reference) :
    outcomes (doc.renumber f) events (refs.map (·.renumber f)) =
      (outcomes doc events refs).map (·.renumber f) := by
  have drawn : (Threads.run doc {} events).map Outcome.edge =
      ((Threads.run doc {} events).map Outcome.edge).map (·.renumber f) := by
    simp [Outcome.renumber]
  have data : (doc.elements.map (·.renumber f)).filterMap (Outcome.ofData? (doc.renumber f)) =
      (doc.elements.filterMap (Outcome.ofData? doc)).map (·.renumber f) := by
    simp only [List.filterMap_map, List.map_filterMap, Function.comp_def, Outcome.ofData?_renumber]
  have named : (refs.map (·.renumber f)).map (Outcome.ofReference (doc.renumber f)) =
      (refs.map (Outcome.ofReference doc)).map (·.renumber f) := by
    simp only [List.map_map, Function.comp_def, Outcome.ofReference_renumber]
  rw [outcomes, Threads.run_renumber, drawn, Document.elements_renumber, data, named,
    ← List.map_append, ← List.map_append, Outcome.distinct_renumber]
  rfl

/-- The graph of an outline with other positions. -/
theorem ProcessGraph.ofOutline_renumber {f : Nat → Nat} (hf : StrictMono f) (o : Outline) :
    ofOutline (o.renumber f) = (ofOutline o).renumber f := by
  have outcomes := Flow.outcomes_renumber f o.document o.events o.references
  have edges (os : List Outcome) : Flow.connections (os.map (·.renumber f)) =
      Flow.connections os := by
    simp only [Flow.connections, List.filterMap_map, Function.comp_def, Outcome.edge?_renumber]
  have warnings (os : List Outcome) : Flow.diagnostics (os.map (·.renumber f)) =
      (Flow.diagnostics os).map (·.renumber f) := by
    simp only [Flow.diagnostics, List.filterMap_map, List.map_filterMap, Function.comp_def,
      Outcome.warning?_renumber]
  simp only [ofOutline, renumber, Outline.renumber, outcomes, edges, warnings, ← List.map_append]
  congr 1
  refine StableSort.byKey_map (fun x y => ?_) _
  exact hf.le_iff_le

/-! ## Texts -/

section Piece

variable {f : Nat → Nat} {p q : Text.Piece} (number : f p.number = q.number)
  (text : Text.trim p.chars = Text.trim q.chars)

include number text

/-- Pieces with the same trimmed text hold the same line, but for its position. -/
theorem Line.ofPiece_renumber (depth : Nat) :
    (ofPiece p depth).renumber f = (ofPiece q depth).renumber id := by
  simp [ofPiece, renumber, number, text]

theorem Line.sigilWarning_renumber :
    (sigilWarning p).map (·.renumber f) = (sigilWarning q).map (·.renumber id) := by
  unfold sigilWarning
  rw [text]
  split
  · split
    · simp [Diagnostic.renumber, Finding.toDiagnostic, number]
    · rfl
  · rfl

end Piece

/-- Pieces with the same trimmed texts, under other numbers. -/
def Text.SameTexts (f : Nat → Nat) : List Piece → List Piece → Prop :=
  List.Forall₂ fun p q => f p.number = q.number ∧ trim p.chars = trim q.chars

section SameTexts

variable {f : Nat → Nat} {ps qs : List Text.Piece}

/-- Pieces with the same texts hold the same lines, but for their positions. -/
theorem Text.SameTexts.lines (h : SameTexts f ps qs) (depths : List Nat) :
    (List.zipWith Line.ofPiece ps depths).map (·.renumber f) =
      (List.zipWith Line.ofPiece qs depths).map (·.renumber id) := by
  induction h generalizing depths with
  | nil => rfl
  | @cons p q ps qs same _ ih =>
    obtain ⟨number, text⟩ := same
    cases depths with
    | nil => rfl
    | cons depth depths =>
      rw [List.zipWith_cons_cons, List.zipWith_cons_cons, List.map_cons, List.map_cons,
        Line.ofPiece_renumber number text, ih]

theorem Text.SameTexts.sigilWarnings (h : SameTexts f ps qs) :
    (ps.flatMap Line.sigilWarning).map (·.renumber f) =
      (qs.flatMap Line.sigilWarning).map (·.renumber id) := by
  induction h with
  | nil => rfl
  | @cons p q ps qs same _ ih =>
    obtain ⟨number, text⟩ := same
    simp only [List.flatMap_cons, List.map_append, Line.sigilWarning_renumber number text, ih]

end SameTexts

/-- Drafts that are the same but for positions lead to the same graph, but for positions. -/
theorem ProcessGraph.ofDraft_renumber {f : Nat → Nat} (hf : StrictMono f) {d d' : Draft}
    {warnings warnings' : List Diagnostic} (drafts : d.renumber f = d'.renumber id)
    (warned : warnings.map (·.renumber f) = warnings'.map (·.renumber id)) :
    (ofOutline (.ofDraft warnings d)).renumber f =
      (ofOutline (.ofDraft warnings' d')).renumber id := by
  rw [← ofOutline_renumber hf, ← ofOutline_renumber strictMono_id, ← Outline.ofDraft_renumber,
    ← Outline.ofDraft_renumber, drafts, warned]

/-- Texts of which the same is read, but for positions, have the same graph, but for positions. -/
theorem ProcessGraph.ofText_renumber {f : Nat → Nat} (hf : StrictMono f) {options : ReadOptions}
    {text text' : String} {g g' : ProcessGraph} (read : ofText options text = .ok g)
    (read' : ofText options text' = .ok g')
    (lines : (scan options.maxDepth text).lines.map (·.renumber f) =
      (scan options.maxDepth text').lines.map (·.renumber id))
    (warnings : (scan options.maxDepth text).warnings.map (·.renumber f) =
      (scan options.maxDepth text').warnings.map (·.renumber id)) :
    g.renumber f = g'.renumber id := by
  obtain ⟨o, outline, rfl⟩ := ofText_eq_ok read
  obtain ⟨o', outline', rfl⟩ := ofText_eq_ok read'
  rw [Outline.eq_ofDraft_of_ofText outline, Outline.eq_ofDraft_of_ofText outline']
  refine ofDraft_renumber hf ?_ warnings
  rw [← Outline.draft_renumber, ← Outline.draft_renumber, lines]

end Swimlane
