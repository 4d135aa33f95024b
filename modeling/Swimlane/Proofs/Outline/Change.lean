import Mathlib.Data.List.Induction
import Mathlib.Logic.Relation
import Mathlib.Tactic.ByContra
import Swimlane.Proofs.Outline.Operation

/-!
# What a line can do to a draft

Taking a line is a run of small changes. Changes that `Prepares` lists leave the elements alone:
gateways are closed one by one, a lane is entered, a warning, a break or a reference is recorded.
After them the line declares at most one element, in one of the three ways of `Declares`. Whatever
these changes preserve, every outline has.

## Main statements

* `Draft.consume_changes`: a line prepares the draft and then declares at most one element;
* `Draft.invariant_of_changes`: what each change preserves, a run of changes preserves;
* `Outline.draft_invariant`, `Outline.finished_invariant`: what the changes preserve holds of the
  draft of every list of lines, also after its gateways are closed.
-/

namespace Swimlane

open Relation (ReflTransGen)

/-- An element of the flow as a line declares it: a gateway has no branches yet, and a message is
labelled with its text. -/
def ElementKind.IsNew (label : String) : ElementKind → Prop
  | .gateway branches => branches = []
  | .message _ text => text = label
  | .dataObject _ | .note _ => False
  | _ => True

theorem ElementKind.IsNew.isFlowNode {label : String} {kind : ElementKind} (h : kind.IsNew label) :
    kind.isFlowNode = true := by
  cases kind <;> first | rfl | exact h.elim

/-- Whether warnings of a kind are given at the end only, when all lines are known. -/
def DiagnosticKind.isLate : DiagnosticKind → Bool
  | .unmatchedMessage | .unresolvedForwardReference | .unresolvedDataAssociation => true
  | _ => false

namespace Statement

variable {l : Line}

theorem kind_of_ofLine_lane {name : String} (h : ofLine l = .lane name) : l.kind = .lane := by
  unfold ofLine ofPayload ofBranch ofData ofConnection at h
  grind

theorem kind_of_ofLine_flowBreak (h : ofLine l = .flowBreak) : l.kind = .connectionBreak := by
  unfold ofLine ofPayload ofBranch ofData ofConnection at h
  grind

theorem kind_of_ofLine_branch {sign : Sign} {label : Option String} {text : String}
    (h : ofLine l = .branch sign label text) : l.kind = .branch sign := by
  unfold ofLine ofPayload ofBranch ofData ofConnection at h
  grind

theorem kind_of_ofLine_node {kind : ElementKind} {label : String}
    (h : ofLine l = .node kind label) :
    l.kind.declaresFlowNode = true ∧ kind.IsNew label := by
  unfold ofLine ofPayload ofBranch ofData ofConnection at h
  grind [Sigil.declaresFlowNode, ElementKind.IsNew]

theorem ofLine_eq_comment : ofLine l = .comment ↔ l.kind = .comment := by
  unfold ofLine ofPayload ofBranch ofData ofConnection
  grind

theorem ofLine_eq_flowBreak : ofLine l = .flowBreak ↔ l.kind = .connectionBreak := by
  unfold ofLine ofPayload ofBranch ofData ofConnection
  grind

theorem ofLine_eq_lane : (∃ name, ofLine l = .lane name) ↔ l.kind = .lane ∧ l.text ≠ "" := by
  constructor
  · rintro ⟨name, h⟩
    unfold ofLine ofPayload ofBranch ofData ofConnection at h
    grind
  · rintro ⟨kind, text⟩
    exact ⟨l.text, by simp [ofLine, kind, text, ofPayload]⟩

theorem ofLine_eq_process :
    (∃ name, ofLine l = .process name) ↔ l.kind = .processName ∧ l.text ≠ "" := by
  constructor
  · rintro ⟨name, h⟩
    unfold ofLine ofPayload ofBranch ofData ofConnection at h
    grind
  · rintro ⟨kind, text⟩
    exact ⟨l.text, by simp [ofLine, kind, text, ofPayload]⟩

theorem kind_of_ofLine_connect {label source : Option String} {direction : ArrowDirection}
    {target : String} (h : ofLine l = .connect label source direction target) :
    l.kind = .connection := by
  unfold ofLine ofPayload ofBranch ofData ofConnection at h
  grind

/-- Lines that may end in an arrow are no notes and no data objects. -/
theorem not_acceptsArrow_of_aside
    (h : (∃ name associated, ofLine l = .data name associated) ∨ ∃ text, ofLine l = .note text) :
    l.kind.acceptsArrow = false := by
  unfold ofLine ofPayload ofBranch ofData ofConnection at h
  grind [Sigil.acceptsArrow]

end Statement

/-- A line of the flow leaves a gateway open only if it stands below it, in a branch. -/
theorem OpenGateway.closedBy_eq_false {kind : Sigil} {depth : Nat} {g : OpenGateway}
    (hk : kind.declaresFlowNode = true) (h : closedBy kind depth g = false) :
    g.depth < depth ∧ g.body ≠ none := by
  have open' : g.depth < depth ∧ g.body.isSome = true := by
    cases kind <;> simp_all [closedBy, Sigil.declaresFlowNode]
  exact ⟨open'.1, by simpa [Option.isSome_iff_ne_none] using open'.2⟩

namespace Draft

/-- What each change preserves, a run of changes preserves. -/
theorem invariant_of_changes {changes : Draft → Draft → Prop} {P : Draft → Prop}
    (step : ∀ d d', changes d d' → P d → P d') {d d' : Draft} (h : ReflTransGen changes d d')
    (hd : P d) : P d' := by
  induction h with
  | refl => exact hd
  | tail _ last ih => exact step _ _ last ih

/-- A draft knows its lane while a gateway is open. -/
def Anchored (d : Draft) : Prop := d.gateways ≠ [] → d.current ≠ none

/-! ## Closing gateways one by one -/

/-- The innermost gateway is closed. It hands its exit to the branch around it, and the outermost
one logs it. -/
inductive Closes : Draft → Draft → Prop
  | inner {d : Draft} {g parent : OpenGateway} {outer : List OpenGateway}
      (h : d.gateways = g :: parent :: outer) :
      Closes d { d with gateways := parent.setTail g.exit :: outer }
  | last {d : Draft} {g : OpenGateway} (h : d.gateways = [g]) :
      Closes d { d with gateways := [], events := d.events ++ [.gatewayClosed g.id g.exit] }

theorem closeGateways_closes (d : Draft) (closes : OpenGateway → Bool) :
    ReflTransGen Closes d (d.closeGateways closes) := by
  unfold closeGateways
  split
  · exact .refl
  · next g outer h =>
    -- The induction follows the stack outwards; each round closes one gateway.
    induction outer generalizing d g with
    | nil =>
      by_cases hc : closes g = true
      · simpa [OpenGateway.unwind, hc] using ReflTransGen.single (Closes.last h)
      · simpa [OpenGateway.unwind, hc, ← h] using ReflTransGen.refl
    | cons parent outer ih =>
      by_cases hc : closes g = true
      · have step := Closes.inner h
        have rest := ih { d with gateways := parent.setTail g.exit :: outer } _ rfl
        simpa [OpenGateway.unwind, hc] using ReflTransGen.head step rest
      · simpa [OpenGateway.unwind, hc, ← h] using ReflTransGen.refl

theorem not_closes_of_closeGateways (d : Draft) (closes : OpenGateway → Bool) {g : OpenGateway}
    {outer : List OpenGateway} (h : (d.closeGateways closes).gateways = g :: outer) :
    closes g = false := by
  unfold closeGateways at h
  split at h
  · next hd => simp [hd] at h
  · next top rest hd =>
    clear hd
    simp only at h
    induction rest generalizing top with
    | nil =>
      unfold OpenGateway.unwind at h
      split at h
      · simp at h
      · next hc =>
        obtain ⟨rfl, -⟩ := List.cons.inj h
        simpa using hc
    | cons parent rest ih =>
      unfold OpenGateway.unwind at h
      split at h
      · exact ih _ h
      · next hc =>
        obtain ⟨rfl, -⟩ := List.cons.inj h
        simpa using hc

theorem closeGateways_eq_nil (d : Draft) {closes : OpenGateway → Bool}
    (h : ∀ g, closes g = true) : (d.closeGateways closes).gateways = [] := by
  cases hg : (d.closeGateways closes).gateways with
  | nil => rfl
  | cons g outer => simpa [h] using not_closes_of_closeGateways d closes hg

/-! ## The changes -/

/-- A change that declares no element. It gives no warning about a repeated label, and none that has
to wait for the end. -/
inductive Prepares (l : Line) : Draft → Draft → Prop
  | warned (d : Draft) (f : Finding) (hf : f.kind.isLate = false ∧ f.kind ≠ .duplicateLabel) :
      Prepares l d (d.warn l f)
  | named (d : Draft) (name : String) : Prepares l d { d with processName := some name }
  | closed {d d' : Draft} (h : Closes d d') : Prepares l d d'
  | entered {d : Draft} (name : String) (h : d.gateways = []) : Prepares l d (d.openLane name)
  | broken {d : Draft} (h : d.gateways = []) : Prepares l d (d.log .flowBreak)
  | connected {d : Draft} {lane : LaneHeader} {near : Endpoint} (direction : ArrowDirection)
      (target : String) (label : Option String) (hl : d.current = some lane)
      (hn : (∃ text, near = .named text) ∨ ∃ e, d.lastFlowNode? = some e ∧ near = .element e.id) :
      Prepares l d (d.addReference
        { kind := .messageFlow, source := (direction.ends near (.named target)).1
          target := (direction.ends near (.named target)).2, label, lane := lane.id
          line := l.number, span := l.span })

/-- A change that declares an element: one of the flow, the task of a branch, or one beside the
flow. -/
inductive Declares (l : Line) : Draft → Draft → Prop
  | node {d : Draft} {lane : LaneHeader} {label : String} {kind : ElementKind}
      (hl : d.current = some lane) (hk : kind.IsNew label)
      (hg : ∀ g outer, d.gateways = g :: outer → g.depth < l.depth ∧ g.body ≠ none) :
      Declares l d (d.addNode lane l label kind)
  | branch {d : Draft} {lane : LaneHeader} {g : OpenGateway} {outer : List OpenGateway}
      (sign : Sign) (label : Option String) (text : String) (hl : d.current = some lane)
      (hg : d.gateways = g :: outer) (hd : g.depth ≤ l.depth)
      (hs : Statement.ofLine l = .branch sign label text) :
      Declares l d (d.addBranch lane l g outer sign label text)
  | aside {d : Draft} {lane : LaneHeader} {kind : ElementKind} (label : String)
      (hl : d.current = some lane)
      (hk : (∃ associated, kind = .dataObject associated) ∨
        kind = .note (d.lastSubject?.map (·.id))) :
      Declares l d (d.declare lane (d.newElement lane l label kind))

theorem Closes.anchored {d d' : Draft} (h : Closes d d') (hd : d.Anchored) : d'.Anchored := by
  cases h with
  | inner hg => exact fun _ => hd (by simp [hg])
  | last hg => exact fun h => absurd rfl h

theorem Closes.elements {d d' : Draft} (h : Closes d d') : d'.elements = d.elements := by
  cases h <;> rfl

theorem laneNamed_name (d : Draft) (name : String) : (d.laneNamed name).name = name := by
  unfold laneNamed
  cases hf : d.lanes.find? (·.name = name) with
  | none => rfl
  | some lane => simpa using List.find?_some hf

theorem openLane_elements (d : Draft) (name : String) :
    (d.openLane name).elements = d.elements := by
  unfold openLane
  split <;> rfl

theorem openLane_current (d : Draft) (name : String) :
    (d.openLane name).current = some (d.laneNamed name) := by
  unfold openLane
  split
  · next h => simp [laneNamed, h]
  · rfl

theorem openLane_gateways (d : Draft) (name : String) :
    (d.openLane name).gateways = d.gateways := by
  unfold openLane
  split <;> rfl

theorem openLane_events (d : Draft) (name : String) : (d.openLane name).events = d.events := by
  unfold openLane
  split <;> rfl

theorem openLane_waiting (d : Draft) (name : String) :
    (d.openLane name).waiting = d.waiting := by
  unfold openLane
  split <;> rfl

theorem openLane_diagnostics (d : Draft) (name : String) :
    (d.openLane name).diagnostics = d.diagnostics := by
  unfold openLane
  split <;> rfl

theorem openLane_references (d : Draft) (name : String) :
    (d.openLane name).references = d.references := by
  unfold openLane
  split <;> rfl

theorem enterLane_current (d : Draft) (defaultLane : String) :
    (d.enterLane defaultLane).current = some (d.lane defaultLane) := by
  unfold enterLane lane
  split
  · next h =>
    obtain ⟨lane, hl⟩ := Option.isSome_iff_exists.1 h
    simp [hl]
  · next h =>
    have hn : d.current = none := by simpa using h
    simp [openLane_current, hn]

theorem enterLane_gateways (d : Draft) (defaultLane : String) :
    (d.enterLane defaultLane).gateways = d.gateways := by
  unfold enterLane
  split
  · rfl
  · exact openLane_gateways d defaultLane

theorem enterLane_elements (d : Draft) (defaultLane : String) :
    (d.enterLane defaultLane).elements = d.elements := by
  unfold enterLane
  split
  · rfl
  · exact openLane_elements d defaultLane

theorem enterLane_events (d : Draft) (defaultLane : String) :
    (d.enterLane defaultLane).events = d.events := by
  unfold enterLane
  split
  · rfl
  · exact openLane_events d defaultLane

theorem enterLane_prepares {d : Draft} (l : Line) (hd : d.Anchored) (defaultLane : String) :
    ReflTransGen (Prepares l) d (d.enterLane defaultLane) := by
  unfold enterLane
  split
  · exact .refl
  · next h =>
    have closed : d.gateways = [] := by
      by_contra hg
      exact hd hg (by simpa using h)
    exact .single (.entered defaultLane closed)

/-! ## A line -/

/-- A branch is added to the innermost gateway, or declared as a task. -/
theorem performBranch_changes {d : Draft} (defaultLane : String) {l : Line} (hd : d.Anchored)
    {sign : Sign} {label : Option String} {text : String}
    (stated : Statement.ofLine l = .branch sign label text)
    (below : ∀ g outer, d.gateways = g :: outer → g.depth ≤ l.depth) :
    ∃ d₁, ReflTransGen (Prepares l) d d₁ ∧
      Declares l d₁ (d.performBranch defaultLane l sign label text) := by
  cases hg : d.gateways with
  | nil =>
    let w := d.warn l (.orphanBranch text)
    have enter := enterLane_prepares (d := w) l hd defaultLane
    refine ⟨_, .head (.warned d (.orphanBranch text) ⟨rfl, nofun⟩) enter, ?_⟩
    simp only [performBranch, hg]
    refine .node (enterLane_current w defaultLane) trivial fun g outer h => ?_
    rw [enterLane_gateways] at h
    simp [w, warn, hg] at h
  | cons g outer =>
    let w := if l.depth = g.depth then d.warn l (.branchDepth text) else d
    have hw : w.gateways = g :: outer := by
      simp only [w]
      split
      · exact hg
      · exact hg
    have anchored : w.Anchored := by
      simp only [w]
      split
      · exact hd
      · exact hd
    have first : ReflTransGen (Prepares l) d w := by
      simp only [w]
      split
      · exact .single (.warned d _ ⟨rfl, nofun⟩)
      · exact .refl
    refine ⟨_, first.trans (enterLane_prepares l anchored defaultLane), ?_⟩
    simp only [performBranch, hg]
    exact .branch sign label text (enterLane_current w defaultLane)
      (by rw [enterLane_gateways, hw]) (below g outer hg) stated

/-- A connection is recorded, or a warning. -/
theorem performConnection_changes {d : Draft} (defaultLane : String) {l : Line} (hd : d.Anchored)
    (label source : Option String) (direction : ArrowDirection) (target : String) :
    ReflTransGen (Prepares l) d
      (d.performConnection defaultLane l label source direction target) := by
  unfold performConnection
  cases hn : (source.map Endpoint.named).or (d.lastFlowNode?.map fun e => .element e.id) with
  | none => exact .single (.warned d _ ⟨rfl, nofun⟩)
  | some near =>
    have ends : (∃ text, near = .named text) ∨
        ∃ e, (d.enterLane defaultLane).lastFlowNode? = some e ∧ near = .element e.id := by
      simp only [lastFlowNode?, enterLane_elements]
      cases source with
      | some text => exact .inl ⟨text, by simpa using hn.symm⟩
      | none =>
        obtain ⟨e, he, rfl⟩ := Option.map_eq_some_iff.1 (by simpa using hn)
        exact .inr ⟨e, he, rfl⟩
    exact (enterLane_prepares l hd defaultLane).tail
      (.connected direction target label (enterLane_current d defaultLane) ends)

/-- What a statement does to a draft whose gateways have been closed for its line. -/
theorem perform_changes {d : Draft} (defaultLane : String) {l : Line} (hd : d.Anchored)
    (hclosed : ∀ g outer, d.gateways = g :: outer →
      OpenGateway.closedBy l.kind l.depth g = false) :
    ∃ d₁, ReflTransGen (Prepares l) d d₁ ∧
      (d.perform defaultLane l (.ofLine l) = d₁ ∨
        Declares l d₁ (d.perform defaultLane l (.ofLine l))) := by
  have enter := enterLane_prepares l hd defaultLane
  have current := enterLane_current d defaultLane
  cases hs : Statement.ofLine l with
  | comment => exact ⟨d, .refl, .inl rfl⟩
  | flowBreak =>
    have hk := Statement.kind_of_ofLine_flowBreak hs
    have closed : d.gateways = [] := by
      cases hg : d.gateways with
      | nil => rfl
      | cons g outer => simpa [hk, OpenGateway.closedBy] using hclosed g outer hg
    exact ⟨_, .single (.broken closed), .inl rfl⟩
  | empty => exact ⟨_, .single (.warned d (.emptyPayload l.kind) ⟨rfl, nofun⟩), .inl rfl⟩
  | process name =>
    cases hp : d.processName with
    | some existing =>
      exact ⟨_, .single (.warned d (.redefinedProcess existing name) ⟨rfl, nofun⟩),
        .inl (by simp only [perform, hp])⟩
    | none => exact ⟨_, .single (.named d name), .inl (by simp only [perform, hp])⟩
  | lane name =>
    have hk := Statement.kind_of_ofLine_lane hs
    have closed : d.gateways = [] := by
      cases hg : d.gateways with
      | nil => rfl
      | cons g outer => simpa [hk, OpenGateway.closedBy] using hclosed g outer hg
    exact ⟨_, .single (.entered name closed), .inl rfl⟩
  | node kind label =>
    obtain ⟨hk, hnew⟩ := Statement.kind_of_ofLine_node hs
    refine ⟨_, enter, .inr (.node current hnew fun g outer hg => ?_)⟩
    rw [enterLane_gateways] at hg
    exact OpenGateway.closedBy_eq_false hk (hclosed g outer hg)
  | branch sign label text =>
    have hk := Statement.kind_of_ofLine_branch hs
    obtain ⟨d₁, prepares, declares⟩ := performBranch_changes defaultLane hd hs
      fun g outer hg => by simpa [hk, OpenGateway.closedBy] using hclosed g outer hg
    exact ⟨d₁, prepares, .inr declares⟩
  | data name associated =>
    exact ⟨_, enter, .inr (.aside name current (.inl ⟨associated, rfl⟩))⟩
  | note text => exact ⟨_, enter, .inr (.aside text current (.inr rfl))⟩
  | connect label source direction target =>
    exact ⟨_, performConnection_changes defaultLane hd label source direction target, .inl rfl⟩
  | badConnection => exact ⟨_, .single (.warned d (.connectionForm l.text) ⟨rfl, nofun⟩), .inl rfl⟩

/-- A line prepares the draft and then declares at most one element. -/
theorem consume_changes {d : Draft} (defaultLane : String) (l : Line) (hd : d.Anchored) :
    ∃ d₁, ReflTransGen (Prepares l) d d₁ ∧
      (d.consume defaultLane l = d₁ ∨ Declares l d₁ (d.consume defaultLane l)) := by
  have closes := closeGateways_closes d (OpenGateway.closedBy l.kind l.depth)
  have anchored := invariant_of_changes (fun _ _ h => h.anchored) closes hd
  obtain ⟨d₁, prepares, declares⟩ := perform_changes defaultLane anchored
    fun g outer hg => not_closes_of_closeGateways d _ hg
  have closed := closes.lift (p := Prepares l) id fun _ _ => .closed
  exact ⟨d₁, closed.trans prepares, declares⟩

theorem Prepares.anchored {l : Line} {d d' : Draft} (h : Prepares l d d') (hd : d.Anchored) :
    d'.Anchored := by
  cases h with
  | warned | named | broken | connected => exact hd
  | closed h => exact h.anchored hd
  | entered name hg => exact fun _ => by simp [openLane_current]

theorem Declares.anchored {l : Line} {d d' : Draft} (h : Declares l d d') : d'.Anchored := by
  cases h with
  | node hl => exact fun _ => by simp [hl]
  | branch _ _ _ hl => exact fun _ => by simp [hl]
  | aside _ hl => exact fun _ => by simp [declare, hl]

theorem anchored_consume {d : Draft} (defaultLane : String) (l : Line) (hd : d.Anchored) :
    (d.consume defaultLane l).Anchored := by
  obtain ⟨d₁, prepares, same | declares⟩ := consume_changes defaultLane l hd
  · exact same ▸ invariant_of_changes (fun _ _ h => h.anchored) prepares hd
  · exact declares.anchored

/-! ## Whole runs -/

/-- The draft behind further lines. -/
def run (defaultLane : String) (d : Draft) (ls : List Line) : Draft :=
  ls.foldl (consume defaultLane) d

theorem run_cons (defaultLane : String) (d : Draft) (l : Line) (ls : List Line) :
    d.run defaultLane (l :: ls) = (d.consume defaultLane l).run defaultLane ls := rfl

theorem run_append (defaultLane : String) (d : Draft) (ls ls' : List Line) :
    d.run defaultLane (ls ++ ls') = (d.run defaultLane ls).run defaultLane ls' :=
  List.foldl_append

theorem anchored_run (defaultLane : String) {d : Draft} (hd : d.Anchored) (ls : List Line) :
    (d.run defaultLane ls).Anchored := by
  induction ls generalizing d with
  | nil => exact hd
  | cons l ls ih => exact ih (anchored_consume defaultLane l hd)

/-- What the changes of further lines preserve holds of the draft behind them. -/
theorem run_invariant {P : Draft → Prop} (defaultLane : String) {d : Draft} (hd : d.Anchored)
    (ls : List Line) (start : P d)
    (prepares : ∀ l ∈ ls, ∀ d d', Prepares l d d' → P d → P d')
    (declares : ∀ l ∈ ls, ∀ d d', Declares l d d' → P d → P d') : P (d.run defaultLane ls) := by
  induction ls generalizing d with
  | nil => exact start
  | cons l ls ih =>
    have consumed : P (d.consume defaultLane l) := by
      obtain ⟨d₁, changes, last⟩ := consume_changes defaultLane l hd
      have middle : P d₁ := invariant_of_changes (prepares l (by simp)) changes start
      rcases last with same | declared
      · exact same ▸ middle
      · exact declares l (by simp) d₁ _ declared middle
    exact ih (anchored_consume defaultLane l hd) consumed (fun l hl => prepares l (by simp [hl]))
      fun l hl => declares l (by simp [hl])

end Draft

namespace Outline

open Draft

/-- The draft of lines with its gateways closed. -/
def finished (defaultLane : String) (lines : List Line) : Draft :=
  (draft defaultLane lines).closeGateways fun _ => true

theorem eq_ofDraft_of_ofText {options : ReadOptions} {text : String} {o : Outline}
    (h : ofText options text = .ok o) :
    o = ofDraft (scan options.maxDepth text).warnings
      (draft options.defaultLane (scan options.maxDepth text).lines) := by
  unfold ofText at h
  cases hf : (scan options.maxDepth text).failure with
  | some failure => simp [hf] at h
  | none =>
    simp only [hf, Except.ok.injEq] at h
    exact h.symm

/-- An outline shows the finished draft of the lines of its text. -/
theorem ofText_eq_ok {options : ReadOptions} {text : String} {o : Outline}
    (h : ofText options text = .ok o) :
    let d := finished options.defaultLane (scan options.maxDepth text).lines
    o.document = d.document ∧ o.events = d.events ∧ o.references = d.references :=
  eq_ofDraft_of_ofText h ▸ ⟨rfl, rfl, rfl⟩

section

variable {P : Draft → Prop} {lines : List Line}

theorem anchored_draft (defaultLane : String) (lines : List Line) :
    (draft defaultLane lines).Anchored :=
  anchored_run defaultLane (fun h => absurd rfl h) lines

theorem draft_append_run (defaultLane : String) (ls ls' : List Line) :
    draft defaultLane (ls ++ ls') = (draft defaultLane ls).run defaultLane ls' :=
  List.foldl_append

theorem draft_append (defaultLane : String) (ls : List Line) (l : Line) :
    draft defaultLane (ls ++ [l]) = (draft defaultLane ls).consume defaultLane l := by
  simp [draft]

/-- What the changes of each line preserve holds of the draft. A declaring change is the last one of
its line, so it gives the draft of the lines up to it. -/
theorem draft_invariant_along (defaultLane : String) (init : P {})
    (prepares : ∀ l ∈ lines, ∀ d d', Prepares l d d' → P d → P d')
    (declares : ∀ ls l, ls ++ [l] <+: lines → ∀ d, Declares l d (draft defaultLane (ls ++ [l])) →
      P d → P (draft defaultLane (ls ++ [l]))) :
    P (draft defaultLane lines) := by
  induction lines using List.reverseRecOn with
  | nil => exact init
  | append_singleton ls l ih =>
    have before := ih (fun l hl => prepares l (by simp [hl]))
      fun ls' l' h => declares ls' l' (h.trans (List.prefix_append ls [l]))
    obtain ⟨d₁, changes, last⟩ :=
      consume_changes defaultLane l (anchored_draft defaultLane ls)
    rw [← draft_append] at last
    have middle : P d₁ := invariant_of_changes (prepares l (by simp)) changes before
    obtain same | declared := last
    · exact same ▸ middle
    · exact declares ls l (List.prefix_refl _) d₁ declared middle

/-- What the changes of each line preserve holds of the draft. -/
theorem draft_invariant (defaultLane : String) (init : P {})
    (prepares : ∀ l ∈ lines, ∀ d d', Prepares l d d' → P d → P d')
    (declares : ∀ l ∈ lines, ∀ d d', Declares l d d' → P d → P d') :
    P (draft defaultLane lines) :=
  draft_invariant_along defaultLane init prepares fun _ l h d declared =>
    declares l (h.subset (by simp)) d _ declared

/-- What closing preserves holds after all gateways are closed. -/
theorem finished_invariant (defaultLane : String)
    (closes : ∀ d d', Closes d d' → P d → P d') (h : P (draft defaultLane lines)) :
    P (finished defaultLane lines) :=
  invariant_of_changes closes (closeGateways_closes (draft defaultLane lines) fun _ => true) h

end

end Outline

end Swimlane
