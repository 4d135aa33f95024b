import Swimlane.Proofs.Document
import Swimlane.Proofs.Outline.Attachment

/-!
# Branch contexts

The context of a stack of open gateways is the path of branches that are read, outermost first. What
the stack and the events pass on stands in the right context: the flow may go on at an element from
another context only by leaving branches that are the first positive ones of their gateways.

## Main definitions

* `OpenGateway.context`: the path of a stack;
* `Draft.IsFirstPositive`: a branch that is the first positive one of its gateway;
* `Reaches`: how far out one gets from an element through first positive branches;
* `Draft.Located`: elements on the stack and in the events stand in the right context.

## Main statements

* `Outline.located_invariant`: invariants of drafts that fit the contexts of the finished one.
-/

namespace Swimlane

/-- A path of branches: gateways, outermost first, with the numbers of their branches, counted from
one. -/
abbrev Context := List (String × Nat)

/-- The path of branches that are read. -/
def OpenGateway.context (gateways : List OpenGateway) : Context :=
  (gateways.map fun g => (g.id, g.branches)).reverse

@[simp] theorem OpenGateway.context_cons (g : OpenGateway) (outer : List OpenGateway) :
    context (g :: outer) = context outer ++ [(g.id, g.branches)] := by
  simp [context]

@[simp] theorem OpenGateway.context_follow (gateways : List OpenGateway) (e : Element) :
    context (Draft.follow gateways e) = context gateways := by
  cases gateways <;> simp [Draft.follow]

theorem OpenGateway.context_filter {gateways : List OpenGateway} {id : String}
    (h : ∀ g ∈ gateways, g.id ≠ id) : (context gateways).filter (·.1 ≠ id) = context gateways := by
  refine List.filter_eq_self.2 fun p hp => ?_
  obtain ⟨g, hg, rfl⟩ := List.mem_map.1 (List.mem_reverse.1 hp)
  simpa using h g hg

theorem Element.Grows.branches {e e' : Element} (h : e.Grows e') :
    ∃ more, e'.branches = e.branches ++ more := by
  have grows := h.kind
  unfold Element.branches
  generalize e.kind = kind, e'.kind = kind' at grows ⊢
  cases grows with
  | refl => exact ⟨[], by simp⟩
  | @gateway branches more => exact ⟨more, rfl⟩

namespace Draft

/-! ## First positive branches -/

/-- The branch of a number is the first positive one of a gateway. -/
def IsFirstPositive (d : Draft) (p : String × Nat) : Prop :=
  ∃ e ∈ d.elements, e.id = p.1 ∧ ∃ ended branch rest, e.branches = ended ++ branch :: rest ∧
    ended.length + 1 = p.2 ∧ branch.sign = .positive ∧ ∀ b ∈ ended, b.sign = .negative

theorem IsFirstPositive.mono {d d' : Draft} {p : String × Nat} (h : d.IsFirstPositive p)
    (later : d.Precedes d') : d'.IsFirstPositive p := by
  obtain ⟨e, he, id, ended, branch, rest, branches, number, positive, negative⟩ := h
  obtain ⟨e', he', grows⟩ := later.mem he
  obtain ⟨more, branches'⟩ := grows.branches
  exact ⟨e', he', grows.id.trans id, ended, branch, rest ++ more,
    by simp [branches', branches], number, positive, negative⟩

/-- A positive branch that is read before any other has ended is the first one. -/
theorem Stands.isFirstPositive {d : Draft} {g : OpenGateway} (h : d.Stands g) {t : Option String}
    (body : g.body = some ⟨.positive, t⟩) (pending : g.continuation = none) :
    d.IsFirstPositive (g.id, g.branches) := by
  obtain ⟨e, branches, slot, id, kind, shows', -⟩ := h
  obtain ⟨ended, last, rfl, sign, number, negative⟩ := shows'.eq_append_of_body body
  exact ⟨e, List.mem_of_getElem? slot, id, ended, last, [], Element.branches_eq kind, number, sign,
    negative.1 pending⟩

/-- The id is that of the task of a branch of the gateway with this number. -/
def IsBranchTask (d : Draft) (gateway : String) (number : Nat) (task : String) : Prop :=
  ∃ e ∈ d.elements, e.id = gateway ∧ ∃ branch, e.branches[number - 1]? = some branch ∧
    branch.task = task ∧ 0 < number

theorem IsBranchTask.mono {d d' : Draft} {gateway task : String} {number : Nat}
    (h : d.IsBranchTask gateway number task) (later : d.Precedes d') :
    d'.IsBranchTask gateway number task := by
  obtain ⟨e, he, id, branch, place, rest⟩ := h
  obtain ⟨e', he', grows⟩ := later.mem he
  obtain ⟨more, branches'⟩ := grows.branches
  refine ⟨e', he', grows.id.trans id, branch, ?_, rest⟩
  rw [branches', List.getElem?_append_left (List.getElem?_eq_some_iff.1 place).1, place]

/-- A branch that is added to a gateway is the last one. -/
theorem Stacked.isBranchTask {d : Draft} (hd : d.Stacked) {lane : LaneHeader} {l : Line}
    {g : OpenGateway} {outer : List OpenGateway} {sign : Sign} {label : Option String}
    {text : String} (hg : d.gateways = g :: outer) :
    (d.addBranch lane l g outer sign label text).IsBranchTask g.id (g.branches + 1)
      (d.newElement lane l text .task).id := by
  obtain ⟨e, branches, slot, id, kind, shows', -⟩ := hd.stands g (by simp [hg])
  let b := d.newBranch lane l sign label text
  have place : (d.addBranch lane l g outer sign label text).elements[g.slot]? =
      some (e.addBranch b) := by
    simp [getElem?_append_of_some slot, b]
  have kind' : (e.addBranch b).kind = .gateway (branches ++ [b]) := by
    simp [Element.addBranch, kind, ElementKind.addBranch]
  refine ⟨e.addBranch b, List.mem_of_getElem? place, id, b, ?_, rfl, Nat.succ_pos _⟩
  rw [Element.branches_eq kind', Nat.add_sub_cancel, ← shows'.count]
  exact List.getElem?_concat_length

end Draft

/-! ## Elements in their contexts -/

section

variable (D : Draft) (ctx : String → Context)

/-- From the element one gets to a context by leaving first positive branches only. -/
def Reaches (id : String) (c : Context) : Prop :=
  ∃ p, ctx id = c ++ p ∧ ∀ q ∈ p, D.IsFirstPositive q

variable {D ctx}

theorem reaches_of_eq {id : String} {c : Context} (h : ctx id = c) : Reaches D ctx id c :=
  ⟨[], by simpa using h, by simp⟩

/-- A first positive branch may be left. -/
theorem Reaches.leave {id : String} {c : Context} {p : String × Nat}
    (h : Reaches D ctx id (c ++ [p])) (hp : D.IsFirstPositive p) : Reaches D ctx id c := by
  obtain ⟨rest, eq, first⟩ := h
  refine ⟨p :: rest, by simpa using eq, fun q hq => ?_⟩
  obtain rfl | hq := List.mem_cons.1 hq
  · exact hp
  · exact first q hq

variable (D ctx)

namespace OpenGateway

/-- The gateways on a stack stand in the branches around them. What follows the branch that is read
gets to this branch, and what follows the gateway gets to the branch around it. -/
def Located : List OpenGateway → Prop
  | [] => True
  | g :: outer =>
    ctx g.id = context outer ∧
    (∀ b t, g.body = some b → b.tail = some t → Reaches D ctx t (context (g :: outer))) ∧
    (∀ t, g.continuation = some (some t) → Reaches D ctx t (context outer)) ∧
    Located outer

variable {D ctx} {g : OpenGateway} {outer : List OpenGateway}

theorem Located.setTail (h : Located D ctx (g :: outer)) {t : Option String}
    (ht : ∀ id, t = some id → Reaches D ctx id (context (g :: outer))) :
    Located D ctx (g.setTail t :: outer) := by
  obtain ⟨own, -, continuation, rest⟩ := h
  refine ⟨own, ?_, continuation, rest⟩
  intro b id body tail
  obtain ⟨b', -, rfl⟩ := Option.map_eq_some_iff.1 body
  simpa using ht id tail

/-- Where the flow goes on behind a gateway whose branch ends. -/
theorem Located.finishBody (h : Located D ctx (g :: outer))
    (first : ∀ t, g.body = some ⟨.positive, t⟩ → g.continuation = none →
      D.IsFirstPositive (g.id, g.branches))
    {t : String} (ht : g.finishBody.continuation = some (some t)) :
    Reaches D ctx t (context outer) := by
  obtain ⟨-, tail, continuation, -⟩ := h
  unfold OpenGateway.finishBody at ht
  split at ht
  · next tail' hb hc =>
    have read := tail _ t hb (by simpa using ht)
    rw [context_cons] at read
    exact read.leave (first _ hb hc)
  · exact continuation t ht

theorem Located.exit (h : Located D ctx (g :: outer))
    (first : ∀ t, g.body = some ⟨.positive, t⟩ → g.continuation = none →
      D.IsFirstPositive (g.id, g.branches))
    {t : String} (ht : g.exit = some t) : Reaches D ctx t (context outer) := by
  unfold OpenGateway.exit at ht
  split at ht
  · obtain rfl := Option.some.inj ht
    exact reaches_of_eq h.1
  · exact h.finishBody first (Option.join_eq_some_iff.1 ht)

end OpenGateway

/-- An event joins elements whose contexts fit. -/
def Event.Located : Event → Prop
  | .declared id => ctx id = []
  | .branchOpened gateway task _ =>
    ∃ k, D.IsBranchTask gateway k task ∧ ctx task = ctx gateway ++ [(gateway, k)]
  | .branchStep after id => ∀ t, after = some t → Reaches D ctx t (ctx id)
  | .gatewayClosed _ continuation => ∀ t, continuation = some t → Reaches D ctx t []
  | .messagePaired .. | .flowBreak => True

end

namespace Draft

/-- The stack and the events of a draft fit the contexts that elements have in a later one. -/
structure Located (d D : Draft) (ctx : String → Context) : Prop where
  gateways : OpenGateway.Located D ctx d.gateways
  events : ∀ ev ∈ d.events, ev.Located D ctx

variable {D : Draft} {ctx : String → Context} {d d' : Draft}

theorem located_empty : Located {} D ctx where
  gateways := trivial
  events := by simp

theorem Stacked.first_of_precedes (hs : d.Stacked) (later : d.Precedes D) {g : OpenGateway}
    (hg : g ∈ d.gateways) (t : Option String) (body : g.body = some ⟨.positive, t⟩)
    (pending : g.continuation = none) : D.IsFirstPositive (g.id, g.branches) :=
  ((hs.stands g hg).isFirstPositive body pending).mono later

theorem Closes.located (h : Closes d d') (hs : d.Stacked) (later : d.Precedes D)
    (hd : d.Located D ctx) : d'.Located D ctx := by
  have located := hd.gateways
  cases h with
  | @inner g parent outer hg =>
    rw [hg] at located
    refine ⟨located.2.2.2.setTail fun id exit => ?_, hd.events⟩
    exact located.exit (hs.first_of_precedes later (by simp [hg])) exit
  | @last g hg =>
    rw [hg] at located
    refine ⟨trivial, fun ev hev => ?_⟩
    obtain hev | hev := List.mem_append.1 hev
    · exact hd.events ev hev
    · obtain rfl := List.mem_singleton.1 hev
      exact fun id exit => located.exit (hs.first_of_precedes later (by simp [hg])) exit

theorem Prepares.located {l : Line} (h : Prepares l d d') (hs : d.Stacked) (later : d.Precedes D)
    (hd : d.Located D ctx) : d'.Located D ctx := by
  cases h with
  | warned | named | connected => exact { hd with }
  | closed h => exact h.located hs later hd
  | entered name =>
    refine ⟨by rw [openLane_gateways]; exact hd.gateways, ?_⟩
    unfold openLane
    split
    · exact hd.events
    · exact hd.events
  | broken =>
    refine ⟨hd.gateways, fun ev hev => ?_⟩
    obtain hev | hev := List.mem_append.1 hev
    · exact hd.events ev hev
    · exact List.mem_singleton.1 hev ▸ trivial

/-- A new id is not that of an open gateway. -/
theorem Stacked.id_ne_newElement (hs : d.Stacked) (hr : d.Registered) {g : OpenGateway}
    (hg : g ∈ d.gateways) (lane : LaneHeader) (l : Line) (label : String) (kind : ElementKind) :
    g.id ≠ (d.newElement lane l label kind).id := by
  obtain ⟨e, -, slot, id, -⟩ := hs.stands g hg
  rw [← id]
  exact (hr.newElement_id_ne lane l label kind (List.mem_of_getElem? slot)).symm

/-- An element of the flow stands in the context of the stack before it. -/
theorem context_addNode (hr : d.Registered) (hs : d.Stacked) (lane : LaneHeader) (l : Line)
    (label : String) (kind : ElementKind) :
    (OpenGateway.context (d.addNode lane l label kind).gateways).filter
        (·.1 ≠ (d.newElement lane l label kind).id) = OpenGateway.context d.gateways := by
  have old := OpenGateway.context_filter fun g hg =>
    hs.id_ne_newElement hr hg lane l label kind
  rw [addNode_gateways]
  unfold openedBy
  split
  · simpa using old
  · simpa using old

/-- The task of a branch stands in this branch. -/
theorem context_addBranch (hr : d.Registered) (hs : d.Stacked) (lane : LaneHeader) (l : Line)
    {g : OpenGateway} {outer : List OpenGateway} (sign : Sign) (label : Option String)
    (text : String) (hg : d.gateways = g :: outer) :
    (OpenGateway.context (d.addBranch lane l g outer sign label text).gateways).filter
        (·.1 ≠ (d.newElement lane l text .task).id) =
      OpenGateway.context outer ++ [(g.id, g.branches + 1)] := by
  have apart (o : OpenGateway) (ho : o ∈ d.gateways) :=
    hs.id_ne_newElement hr ho lane l text .task
  have apart' : ∀ o ∈ (d.addBranch lane l g outer sign label text).gateways,
      o.id ≠ (d.newElement lane l text .task).id := by
    intro o ho
    rw [addBranch_gateways] at ho
    obtain rfl | ho := List.mem_cons.1 ho
    · simpa using apart g (by simp [hg])
    · exact apart o (by simp [hg, ho])
  rw [OpenGateway.context_filter apart']
  simp

theorem Located.addNode {lane : LaneHeader} {l : Line} {label : String} {kind : ElementKind}
    (hg : ∀ g outer, d.gateways = g :: outer → g.body ≠ none)
    (own : ctx (d.newElement lane l label kind).id = OpenGateway.context d.gateways)
    (hd : d.Located D ctx) : (d.addNode lane l label kind).Located D ctx := by
  let e := d.newElement lane l label kind
  have followed : OpenGateway.Located D ctx (follow d.gateways e) := by
    have located := hd.gateways
    unfold follow
    cases hs : d.gateways with
    | nil => trivial
    | cons g outer =>
      rw [hs] at located
      refine located.setTail fun id tail => ?_
      obtain rfl := eq_of_tail tail
      exact reaches_of_eq (own.trans (by rw [hs]))
  refine ⟨?_, ?_⟩
  · rw [addNode_gateways]
    unfold openedBy
    split
    · exact ⟨by simpa using own, by simp, by simp, followed⟩
    · exact followed
  · intro ev hev
    rw [addNode_events, List.mem_append, List.mem_cons] at hev
    obtain hev | rfl | hev := hev
    · exact hd.events ev hev
    · have located := hd.gateways
      cases hs : d.gateways with
      | nil => exact own.trans (by rw [hs]; rfl)
      | cons g outer =>
        rw [hs] at located own
        obtain ⟨id, slot, depth, branches, body, continuation⟩ := g
        cases body with
        | none => exact absurd rfl (hg _ outer hs)
        | some b =>
          intro t tail
          rw [own]
          exact located.2.1 b t rfl tail
    · obtain ⟨sender, receiver, label, rfl⟩ := messages_pairing hev
      trivial

theorem Located.addBranch {lane : LaneHeader} {l : Line} {g : OpenGateway}
    {outer : List OpenGateway} {sign : Sign} {label : Option String} {text : String}
    (hg : d.gateways = g :: outer)
    (first : ∀ t, g.body = some ⟨.positive, t⟩ → g.continuation = none →
      D.IsFirstPositive (g.id, g.branches))
    (task : D.IsBranchTask g.id (g.branches + 1) (d.newElement lane l text .task).id)
    (own : ctx (d.newElement lane l text .task).id =
      OpenGateway.context outer ++ [(g.id, g.branches + 1)])
    (hd : d.Located D ctx) : (d.addBranch lane l g outer sign label text).Located D ctx := by
  have located := hd.gateways
  rw [hg] at located
  refine ⟨?_, ?_⟩
  · rw [addBranch_gateways]
    refine ⟨by simpa using located.1, ?_, fun t ht => located.finishBody first ht,
      located.2.2.2⟩
    intro b t body tail
    cases body
    obtain rfl := Option.some.inj tail
    exact reaches_of_eq (by simpa using own)
  · intro ev hev
    rw [addBranch_events, List.mem_append, List.mem_singleton] at hev
    obtain hev | rfl := hev
    · exact hd.events ev hev
    · exact ⟨g.branches + 1, task, by rw [own, located.1]⟩

/-- The element of a line has the context in which the line leaves the stack. -/
def Placed (d : Draft) (l : Line) (ctx : String → Context) : Prop :=
  ∀ e ∈ d.elements, e.line = l.number →
    ctx e.id = (OpenGateway.context d.gateways).filter (·.1 ≠ e.id)

theorem Placed.addNode {lane : LaneHeader} {l : Line} {label : String} {kind : ElementKind}
    (h : (d.addNode lane l label kind).Placed l ctx) (hr : d.Registered) (hs : d.Stacked) :
    ctx (d.newElement lane l label kind).id = OpenGateway.context d.gateways := by
  have own := h (d.newElement lane l label kind) (by simp) rfl
  rwa [context_addNode hr hs] at own

theorem Placed.addBranch {lane : LaneHeader} {l : Line} {g : OpenGateway}
    {outer : List OpenGateway} {sign : Sign} {label : Option String} {text : String}
    (h : (d.addBranch lane l g outer sign label text).Placed l ctx) (hr : d.Registered)
    (hs : d.Stacked) (hl : d.current = some lane) (hg : d.gateways = g :: outer) :
    ctx (d.newElement lane l text .task).id =
      OpenGateway.context outer ++ [(g.id, g.branches + 1)] := by
  have own := h _ (hs.newElement_mem_addBranch l sign label text hl hg) rfl
  rwa [context_addBranch hr hs lane l sign label text hg] at own

/-- A line keeps the contexts in order, if its element is placed. -/
theorem Declares.located {l : Line} (h : Declares l d d') (hr : d.Registered) (hs : d.Stacked)
    (later : d'.Precedes D) (placed : d'.Placed l ctx) (hd : d.Located D ctx) :
    d'.Located D ctx := by
  have earlier := h.precedes.trans later
  cases h with
  | @node lane label kind hl hk hg =>
    exact hd.addNode (fun g outer h => (hg g outer h).2) (placed.addNode hr hs)
  | @branch lane g outer sign label text hl hg =>
    exact hd.addBranch hg (hs.first_of_precedes earlier (by simp [hg]))
      ((hs.isBranchTask hg).mono later) (placed.addBranch hr hs hl hg)
  | aside => exact { hd with }

end Draft

/-! ## Whole runs -/

namespace Outline

open Draft

/-- The branch context of an element: the path of branches that are read once its line has been
taken. A gateway stands outside of its own branches. -/
def branchContext (defaultLane : String) (lines : List Line) (e : Element) : Context :=
  (OpenGateway.context (draft defaultLane (lines.takeWhile (·.number ≤ e.line))).gateways).filter
    (·.1 ≠ e.id)

/-- The branch contexts of the elements of some lines, by their ids. -/
def contextOf (defaultLane : String) (lines : List Line) (id : String) : Context :=
  ((finished defaultLane lines).elements.find? (·.id = id)).elim []
    (branchContext defaultLane lines)

theorem contextOf_id {defaultLane : String} {lines : List Line} {e : Element}
    (he : e ∈ (finished defaultLane lines).elements) :
    contextOf defaultLane lines e.id = branchContext defaultLane lines e := by
  have found := (find?_id_eq_some (registered_finished defaultLane lines) fun _ => .rfl).2 ⟨he, rfl⟩
  rw [contextOf, found, Option.elim_some]

/-- The lines up to a number are those up to the line of that number. -/
theorem takeWhile_number_le {lines ls : List Line} {l : Line}
    (h : (lines.map (·.number)).Pairwise (· < ·)) (hl : ls ++ [l] <+: lines) :
    lines.takeWhile (·.number ≤ l.number) = ls ++ [l] := by
  obtain ⟨rest, rfl⟩ := hl
  rw [List.pairwise_map] at h
  obtain ⟨upTo, -, behind⟩ := List.pairwise_append.1 h
  have first (x : Line) (hx : x ∈ ls ++ [l]) : x.number ≤ l.number := by
    obtain hx | hx := List.mem_append.1 hx
    · exact Nat.le_of_lt ((List.pairwise_append.1 upTo).2.2 x hx l (by simp))
    · exact List.mem_singleton.1 hx ▸ Nat.le_refl _
  have later : rest.takeWhile (·.number ≤ l.number) = [] := by
    cases rest with
    | nil => rfl
    | cons r rest =>
      have := behind l (by simp) r (by simp)
      exact List.takeWhile_cons_of_neg (by simpa using this)
  rw [List.takeWhile_append_of_pos fun x hx => by simpa using first x hx, later, List.append_nil]

section

variable {lines : List Line} {D : Draft} {ctx : String → Context} {P : Draft → Prop}

/-- What changes preserve in drafts that fit the contexts of the finished one holds at the end. -/
theorem located_invariant (defaultLane : String) (hD : finished defaultLane lines = D)
    (numbers : (lines.map (·.number)).Pairwise (· < ·))
    (hctx : ∀ e ∈ D.elements, ctx e.id = branchContext defaultLane lines e) (init : P {})
    (closes : ∀ d d', Closes d d' → d.Registered → d.Stacked → P d → P d')
    (prepares : ∀ l d d', Prepares l d d' → d.Registered → d.Stacked → P d → P d')
    (declares : ∀ l d d', Declares l d d' → d.Registered → d.Stacked → d.Located D ctx →
      d'.Placed l ctx → P d → P d') : D.Located D ctx ∧ P D := by
  -- Contexts are those of the finished draft, so every draft of the run is seen from there.
  let Q (d : Draft) : Prop := d.Registered ∧ d.Stacked ∧ (d.Precedes D → d.Located D ctx ∧ P d)
  have run : Q (draft defaultLane lines) := by
    refine draft_invariant_along (P := Q) defaultLane
      ⟨registered_empty, stacked_of_nil rfl, fun _ => ⟨located_empty, init⟩⟩ ?_ ?_
    · rintro l - d d' h ⟨hr, hs, hd⟩
      refine ⟨h.registered hr, h.stacked hs, fun later => ?_⟩
      have earlier := h.precedes.trans later
      obtain ⟨located, hp⟩ := hd earlier
      exact ⟨h.located hs earlier located, prepares l d d' h hr hs hp⟩
    · rintro ls l hl d h ⟨hr, hs, hd⟩
      refine ⟨h.registered hr, h.stacked hs, fun later => ?_⟩
      have placed : (draft defaultLane (ls ++ [l])).Placed l ctx := by
        intro e he line
        obtain ⟨e', he', grows⟩ := later.mem he
        have context := hctx e' he'
        rwa [branchContext, grows.line, line, takeWhile_number_le numbers hl, grows.id] at context
      obtain ⟨located, hp⟩ := hd (h.precedes.trans later)
      exact ⟨h.located hr hs later placed located, declares l d _ h hr hs located placed hp⟩
  have last : (draft defaultLane lines).Precedes D := by
    rw [← hD]
    exact precedes_of_closes (closeGateways_closes _ _)
  have closed := finished_invariant
    (P := fun d => d.Registered ∧ d.Stacked ∧ d.Precedes D ∧ d.Located D ctx ∧ P d) defaultLane ?_
    ⟨run.1, run.2.1, last, run.2.2 last⟩
  · rw [hD] at closed
    exact closed.2.2.2
  · rintro d d' h ⟨hr, hs, later, hd, hp⟩
    have back : d'.Precedes d :=
      precedes_of_elements_eq h.elements.symm (h.lanes ▸ List.prefix_refl _)
    exact ⟨h.registered hr, h.stacked hs, back.trans later, h.located hs later hd,
      closes d d' h hr hs hp⟩

end

/-- The finished draft fits the contexts of its elements. -/
theorem located_finished (defaultLane : String) {lines : List Line}
    (numbers : (lines.map (·.number)).Pairwise (· < ·)) (ctx : String → Context)
    (hctx : ∀ e ∈ (finished defaultLane lines).elements,
      ctx e.id = branchContext defaultLane lines e) :
    (finished defaultLane lines).Located (finished defaultLane lines) ctx :=
  (located_invariant (P := fun _ => True) defaultLane rfl numbers hctx trivial
    (fun _ _ _ _ _ => id) (fun _ _ _ _ _ _ => id) fun _ _ _ _ _ _ _ _ => id).1

end Outline

end Swimlane
