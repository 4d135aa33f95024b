import Swimlane.Proofs.Outline.Attachment
import Swimlane.Proofs.Outline.Grounded

/-!
# Branches in the log

A gateway has the branches that the log opens, in the order of the log. Each of them was stated on
the line of its task.

## Main definitions

* `Event.branchOf?`: the branch that an event opens;
* `Draft.Stated`: the line that states a branch;
* `Draft.Branched`: the branches of a draft, its log and its lines go together.

## Main statements

* `Outline.branched_finished`: every draft is branched.
-/

namespace Swimlane

/-- The task and the label of the branch of a gateway that an event opens. -/
def Event.branchOf? (gateway : String) : Event → Option (String × String)
  | .branchOpened g task label => if g = gateway then some (task, label) else none
  | _ => none

theorem Event.branchOf?_eq_some {gateway task label : String} {ev : Event} :
    ev.branchOf? gateway = some (task, label) ↔ ev = .branchOpened gateway task label := by
  cases ev with
  | branchOpened => simp [branchOf?]
  | _ => simp [branchOf?]

namespace Draft

/-- A branch has been stated on the line of its task. -/
def Stated (lines : List Line) (d : Draft) (b : Branch) : Prop :=
  ∃ l ∈ lines, (∃ label text, Statement.ofLine l = .branch b.sign label text ∧
    b.label = label.getD b.sign.defaultLabel) ∧ ∃ e ∈ d.elements, e.id = b.task ∧ e.line = l.number

/-- The branches of a gateway are those that the log opens, and all of them have been stated. -/
structure Branched (lines : List Line) (d : Draft) : Prop where
  events : ∀ x ∈ d.elements,
    d.events.filterMap (Event.branchOf? x.id) = x.branches.map fun b => (b.task, b.label)
  stated : ∀ x ∈ d.elements, ∀ b ∈ x.branches, d.Stated lines b

variable {lines : List Line} {d d' : Draft} {l : Line}

theorem Branched.branchOpened_mem_iff (hd : d.Branched lines) {x : Element} (hx : x ∈ d.elements)
    {task label : String} : .branchOpened x.id task label ∈ d.events ↔
      ∃ b ∈ x.branches, b.task = task ∧ b.label = label := by
  have same : (task, label) ∈ d.events.filterMap (Event.branchOf? x.id) ↔
      (task, label) ∈ x.branches.map fun b => (b.task, b.label) := by rw [hd.events x hx]
  simpa [Event.branchOf?_eq_some] using same

theorem branched_empty (lines : List Line) : Branched lines {} where
  events := by simp
  stated := by simp

theorem Stated.mono {b : Branch} (h : d.Stated lines b) (later : d.Precedes d') :
    d'.Stated lines b := by
  obtain ⟨l, hl, said, e, he, id, line⟩ := h
  obtain ⟨e', he', grows⟩ := later.mem he
  exact ⟨l, hl, said, e', he', grows.id.trans id, grows.line.trans line⟩

/-- Events that open no branch. -/
theorem filterMap_branchOf?_append {events new : List Event}
    (quiet : ∀ ev ∈ new, ∀ gateway, ev.branchOf? gateway = none) (gateway : String) :
    (events ++ new).filterMap (Event.branchOf? gateway) =
      events.filterMap (Event.branchOf? gateway) := by
  rw [List.filterMap_append, List.filterMap_eq_nil_iff.2 fun ev hev => quiet ev hev gateway,
    List.append_nil]

theorem Branched.congr (hd : d.Branched lines) (elements : d'.elements = d.elements)
    {new : List Event} (events : d'.events = d.events ++ new)
    (quiet : ∀ ev ∈ new, ∀ gateway, ev.branchOf? gateway = none) : d'.Branched lines where
  events := by
    intro x hx
    rw [events, filterMap_branchOf?_append quiet]
    exact hd.events x (elements ▸ hx)
  stated := by
    intro x hx b hb
    obtain ⟨l, hl, said, e, he, place⟩ := hd.stated x (elements ▸ hx) b hb
    exact ⟨l, hl, said, e, elements ▸ he, place⟩

/-- The log opens no branches of an element that is not there. -/
theorem Grounded.filterMap_branchOf? (hg : d.Grounded) {id : String}
    (new : ∀ x ∈ d.elements, x.id ≠ id) : d.events.filterMap (Event.branchOf? id) = [] := by
  refine List.filterMap_eq_nil_iff.2 fun ev hev => ?_
  cases ev with
  | branchOpened gateway task label =>
    obtain ⟨x, hx, same, -⟩ := hg.events _ hev gateway (by simp [Event.ids])
    simp [Event.branchOf?, ← same, new x hx]
  | _ => rfl

/-- A new element has no branches. -/
theorem Branched.append (hd : d.Branched lines) (hg : d.Grounded) (later : d.Precedes d')
    {e : Element} (elements : d'.elements = d.elements ++ [e]) (unbranched : e.branches = [])
    (fresh : ∀ x ∈ d.elements, x.id ≠ e.id) {new : List Event}
    (events : d'.events = d.events ++ new)
    (quiet : ∀ ev ∈ new, ∀ gateway, ev.branchOf? gateway = none) : d'.Branched lines where
  events := by
    intro x hx
    rw [events, filterMap_branchOf?_append quiet]
    rw [elements, List.mem_append, List.mem_singleton] at hx
    rcases hx with hx | rfl
    · exact hd.events x hx
    · rw [unbranched, hg.filterMap_branchOf? fresh]
      rfl
  stated := by
    intro x hx b hb
    rw [elements, List.mem_append, List.mem_singleton] at hx
    rcases hx with hx | rfl
    · exact (hd.stated x hx b hb).mono later
    · simp [unbranched] at hb

theorem Closes.branched (h : Closes d d') (hd : d.Branched lines) : d'.Branched lines := by
  cases h with
  | inner => exact hd.congr rfl (List.append_nil _).symm (by simp)
  | last => exact hd.congr rfl rfl (by simp [Event.branchOf?])

theorem Prepares.branched (h : Prepares l d d') (hd : d.Branched lines) : d'.Branched lines := by
  have quiet {d' : Draft} (elements : d'.elements = d.elements) (events : d'.events = d.events) :
      d'.Branched lines := hd.congr elements
        (events.trans (List.append_nil _).symm) (by simp)
  cases h with
  | warned | named | connected => exact quiet rfl rfl
  | closed h => exact h.branched hd
  | entered name => exact quiet (openLane_elements d name) (openLane_events d name)
  | broken => exact hd.congr rfl rfl (by simp [Event.branchOf?])

/-- The elements behind a new branch: the innermost gateway, which now has it, its task, and the
others as they were. -/
theorem Stacked.mem_elements_addBranch (hs : d.Stacked) (hr : d.Registered) {lane : LaneHeader}
    {g : OpenGateway} {outer : List OpenGateway} (l : Line) (sign : Sign) (label : Option String)
    (text : String) (current : d.current = some lane) (top : d.gateways = g :: outer) {y : Element}
    (hy : y ∈ (d.addBranch lane l g outer sign label text).elements) :
    (y ∈ d.elements ∧ y.id ≠ g.id) ∨
      (∃ x ∈ d.elements, x.id = g.id ∧ y.id = g.id ∧
        y.branches = x.branches ++ [d.newBranch lane l sign label text]) ∨
      y = d.newElement lane l text .task := by
  obtain ⟨before, x, after, old, slot, kind, -, new⟩ :=
    hs.elements_addBranch l sign label text current top
  have named : x.id = g.id := by
    obtain ⟨x', -, place, id, -⟩ := hs.stands g (by simp [top])
    have same : some x = some x' := by rw [← place, ← slot, old]; simp
    rw [Option.some.inj same, id]
  have others : ∀ y, y ∈ before ∨ y ∈ after → y.id ≠ g.id := by
    have nodup := hr.elementIds_nodup
    rw [old, List.map_append, List.map_cons] at nodup
    grind [List.nodup_append, List.nodup_cons]
  rw [new, List.mem_append, List.mem_cons, List.mem_append, List.mem_singleton] at hy
  rcases hy with hy | rfl | hy | rfl
  · exact .inl ⟨by simp [old, hy], others y (.inl hy)⟩
  · exact .inr (.inl ⟨x, by simp [old], named, named, Element.branches_addBranch kind _⟩)
  · exact .inl ⟨by simp [old, hy], others y (.inr hy)⟩
  · exact .inr (.inr rfl)

/-- Of the innermost gateway the log opens one more branch. -/
theorem Branched.addBranch (hd : d.Branched lines) (hr : d.Registered) (hg : d.Grounded)
    (hs : d.Stacked) (hl : l ∈ lines) {lane : LaneHeader} {g : OpenGateway}
    {outer : List OpenGateway} {sign : Sign} {label : Option String} {text : String}
    (current : d.current = some lane) (top : d.gateways = g :: outer)
    (stated : Statement.ofLine l = .branch sign label text)
    (later : d.Precedes (d.addBranch lane l g outer sign label text)) :
    (d.addBranch lane l g outer sign label text).Branched lines where
  events := by
    let b := d.newBranch lane l sign label text
    have opened (id : String) : (d.addBranch lane l g outer sign label text).events.filterMap
        (Event.branchOf? id) = d.events.filterMap (Event.branchOf? id) ++
          if g.id = id then [(b.task, b.label)] else [] := by
      rw [addBranch_events, List.filterMap_append]
      by_cases own : g.id = id <;> simp [Event.branchOf?, own, b, newBranch]
    intro y hy
    rw [opened]
    rcases hs.mem_elements_addBranch hr l sign label text current top hy with
      ⟨old, other⟩ | ⟨x, hx, own, same, branches⟩ | rfl
    · rw [if_neg other.symm, List.append_nil]
      exact hd.events y old
    · rw [if_pos same.symm, branches, List.map_append, same, ← own, hd.events x hx]
      rfl
    · have fresh : ∀ x ∈ d.elements, x.id ≠ (d.newElement lane l text .task).id :=
        fun x hx same => hr.newElement_id_ne lane l text .task hx same.symm
      obtain ⟨x, -, place, own, -⟩ := hs.stands g (by simp [top])
      rw [hg.filterMap_branchOf? fresh, if_neg (own ▸ fresh x (List.mem_of_getElem? place))]
      rfl
  stated := by
    intro y hy c hc
    rcases hs.mem_elements_addBranch hr l sign label text current top hy with
      ⟨old, -⟩ | ⟨x, hx, -, -, branches⟩ | rfl
    · exact (hd.stated y old c hc).mono later
    · rw [branches, List.mem_append, List.mem_singleton] at hc
      rcases hc with hc | rfl
      · exact (hd.stated x hx c hc).mono later
      · exact ⟨l, hl, ⟨label, text, stated, rfl⟩, d.newElement lane l text .task,
          hs.newElement_mem_addBranch l sign label text current top, rfl, rfl⟩
    · simp [Element.branches, newElement] at hc

theorem Declares.branched (h : Declares l d d') (hr : d.Registered) (hg : d.Grounded)
    (hs : d.Stacked) (hl : l ∈ lines) (hd : d.Branched lines) : d'.Branched lines := by
  have later := h.precedes
  have fresh (lane : LaneHeader) (label : String) (kind : ElementKind) :
      ∀ x ∈ d.elements, x.id ≠ (d.newElement lane l label kind).id :=
    fun x hx same => hr.newElement_id_ne lane l label kind hx same.symm
  cases h with
  | @node lane label kind _ hk =>
    refine hd.append hg later (addNode_elements ..) (Element.branches_eq_nil_of_isNew hk)
      (fresh lane label kind) (addNode_events ..) fun ev hev gateway => ?_
    rcases List.mem_cons.1 hev with rfl | hev
    · unfold flowEvent
      split <;> rfl
    · obtain ⟨sender, receiver, text, rfl⟩ := messages_pairing hev
      rfl
  | @branch lane g outer sign label text current top _ stated =>
    exact hd.addBranch hr hg hs hl current top stated later
  | @aside lane kind label _ hk =>
    refine hd.append hg later rfl ?_ (fresh lane label kind) (List.append_nil _).symm
      (by simp)
    rcases hk with ⟨associated, rfl⟩ | rfl
    · rfl
    · rfl

end Draft

theorem Outline.branched_finished (defaultLane : String) (lines : List Line) :
    (finished defaultLane lines).Branched lines := by
  have run : (draft defaultLane lines).Branched lines :=
    And.right <| And.right <| And.right <| draft_invariant
      (P := fun d => d.Registered ∧ d.Grounded ∧ d.Stacked ∧ d.Branched lines) defaultLane
      ⟨Draft.registered_empty, Draft.grounded_empty, Draft.stacked_of_nil rfl,
        Draft.branched_empty lines⟩
      (fun _ _ _ _ h hd =>
        ⟨h.registered hd.1, h.grounded hd.2.1, h.stacked hd.2.2.1, h.branched hd.2.2.2⟩)
      fun _ hl _ _ h hd =>
        ⟨h.registered hd.1, h.grounded hd.2.1, h.stacked hd.2.2.1,
          h.branched hd.1 hd.2.1 hd.2.2.1 hl hd.2.2.2⟩
  exact finished_invariant defaultLane (fun _ _ h => h.branched) run

end Swimlane
