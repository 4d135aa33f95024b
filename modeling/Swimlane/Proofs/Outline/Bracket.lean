import Swimlane.Proofs.Outline.Log
import Swimlane.Proofs.Outline.Settled

/-!
# Gateways in the log

In the log an outermost gateway is a bracket: it is opened where the gateway is declared and closed
once, before anything else is declared outside of all gateways. Between the two stands what was
logged while the gateway was open. A gateway inside of a branch has no such bracket. The end of a
gateway says where the flow goes on, and this depends on its branches alone.

## Main definitions

* `Event.EndsInside`: a log ends inside of a bracket;
* `Element.Continues`: where the flow goes on behind a gateway;
* `Draft.Bracketed`: the brackets of a log and the open gateways;
* `Draft.Enclosed`: the brackets of a log and the contexts of elements;
* `Event.IsLogOf`: a log that fits elements and their contexts.

## Main statements

* `Outline.ofText_log_wellFormed`: the log of every text.
-/

namespace Swimlane

namespace Event

/-- An event that can be logged while a gateway is open. -/
def isInner : Event → Bool
  | .branchOpened .. | .branchStep .. | .messagePaired .. => true
  | .declared _ | .gatewayClosed .. | .flowBreak => false

/-- The end of a gateway. -/
def closes (id : String) : Event → Bool
  | .gatewayClosed gateway _ => gateway = id
  | _ => false

/-- A log ends inside of an element: since it was declared, nothing has been logged but events that
can stand inside of a gateway. -/
def EndsInside (log : List Event) (id : String) : Prop :=
  (log.filter (!·.isInner)).getLast? = some (.declared id)

theorem EndsInside.append {log new : List Event} {id : String} (h : EndsInside log id)
    (inner : ∀ ev ∈ new, ev.isInner = true) : EndsInside (log ++ new) id := by
  have dropped : new.filter (!·.isInner) = [] := List.filter_eq_nil_iff.2 fun ev hev => by
    simp [inner ev hev]
  rw [EndsInside, List.filter_append, dropped, List.append_nil]
  exact h

theorem endsInside_declared (log : List Event) (id : String) {inside : List Event}
    (inner : ∀ ev ∈ inside, ev.isInner = true) : EndsInside (log ++ .declared id :: inside) id := by
  have last : EndsInside (log ++ [.declared id]) id := by simp [EndsInside, isInner]
  simpa using last.append inner

/-- The bracket in which a log ends. -/
theorem EndsInside.exists_eq_append {log : List Event} {id : String} (h : EndsInside log id) :
    ∃ before inside, log = before ++ .declared id :: inside ∧
      ∀ ev ∈ inside, ev.isInner = true := by
  rw [EndsInside, List.getLast?_filter, List.find?_eq_some_iff_append] at h
  obtain ⟨-, inside, before, split, inner⟩ := h
  refine ⟨before.reverse, inside.reverse, by simpa using congrArg List.reverse split, ?_⟩
  intro ev hev
  simpa using inner ev (List.mem_reverse.1 hev)

/-- Behind an event that stands outside of all gateways, a log ends inside of something new. -/
theorem EndsInside.mem_of_append {log new : List Event} {ev : Event} {id : String}
    (h : EndsInside (log ++ ev :: new) id) (outer : ev.isInner = false)
    (other : ev ≠ .declared id) : .declared id ∈ new := by
  have mem : .declared id ∈ ev :: new.filter (!·.isInner) := by
    rw [EndsInside, List.filter_append, List.filter_cons_of_pos (by simp [outer]),
      List.getLast?_append_of_ne_nil _ (by simp)] at h
    exact List.mem_of_getLast? h
  rcases List.mem_cons.1 mem with same | mem
  · exact absurd same.symm other
  · exact List.mem_of_mem_filter mem

theorem notMem_of_introduced {l l' : List Event} {ev ev' : Event} {id : String}
    (nodup : ((l ++ l').filterMap introduced?).Nodup) (hev : ev.introduced? = some id)
    (hev' : ev'.introduced? = some id) (h : ev ∈ l) : ev' ∉ l' := by
  intro h'
  rw [List.filterMap_append] at nodup
  exact List.disjoint_of_nodup_append nodup (List.mem_filterMap.2 ⟨ev, h, hev⟩)
    (List.mem_filterMap.2 ⟨ev', h', hev'⟩)

/-- What a log introduces, it introduces in one place. -/
theorem append_cons_inj {log before before' after after' : List Event} {ev : Event} {id : String}
    (nodup : (log.filterMap introduced?).Nodup) (hev : ev.introduced? = some id)
    (h : log = before ++ ev :: after) (h' : log = before' ++ ev :: after') :
    before = before' ∧ after = after' := by
  have first : ev ∉ before := fun mem =>
    notMem_of_introduced (h ▸ nodup) hev hev mem List.mem_cons_self
  have rest : ev ∉ after :=
    notMem_of_introduced (l := before ++ [ev]) (by simpa [h] using nodup) hev hev (by simp)
  obtain ⟨same, -, same'⟩ :=
    (List.append_cons_inj_of_notMem first rest).1 (h.symm.trans h')
  exact ⟨same, same'⟩

/-- One event of a log introduces an element. -/
theorem eq_of_introduced {log : List Event} {ev ev' : Event} {id : String}
    (nodup : (log.filterMap introduced?).Nodup) (h : ev ∈ log) (h' : ev' ∈ log)
    (hev : ev.introduced? = some id) (hev' : ev'.introduced? = some id) : ev = ev' := by
  obtain ⟨before, after, rfl⟩ := List.append_of_mem h
  rcases List.mem_append.1 h' with first | rest
  · exact absurd List.mem_cons_self (notMem_of_introduced nodup hev' hev first)
  · rcases List.mem_cons.1 rest with same | last
    · exact same.symm
    · exact absurd last
        (notMem_of_introduced (l := before ++ [ev]) (by simpa using nodup) hev hev' (by simp))

end Event

/-- Where the flow goes on behind a gateway: at the gateway itself just when it has no branches, and
nowhere when none of its branches is positive. -/
structure Element.Continues (e : Element) (continuation : Option String) : Prop where
  own : continuation = some e.id ↔ e.branches = []
  absent : e.branches ≠ [] → (∀ b ∈ e.branches, b.sign = .negative) → continuation = none

/-- The branch of a number, counted from one, is the first positive one of an element. -/
def Element.IsFirstPositive (e : Element) (number : Nat) : Prop :=
  ∃ ended branch rest, e.branches = ended ++ branch :: rest ∧ ended.length + 1 = number ∧
    branch.sign = .positive ∧ ∀ b ∈ ended, b.sign = .negative

/-- A gateway is a bracket of a log: it is closed once, behind what is introduced in its branches
and before anything else. The flow goes on behind it as its branches say, and never from inside of a
branch other than the first positive one. -/
structure Event.Brackets (log : List Event) (elements : List Element) (ctx : Element → Context)
    (e : Element) (inside : List Event) (continuation : Option String) : Prop where
  place : ∃ before after,
    log = before ++ .declared e.id :: (inside ++ .gatewayClosed e.id continuation :: after)
  once : log.filter (·.closes e.id) = [.gatewayClosed e.id continuation]
  inner : ∀ ev ∈ inside, ev.isInner = true
  mem_inside : ∀ x ∈ elements, x.isFlowNode = true →
    (x.id ∈ inside.filterMap Event.introduced? ↔ e.id ∈ (ctx x).map (·.1))
  continues : e.Continues continuation
  task : ∀ k b, e.branches[k]? = some b → continuation = some b.task → e.IsFirstPositive (k + 1)
  under : ∀ x ∈ elements, continuation = some x.id →
    ∀ number, (e.id, number) ∈ ctx x → e.IsFirstPositive number

/-- A log fits elements, in the order of their declaration, and their contexts. -/
structure Event.IsLogOf (log : List Event) (elements : List Element) (ctx : Element → Context) :
    Prop where
  introduced : log.filterMap Event.introduced? = (elements.filter (·.isFlowNode)).map (·.id)
  nodup : (log.filterMap Event.introduced?).Nodup
  beside : ∀ e ∈ elements, e.isFlowNode = false → ∀ ev ∈ log, e.id ∉ ev.ids
  declared : ∀ e ∈ elements, ∀ branches, e.kind = .gateway branches → .declared e.id ∈ log →
    ∃ inside continuation, Event.Brackets log elements ctx e inside continuation
  nested : ∀ after id, .branchStep after id ∈ log → log.filter (·.closes id) = []

namespace Draft

variable {d d' : Draft} {l : Line}

/-! ## Brackets -/

/-- The id of an element that is no gateway. -/
def IsPlain (d : Draft) (id : String) : Prop :=
  ∃ e ∈ d.elements, e.id = id ∧ ∀ branches, e.kind ≠ .gateway branches

theorem IsPlain.mono {id : String} (h : d.IsPlain id) (later : d.Precedes d') : d'.IsPlain id := by
  obtain ⟨e, he, rfl, plain⟩ := h
  obtain ⟨e', he', grows⟩ := later.mem he
  refine ⟨e', he', grows.id, fun branches gateway => ?_⟩
  have kind := grows.kind
  rw [gateway] at kind
  cases hk : e.kind <;> rw [hk] at kind <;> cases kind <;> exact plain _ hk

/-- While a gateway is open the log ends inside of the outermost one. The end of a gateway stands
behind what is inside of it, and every gateway declared outside of all others is open or has been
closed. -/
structure Bracketed (d : Draft) : Prop where
  opened : ∀ id, d.outermost? = some id → Event.EndsInside d.events id
  closed : ∀ before id continuation, before ++ [.gatewayClosed id continuation] <+: d.events →
    Event.EndsInside before id ∧ ∃ e, d.Frozen e ∧ e.id = id ∧ e.Continues continuation
  complete : ∀ id, .declared id ∈ d.events →
    d.outermost? = some id ∨ (∃ continuation, .gatewayClosed id continuation ∈ d.events) ∨
      d.IsPlain id

theorem bracketed_empty : Bracketed {} where
  opened := by simp [outermost?]
  closed := by simp
  complete := by simp

/-- A change that closes no outermost gateway. -/
theorem Bracketed.extend (hd : d.Bracketed) (later : d.Precedes d')
    (keep : ∀ {e}, d.Frozen e → d'.Frozen e) {new : List Event}
    (events : d'.events = d.events ++ new)
    (open' : ∀ id continuation, .gatewayClosed id continuation ∉ new)
    (opened : ∀ id, d'.outermost? = some id → Event.EndsInside (d.events ++ new) id)
    (complete : ∀ id, d.outermost? = some id ∨ .declared id ∈ new →
      d'.outermost? = some id ∨ d'.IsPlain id) : d'.Bracketed where
  opened := events ▸ opened
  closed := by
    intro before id continuation h
    rw [events] at h
    rcases prefix_or_append h with old | ⟨rest, -, behind⟩
    · obtain ⟨inside, e, frozen, same, continues⟩ := hd.closed before id continuation old
      exact ⟨inside, e, keep frozen, same, continues⟩
    · exact absurd (behind.subset (by simp)) (open' id continuation)
  complete := by
    intro id h
    rw [events] at h ⊢
    have next (h : d.outermost? = some id ∨ .declared id ∈ new) :=
      (complete id h).imp_right (Or.inr (a := ∃ continuation,
        .gatewayClosed id continuation ∈ d.events ++ new))
    rcases List.mem_append.1 h with old | declared
    · rcases hd.complete id old with outermost | ⟨continuation, closed⟩ | plain
      · exact next (.inl outermost)
      · exact .inr (.inl ⟨continuation, List.mem_append_left _ closed⟩)
      · exact .inr (.inr (plain.mono later))
    · exact next (.inr declared)

/-- What the end of an outermost gateway logs. -/
theorem continues_exit {g : OpenGateway} (hr : d.Registered) (hs : d.Stacked) (hd : d.Settles)
    (hg : d.gateways = [g]) :
    ∃ e ∈ d.elements, e.id = g.id ∧ e.Continues g.exit := by
  obtain ⟨e, branches, place, name, kind, shows', -⟩ := hs.stands g (by simp [hg])
  have mem := List.mem_of_getElem? place
  have count : e.branches.length = g.branches := by rw [Element.branches_eq kind, shows'.count]
  refine ⟨e, mem, name, ⟨fun exit => ?_, fun unbranched => ?_⟩, fun branched negative => ?_⟩
  · -- The flow goes on at an element that has no branches, and this is the gateway itself.
    obtain ⟨⟨x, hx, same, unbranched⟩, -⟩ := (Closes.last hg).settled_exit hr hs hd hg exit
    have hx : x ∈ d.elements := hx
    rwa [← List.inj_on_of_nodup_map hr.elementIds_nodup hx mem same]
  · have zero : g.branches = 0 := by rw [← count, unbranched]; rfl
    simp [OpenGateway.exit, zero, name]
  · have positive : g.branches ≠ 0 := by
      rw [← count]
      exact fun zero => branched (List.length_eq_zero_iff.1 zero)
    rw [Element.branches_eq kind] at negative
    simp [OpenGateway.exit, positive, shows'.finishBody_continuation.2 negative]

theorem Closes.bracketed (h : Closes d d') (hr : d.Registered) (hs : d.Stacked) (hd : d.Settles)
    (hb : d.Bracketed) : d'.Bracketed := by
  have keep {e : Element} (he : d.Frozen e) := h.frozen he
  have later := h.precedes
  cases h with
  | @inner g parent outer hg =>
    have same : outermost? { d with gateways := parent.setTail g.exit :: outer } =
        d.outermost? := by
      simp [outermost?, hg]
    refine hb.extend later keep (List.append_nil _).symm (by simp) ?_ ?_
    · intro id outermost
      rw [same] at outermost
      simpa using hb.opened id outermost
    · intro id outermost
      exact .inl (same ▸ by simpa using outermost)
  | @last g hg =>
    have outermost : d.outermost? = some g.id := by simp [outermost?, hg]
    refine ⟨by simp [outermost?], ?_, ?_⟩
    · intro before id continuation h
      rcases prefix_or_append h with old | ⟨rest, rfl, behind⟩
      · obtain ⟨inside, e, frozen, same, continues⟩ := hb.closed before id continuation old
        exact ⟨inside, e, keep frozen, same, continues⟩
      · obtain ⟨rfl, last⟩ : rest = [] ∧ Event.gatewayClosed id continuation =
            .gatewayClosed g.id g.exit := by
          simpa [List.prefix_cons_iff, List.append_eq_cons_iff] using behind
        cases last
        obtain ⟨e, he, same, continues⟩ := continues_exit hr hs hd hg
        exact ⟨by simpa using hb.opened g.id outermost, e, ⟨he, by simp⟩, same, continues⟩
    · intro id h
      have declared : .declared id ∈ d.events := by simpa using h
      rcases hb.complete id declared with same | ⟨continuation, closed⟩ | plain
      · obtain rfl := Option.some.inj (outermost.symm.trans same)
        exact .inr (.inl ⟨g.exit, by simp⟩)
      · exact .inr (.inl ⟨continuation, by simp [closed]⟩)
      · exact .inr (.inr (plain.mono later))

theorem Prepares.bracketed (h : Prepares l d d') (hr : d.Registered) (hs : d.Stacked)
    (hd : d.Settles) (hb : d.Bracketed) : d'.Bracketed := by
  have keep {e : Element} (he : d.Frozen e) := h.frozen he
  have later := h.precedes
  cases h with
  | warned | named | connected =>
    exact { hb with }
  | closed h => exact h.bracketed hr hs hd hb
  | entered name hg =>
    have outside : (d.openLane name).outermost? = none := by
      simp [outermost?, openLane_gateways, hg]
    have events : (d.openLane name).events = d.events ++ [] := by simp [openLane_events]
    refine hb.extend later keep events (by simp) ?_ ?_
    · simp [outside]
    · simp [outermost?, hg]
  | broken hg =>
    have events : (d.log .flowBreak).events = d.events ++ [.flowBreak] := rfl
    refine hb.extend later keep events (by simp) ?_ ?_
    · simp [outermost?, log, hg]
    · simp [outermost?, hg]

theorem isInner_pairing {waiting : List WaitingMessage} {l : Line} {e : Element} {ev : Event}
    (h : ev ∈ pairing waiting l e) : ev.isInner = true := by
  obtain ⟨sender, receiver, label, rfl⟩ := messages_pairing h
  rfl

/-- Behind an event inside of a gateway the log still ends inside of it. -/
theorem Bracketed.inner (hb : d.Bracketed) (later : d.Precedes d')
    (keep : ∀ {e}, d.Frozen e → d'.Frozen e) {new : List Event}
    (events : d'.events = d.events ++ new) (inner : ∀ ev ∈ new, ev.isInner = true)
    (outermost : d'.outermost? = d.outermost?) : d'.Bracketed := by
  refine hb.extend later keep events (fun id continuation h => ?_) (fun id h => ?_) fun id h => ?_
  · cases inner _ h
  · exact (hb.opened id (outermost ▸ h)).append inner
  · rcases h with h | h
    · exact .inl (outermost ▸ h)
    · cases inner _ h

theorem Declares.bracketed (h : Declares l d d') (hr : d.Registered) (hs : d.Stacked)
    (hb : d.Bracketed) : d'.Bracketed := by
  have keep {e : Element} (he : d.Frozen e) := h.frozen hr hs he
  have later := h.precedes
  cases h with
  | @node lane label kind hl hk hg =>
    let e := d.newElement lane l label kind
    cases stack : d.gateways with
    | nil =>
      have outermost : (d.addNode lane l label kind).outermost? =
          ((openedBy l e).map (·.id)).getLast? := by
        rw [outermost?_addNode]
        simp [outermost?, stack, e]
      have events := addNode_events d lane l label kind
      rw [stack] at events
      have inner (ev : Event) (hev : ev ∈ pairing d.waiting l e) := isInner_pairing hev
      refine hb.extend later keep events (fun id continuation h => ?_) (fun id h => ?_)
        fun id h => ?_
      · rcases List.mem_cons.1 h with h | h
        · cases h
        · cases inner _ h
      · rw [outermost] at h
        obtain ⟨o, ho, rfl⟩ := List.mem_map.1 (List.mem_of_getLast? h)
        rw [eq_of_mem_openedBy ho]
        exact Event.endsInside_declared d.events e.id inner
      · rcases h with h | h
        · simp [outermost?, stack] at h
        · obtain rfl : id = e.id := by
            rcases List.mem_cons.1 h with h | h
            · cases h
              rfl
            · cases inner _ h
          by_cases gateway : ∃ branches, kind = .gateway branches
          · obtain ⟨branches, rfl⟩ := gateway
            exact .inl outermost
          · exact .inr ⟨e, by simp [e], rfl, fun branches h => gateway ⟨branches, h⟩⟩
    | cons g outer =>
      obtain ⟨b, body⟩ := Option.ne_none_iff_exists'.1 (hg g outer stack).2
      refine hb.inner later keep (addNode_events ..) ?_ ?_
      · intro ev hev
        rw [stack, flowEvent_of_cons body] at hev
        rcases List.mem_cons.1 hev with rfl | hev
        · rfl
        · exact isInner_pairing hev
      · rw [outermost?_addNode]
        simp [outermost?, stack, List.getLast?_cons]
  | @branch lane g outer sign label text hl hg =>
    exact hb.inner later keep (addBranch_events ..) (by simp [Event.isInner])
      (by simp [outermost?, hg])
  | aside => exact hb.inner later keep (List.append_nil _).symm (by simp) rfl

/-! ## Brackets and contexts -/

variable {D : Draft} {ctx : String → Context}

/-- Of the elements that stand in no branch, the branches that are read belong to the outermost open
gateway only. -/
theorem mem_context_iff {gateways : List OpenGateway} (h : OpenGateway.Located D ctx gateways)
    {id : String} (free : ctx id = []) :
    id ∈ (OpenGateway.context gateways).map (·.1) ↔
      (gateways.map (·.id)).getLast? = some id := by
  induction gateways with
  | nil => simp [OpenGateway.context]
  | cons g outer ih =>
    obtain ⟨own, -, -, rest⟩ := h
    cases outer with
    | nil => simp [OpenGateway.context, eq_comm]
    | cons parent outer =>
      -- The inner gateway has a context, so it is another element.
      have other : id ≠ g.id := by
        rintro rfl
        rw [own] at free
        simp at free
      have mem := ih rest
      simp only [OpenGateway.context_cons, List.map_append, List.mem_append, List.map_cons,
        List.map_nil, List.mem_singleton, other, or_false, List.getLast?_cons_cons] at mem ⊢
      exact mem

/-- An event inside of a bracket introduces an element that has the gateway of the bracket, and no
other outermost gateway, in its context. The task of a branch stands in this branch. -/
structure Enclosed (d : Draft) (ctx : String → Context) : Prop where
  steps : ∀ before ev x, before ++ [ev] <+: d.events → ev.isInner = true →
    ev.introduced? = some x → ∃ gateway, Event.EndsInside before gateway ∧
      ∀ id, ctx id = [] → (id ∈ (ctx x).map (·.1) ↔ id = gateway)
  tasks : ∀ e ∈ d.elements, ∀ i b, e.branches[i]? = some b →
    ctx b.task = ctx e.id ++ [(e.id, i + 1)]

theorem enclosed_empty : Enclosed {} ctx where
  steps := by simp
  tasks := by simp

/-- A change that introduces nothing. -/
theorem Enclosed.quiet (hd : d.Enclosed ctx) (logs : d.Logs d' [])
    (elements : d'.elements = d.elements) : d'.Enclosed ctx := by
  obtain ⟨new, events, introduced, -⟩ := logs
  refine ⟨fun before ev x h inner introduces => ?_, elements ▸ hd.tasks⟩
  rw [events] at h
  rcases prefix_or_append h with old | ⟨rest, -, behind⟩
  · exact hd.steps before ev x old inner introduces
  · have quiet := List.filterMap_eq_nil_iff.1 introduced ev (behind.subset (by simp))
    rw [quiet] at introduces
    cases introduces

/-- A change that logs an event for a new element while gateways are open. -/
theorem Enclosed.step (hd : d.Enclosed ctx) (hb : d.Bracketed)
    (located : OpenGateway.Located D ctx d.gateways) {first : Event} {quiet : List Event}
    {x gateway : String} (outermost : d.outermost? = some gateway)
    (events : d'.events = d.events ++ first :: quiet) (introduces : first.introduced? = some x)
    (silent : quiet.filterMap Event.introduced? = [])
    (context : (ctx x).map (·.1) = (OpenGateway.context d.gateways).map (·.1)) :
    ∀ before ev y, before ++ [ev] <+: d'.events → ev.isInner = true → ev.introduced? = some y →
      ∃ gateway, Event.EndsInside before gateway ∧
        ∀ id, ctx id = [] → (id ∈ (ctx y).map (·.1) ↔ id = gateway) := by
  intro before ev y h inner names
  rw [events] at h
  rcases prefix_or_append h with old | ⟨rest, rfl, behind⟩
  · exact hd.steps before ev y old inner names
  cases rest with
  | nil =>
    obtain rfl : ev = first := by simpa using behind
    obtain rfl : x = y := Option.some.inj (introduces.symm.trans names)
    refine ⟨gateway, by simpa using hb.opened gateway outermost, fun id free => ?_⟩
    rw [context, mem_context_iff located free, ← outermost?, outermost, Option.some.injEq,
      eq_comm]
  | cons r rest =>
    have later := (List.cons_prefix_cons.1 behind).2
    rw [List.filterMap_eq_nil_iff.1 silent ev (later.subset (by simp))] at names
    cases names

theorem tasks_append (hd : d.Enclosed ctx) {e : Element}
    (elements : d'.elements = d.elements ++ [e]) (unbranched : e.branches = []) :
    ∀ x ∈ d'.elements, ∀ i b, x.branches[i]? = some b →
      ctx b.task = ctx x.id ++ [(x.id, i + 1)] := by
  intro x hx i b place
  rw [elements] at hx
  rcases List.mem_append.1 hx with old | new
  · exact hd.tasks x old i b place
  · obtain rfl := List.mem_singleton.1 new
    simp [unbranched] at place

/-- The task of a new branch stands in this branch, which is the last one of its gateway. -/
theorem tasks_addBranch (hd : d.Enclosed ctx) (hs : d.Stacked)
    (located : OpenGateway.Located D ctx d.gateways) {lane : LaneHeader} {g : OpenGateway}
    {outer : List OpenGateway} {sign : Sign} {label : Option String} {text : String}
    (hl : d.current = some lane) (hg : d.gateways = g :: outer)
    (own : ctx (d.newElement lane l text .task).id =
      OpenGateway.context outer ++ [(g.id, g.branches + 1)]) :
    ∀ x ∈ (d.addBranch lane l g outer sign label text).elements, ∀ i b, x.branches[i]? = some b →
      ctx b.task = ctx x.id ++ [(x.id, i + 1)] := by
  obtain ⟨before, x, after, old, slot, kind, -, new⟩ :=
    hs.elements_addBranch l sign label text hl hg
  obtain ⟨y, branches, place, name, kind', shows', -⟩ := hs.stands g (by simp [hg])
  obtain rfl : x = y := by simpa [old, ← slot] using place
  have mem (y : Element) (hy : y ∈ before ∨ y = x ∨ y ∈ after) : y ∈ d.elements := by
    rw [old]
    simpa using hy
  rw [hg] at located
  intro y hy i b at'
  rw [new, List.mem_append, List.mem_cons, List.mem_append, List.mem_singleton] at hy
  rcases hy with hy | rfl | hy | rfl
  · exact hd.tasks y (mem y (.inl hy)) i b at'
  · rw [Element.branches_addBranch kind, List.getElem?_append] at at'
    split at at'
    · exact hd.tasks x (mem x (.inr (.inl rfl))) i b at'
    · have last : i = x.branches.length := by
        have bound := (List.getElem?_eq_some_iff.1 at').1
        simp only [List.length_singleton] at bound
        omega
      subst last
      obtain rfl : d.newBranch lane l sign label text = b := by simpa using at'
      rw [← Element.branches_eq kind'] at shows'
      rw [shows'.count]
      exact own.trans (by rw [← located.1, ← name]; rfl)
  · exact hd.tasks y (mem y (.inr (.inr hy))) i b at'
  · simp [Element.branches, newElement] at at'

theorem Declares.enclosed (h : Declares l d d') (hr : d.Registered) (hs : d.Stacked)
    (hb : d.Bracketed) (located : d.Located D ctx) (placed : d'.Placed l ctx)
    (hd : d.Enclosed ctx) : d'.Enclosed ctx := by
  cases h with
  | @node lane label kind hl hk hg =>
    let e := d.newElement lane l label kind
    have tasks := tasks_append hd (addNode_elements d lane l label kind)
      (Element.branches_eq_nil_of_isNew hk)
    refine ⟨?_, tasks⟩
    cases stack : d.gateways with
    | nil =>
      -- Outside of all gateways the element is declared, which is no step.
      have events := addNode_events d lane l label kind
      intro before ev x h inner introduces
      rw [events, stack] at h
      rcases prefix_or_append h with old | ⟨rest, -, behind⟩
      · exact hd.steps before ev x old inner introduces
      · rcases List.mem_cons.1 (behind.subset (by simp) : ev ∈ _) with rfl | paired
        · cases inner
        · have quiet := List.filterMap_eq_nil_iff.1 (introduced?_pairing d.waiting l e) ev paired
          rw [quiet] at introduces
          cases introduces
    | cons g outer =>
      obtain ⟨gateway, outermost⟩ : ∃ gateway, d.outermost? = some gateway := by
        simp [outermost?, stack, List.getLast?_cons]
      refine hd.step hb located.gateways outermost (addNode_events ..)
        (introduced?_flowEvent ..) (introduced?_pairing ..) ?_
      rw [placed.addNode hr hs]
  | @branch lane g outer sign label text hl hg =>
    have own := placed.addBranch hr hs hl hg
    obtain ⟨gateway, outermost⟩ : ∃ gateway, d.outermost? = some gateway := by
      simp [outermost?, hg, List.getLast?_cons]
    refine ⟨hd.step hb located.gateways outermost (addBranch_events ..) rfl rfl ?_, ?_⟩
    · rw [own, hg]
      simp
    · exact tasks_addBranch hd hs located.gateways hl hg own
  | aside label hl hk =>
    refine ⟨hd.steps, tasks_append hd rfl ?_⟩
    rcases hk with ⟨associated, rfl⟩ | rfl <;> rfl

/-! ## The log of a finished draft -/

/-- A gateway that was declared outside of all others has a bracket. -/
theorem Bracketed.exists_bracket (hb : d.Bracketed) (hr : d.Registered) (hg : d.gateways = [])
    {e : Element} (he : e ∈ d.elements) {branches : List Branch}
    (gateway : e.kind = .gateway branches) (declared : .declared e.id ∈ d.events) :
    ∃ before inside continuation after,
      d.events = before ++ .declared e.id :: (inside ++ .gatewayClosed e.id continuation :: after) ∧
        (∀ ev ∈ inside, ev.isInner = true) ∧ e.Continues continuation := by
  have only (x : Element) (hx : x ∈ d.elements) (same : x.id = e.id) : x = e :=
    List.inj_on_of_nodup_map hr.elementIds_nodup hx he same
  rcases hb.complete e.id declared with outermost | ⟨continuation, closed⟩ | ⟨x, hx, same, plain⟩
  · simp [outermost?, hg] at outermost
  · obtain ⟨log, after, split⟩ := List.append_of_mem closed
    obtain ⟨ends, x, ⟨hx, -⟩, same, continues⟩ :=
      hb.closed log e.id continuation ⟨after, by simp [split]⟩
    obtain ⟨before, inside, rfl, inner⟩ := ends.exists_eq_append
    exact ⟨before, inside, continuation, after, by simp [split], inner, only x hx same ▸ continues⟩
  · exact absurd (only x hx same ▸ gateway) (plain branches)

/-- The end of a gateway is logged behind its declaration. -/
theorem Bracketed.endsInside_of_closes (hb : d.Bracketed) {before : List Event} {ev : Event}
    {id : String} (h : before ++ [ev] <+: d.events) (closes : ev.closes id = true) :
    Event.EndsInside before id := by
  cases ev <;> simp only [Event.closes, decide_eq_true_eq, Bool.false_eq_true] at closes
  subst closes
  exact (hb.closed before _ _ h).1

theorem Bracketed.closes_once (hb : d.Bracketed)
    (nodup : (d.events.filterMap Event.introduced?).Nodup) {before inside after : List Event}
    {id : String} {continuation : Option String}
    (split : d.events =
      before ++ .declared id :: (inside ++ .gatewayClosed id continuation :: after))
    (inner : ∀ ev ∈ inside, ev.isInner = true) :
    d.events.filter (·.closes id) = [.gatewayClosed id continuation] := by
  have introduces : (Event.declared id).introduced? = some id := rfl
  have first : before.filter (·.closes id) = [] := by
    refine List.filter_eq_nil_iff.2 fun ev hev closes => ?_
    obtain ⟨l, l', rfl⟩ := List.append_of_mem hev
    have ends : Event.EndsInside l id := hb.endsInside_of_closes ⟨_, by
      rw [split, List.append_assoc, List.append_assoc]
      rfl⟩ closes
    obtain ⟨_, _, rfl, -⟩ := ends.exists_eq_append
    exact Event.notMem_of_introduced (split ▸ nodup) introduces introduces (by simp)
      List.mem_cons_self
  have middle : inside.filter (·.closes id) = [] := by
    refine List.filter_eq_nil_iff.2 fun ev hev closes => ?_
    have inside := inner ev hev
    cases ev <;> simp [Event.closes, Event.isInner] at closes inside
  have last : after.filter (·.closes id) = [] := by
    refine List.filter_eq_nil_iff.2 fun ev hev closes => ?_
    obtain ⟨l, l', rfl⟩ := List.append_of_mem hev
    have ends : Event.EndsInside
        ((before ++ .declared id :: inside) ++ .gatewayClosed id continuation :: l) id :=
      hb.endsInside_of_closes ⟨l', by simp [split]⟩ closes
    have again := ends.mem_of_append rfl (by simp)
    exact Event.notMem_of_introduced (l := before ++ [.declared id]) (by simpa [split] using nodup)
      introduces introduces (by simp) (by simp [again])
  have own : (Event.gatewayClosed id continuation).closes id = true := by simp [Event.closes]
  have other : (Event.declared id).closes id = false := rfl
  rw [split]
  simp [first, middle, last, own, other]

/-- What is introduced inside of a bracket stands in the branches of its gateway. -/
theorem Enclosed.mem_inside_iff (he : d.Enclosed ctx) (located : d.Located D ctx)
    (nodup : (d.events.filterMap Event.introduced?).Nodup) {before inside after : List Event}
    {id : String} {continuation : Option String}
    (split : d.events =
      before ++ .declared id :: (inside ++ .gatewayClosed id continuation :: after))
    (inner : ∀ ev ∈ inside, ev.isInner = true) {x : String}
    (hx : x ∈ d.events.filterMap Event.introduced?) :
    x ∈ inside.filterMap Event.introduced? ↔ id ∈ (ctx x).map (·.1) := by
  have free : ctx id = [] := located.events (.declared id) (by simp [split])
  constructor
  · intro mem
    obtain ⟨ev, hev, introduces⟩ := List.mem_filterMap.1 mem
    obtain ⟨l, l', rfl⟩ := List.append_of_mem hev
    obtain ⟨gateway, ends, context⟩ := he.steps (before ++ .declared id :: l) ev x
      ⟨l' ++ .gatewayClosed id continuation :: after, by simp [split]⟩ (inner ev hev) introduces
    have same : Event.EndsInside (before ++ .declared id :: l) id :=
      Event.endsInside_declared before id fun ev hev => inner ev (by simp [hev])
    obtain rfl : id = gateway := by simpa using same.symm.trans ends
    exact (context id free).2 rfl
  · intro mem
    obtain ⟨ev, hev, introduces⟩ := List.mem_filterMap.1 hx
    obtain ⟨l, l', split'⟩ := List.append_of_mem hev
    by_cases step : ev.isInner = true
    · obtain ⟨gateway, ends, context⟩ :=
        he.steps l ev x ⟨l', by simp [split']⟩ step introduces
      obtain rfl := (context id free).1 mem
      obtain ⟨before', inside', rfl, inner'⟩ := ends.exists_eq_append
      obtain ⟨-, same⟩ := Event.append_cons_inj nodup rfl split
        (split'.trans (by rw [List.append_assoc, List.cons_append]))
      -- Both start with events that can stand inside of the gateway, up to its end.
      have start := congrArg (List.takeWhile Event.isInner) same
      rw [List.takeWhile_append_of_pos inner, List.takeWhile_cons_of_neg (by simp [Event.isInner]),
        List.append_nil, List.takeWhile_append_of_pos inner', List.takeWhile_cons_of_pos step]
        at start
      exact List.mem_filterMap.2 ⟨ev, by simp [start], introduces⟩
    · cases ev <;> simp [Event.isInner, Event.introduced?] at step introduces
      subst introduces
      have outside : ctx _ = [] := located.events _ hev
      simp [outside] at mem

/-- The end of a gateway says that the flow goes on inside of it only in the first positive
branch. -/
theorem Located.isFirstPositive (located : d.Located d ctx) (hr : d.Registered) {e : Element}
    (he : e ∈ d.elements) {continuation : Option String}
    (closed : .gatewayClosed e.id continuation ∈ d.events) {t : String}
    (goes : continuation = some t) {number : Nat} (mem : (e.id, number) ∈ ctx t) :
    e.IsFirstPositive number := by
  obtain ⟨path, context, first⟩ := located.events _ closed t goes
  rw [context] at mem
  obtain ⟨x, hx, same, positive⟩ := first (e.id, number) mem
  obtain rfl := List.inj_on_of_nodup_map hr.elementIds_nodup hx he same
  exact positive

/-- Everything that the log of a draft without open gateways shows. -/
theorem Bracketed.isLogOf (hb : d.Bracketed) (hr : d.Registered) (grounded : d.Grounded)
    (chronicled : d.Chronicled) (hg : d.gateways = []) (located : d.Located d ctx)
    (enclosed : d.Enclosed ctx) {contextOf : Element → Context}
    (hctx : ∀ e ∈ d.elements, ctx e.id = contextOf e) :
    Event.IsLogOf d.events d.elements contextOf := by
  have nodup := chronicled.introduced_nodup hr
  refine ⟨by rw [chronicled.introduced, filterMap_flowId?], nodup, ?_, ?_, ?_⟩
  · intro e he beside ev hev hid
    obtain ⟨x, hx, same, flow⟩ := grounded.events ev hev e.id hid
    obtain rfl := List.inj_on_of_nodup_map hr.elementIds_nodup hx he same
    simp [flow] at beside
  · intro e he branches gateway declared
    obtain ⟨before, inside, continuation, after, split, inner, continues⟩ :=
      hb.exists_bracket hr hg he gateway declared
    have first {t : String} (goes : continuation = some t) (number : Nat)
        (mem : (e.id, number) ∈ ctx t) : e.IsFirstPositive number :=
      located.isFirstPositive hr he (by simp [split]) goes mem
    refine ⟨inside, continuation, ⟨before, after, split⟩, hb.closes_once nodup split inner, inner,
      ?_, continues, ?_, fun x hx goes => hctx x hx ▸ first goes⟩
    · intro x hx flow
      rw [← hctx x hx]
      exact enclosed.mem_inside_iff located nodup split inner
        (chronicled.mem_introduced ⟨x, hx, rfl, flow⟩)
    · intro k b place goes
      refine first goes (k + 1) ?_
      rw [enclosed.tasks e he k b place]
      simp
  · intro after id step
    refine List.filter_eq_nil_iff.2 fun ev hev closes => ?_
    obtain ⟨before, rest, split⟩ := List.append_of_mem hev
    have ends : Event.EndsInside before id :=
      hb.endsInside_of_closes ⟨rest, by simp [split]⟩ closes
    obtain ⟨_, _, rfl, -⟩ := ends.exists_eq_append
    cases Event.eq_of_introduced nodup step (split ▸ by simp : .declared id ∈ d.events) rfl rfl

end Draft

/-! ## Outlines -/

namespace Outline

open Draft

theorem bracketed_finished (defaultLane : String) {lines : List Line}
    (numbers : (lines.map (·.number)).Pairwise (· < ·)) (ctx : String → Context)
    (hctx : ∀ e ∈ (finished defaultLane lines).elements,
      ctx e.id = branchContext defaultLane lines e) :
    (finished defaultLane lines).Located (finished defaultLane lines) ctx ∧
      (finished defaultLane lines).Bracketed ∧ (finished defaultLane lines).Enclosed ctx := by
  have run := located_invariant (P := fun d => d.Settles ∧ d.Bracketed ∧ d.Enclosed ctx)
    defaultLane rfl numbers hctx ⟨settles_of_nil rfl, bracketed_empty, enclosed_empty⟩ ?_ ?_ ?_
  · exact ⟨run.1, run.2.2⟩
  · rintro d d' h hr hs ⟨settles, bracketed, enclosed⟩
    exact ⟨h.settles hr hs settles, h.bracketed hr hs settles bracketed,
      enclosed.quiet h.logs h.elements⟩
  · rintro l d d' h hr hs ⟨settles, bracketed, enclosed⟩
    exact ⟨h.settles hr hs settles, h.bracketed hr hs settles bracketed,
      enclosed.quiet h.logs h.elements⟩
  · rintro l d d' h hr hs located placed ⟨settles, bracketed, enclosed⟩
    exact ⟨h.settles hr hs settles, h.bracketed hr hs bracketed,
      h.enclosed hr hs bracketed located placed enclosed⟩

/-- The log of every text introduces the elements of the flow once, in their order, and shows the
outermost gateways as brackets. -/
theorem ofText_log_wellFormed (options : ReadOptions) (text : String) (o : Outline)
    (h : ofText options text = .ok o) :
    Event.IsLogOf o.events o.document.elements
      (branchContext options.defaultLane (scan options.maxDepth text).lines) := by
  obtain ⟨document, events, -⟩ := ofText_eq_ok h
  have numbers := scan_numbers_pairwise options.maxDepth text
  have registered := registered_finished options.defaultLane (scan options.maxDepth text).lines
  have grounded := grounded_finished options.defaultLane (scan options.maxDepth text).lines
  have chronicled := chronicled_finished options.defaultLane (scan options.maxDepth text).lines
  have closed : (finished options.defaultLane (scan options.maxDepth text).lines).gateways = [] :=
    closeGateways_eq_nil _ fun _ => rfl
  obtain ⟨located, bracketed, enclosed⟩ :=
    bracketed_finished options.defaultLane numbers _ fun _ => contextOf_id
  rw [events, document, document_elements registered]
  exact bracketed.isLogOf registered grounded chronicled closed located enclosed
    fun _ => contextOf_id

/-- The inner one of two nested gateways is not logged as closed, and the flow goes on behind both
at the end of their first positive branches. -/
theorem ofText_log_wellFormed_nested :
    ∃ o, ofText {} "?a\n  -n\n  +x\n    ?b\n      +y\nz" = .ok o ∧
      o.events = [.declared "default_a", .branchOpened "default_a" "default_n" "No",
        .branchOpened "default_a" "default_x" "Yes", .branchStep (some "default_x") "default_b",
        .branchOpened "default_b" "default_y" "Yes",
        .gatewayClosed "default_a" (some "default_y"), .declared "default_z"] ∧
      Event.IsLogOf o.events o.document.elements
        (branchContext "Default" (scan 64 "?a\n  -n\n  +x\n    ?b\n      +y\nz").lines) := by
  have read : ofText {} "?a\n  -n\n  +x\n    ?b\n      +y\nz" = .ok _ := rfl
  exact ⟨_, read, by decide +kernel, ofText_log_wellFormed {} _ _ read⟩

end Outline

end Swimlane
