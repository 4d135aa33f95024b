import Swimlane.Proofs.Integrity
import Swimlane.Proofs.Outline.Settled

/-!
# The flow at the boundaries of gateways

The edges that the event log draws never jump across the boundary of a gateway. Into a branch they
lead only from its gateway to its task, and out of a branch only where it is the first positive one.
A gateway that has branches leads nowhere else.

## Main statements

* `Draft.Carries`: behind the log of a draft, the flow goes on at settled elements or at the
  outermost open gateway;
* `Outline.implicit_edges_respect_gateways`: the boundaries of gateways in every text.
-/

namespace Swimlane

namespace Draft

variable {d d' : Draft} {doc : Document} {t : Threads} {l : Line}

/-- Threads and cursor stand at settled elements, or at the outermost open gateway in its own
lane. -/
structure Carries (d : Draft) (doc : Document) (t : Threads) : Prop where
  threads : ∀ lane v, (lane, v) ∈ t.threads →
    d.Settled v ∨ d.outermost? = some v ∧ ∃ e, doc.findLast? v = some e ∧ e.lane = lane
  cursor : ∀ v, t.cursor = some v → d.Settled v ∨ d.outermost? = some v ∧ doc.findLast? v ≠ none

theorem carries_empty (d : Draft) (doc : Document) : d.Carries doc {} where
  threads := by simp
  cursor := by simp

theorem Carries.mono (h : d.Carries doc t) (keep : ∀ {v}, d.Settled v → d'.Settled v)
    (outermost : d'.outermost? = d.outermost?) : d'.Carries doc t where
  threads lane v hv := (h.threads lane v hv).imp keep fun held => outermost ▸ held
  cursor v hv := (h.cursor v hv).imp keep fun held => outermost ▸ held

/-- Outside of all gateways the flow goes on at settled elements only. -/
theorem Carries.settled_of_holds (h : d.Carries doc t) (hg : d.gateways = []) {v : String}
    (hv : t.Holds v) : d.Settled v := by
  have outside : d.outermost? = none := by simp [outermost?, hg]
  obtain ⟨lane, hv⟩ | hv := hv
  · exact (h.threads lane v hv).resolve_right (by simp [outside])
  · exact (h.cursor v hv).resolve_right (by simp [outside])

theorem carries_finish {lane : String}
    (h : ∀ l v, (l, v) ∈ t.threads → l ≠ lane → d.Settled v) : d.Carries doc (t.finish lane) where
  threads l v hv := by
    obtain ⟨old, other⟩ := List.mem_filter.1 hv
    exact .inl (h l v old (by simpa using other))
  cursor v hv := by cases hv

theorem carries_advance {lane id : String}
    (h : ∀ l v, (l, v) ∈ t.threads → l ≠ lane → d.Settled v)
    (new : d.Settled id ∨ d.outermost? = some id ∧ ∃ e, doc.findLast? id = some e ∧ e.lane = lane) :
    d.Carries doc (t.advance lane id) where
  threads l v hv := by
    obtain same | hv := List.mem_cons.1 hv
    · obtain ⟨rfl, rfl⟩ := Prod.mk.inj same
      exact new
    · obtain ⟨old, other⟩ := List.mem_filter.1 hv
      exact .inl (h l v old (by simpa using other))
  cursor v hv := by
    obtain rfl := Option.some.inj hv
    exact new.imp_right fun ⟨outermost, e, found, _⟩ => ⟨outermost, by simp [found]⟩

/-- An element outside of all gateways is where the flow goes on. -/
theorem Carries.declared (h : d.Carries doc t) (hg : d.gateways = [])
    (keep : ∀ {v}, d.Settled v → d'.Settled v) {id : String}
    (new : d'.Settled id ∨ d'.outermost? = some id) :
    d'.Carries doc (t.step doc (.declared id)).1 := by
  have old (l v : String) (hv : (l, v) ∈ t.threads) := keep (h.settled_of_holds hg (.inl ⟨l, hv⟩))
  cases found : doc.findLast? id with
  | none =>
    simp only [Threads.step, found]
    exact ⟨fun l v hv => .inl (old l v hv),
      fun v hv => .inl (keep (h.settled_of_holds hg (.inr hv)))⟩
  | some e =>
    simp only [Threads.step, found, Threads.declare]
    split
    · exact carries_finish fun l v hv _ => old l v hv
    · refine carries_advance (fun l v hv _ => old l v hv) ?_
      rw [Threads.id_of_findLast? found]
      exact new.imp_right fun outermost => ⟨outermost, e, found, rfl⟩

/-- Behind an outermost gateway the flow goes on at its exit. -/
theorem Carries.gatewayClosed (h : d.Carries doc t) (keep : ∀ {v}, d.Settled v → d'.Settled v)
    {gateway : String} {exit : Option String} (outermost : d.outermost? = some gateway)
    (settled : ∀ v, exit = some v → d'.Settled v) :
    d'.Carries doc (t.step doc (.gatewayClosed gateway exit)).1 := by
  cases found : doc.findLast? gateway with
  | none =>
    simp only [Threads.step, found]
    refine ⟨fun l v hv => ?_, fun v hv => ?_⟩
    · obtain old | ⟨same, e, known, -⟩ := h.threads l v hv
      · exact .inl (keep old)
      · obtain rfl := Option.some.inj (outermost.symm.trans same)
        simp [found] at known
    · obtain old | ⟨same, known⟩ := h.cursor v hv
      · exact .inl (keep old)
      · obtain rfl := Option.some.inj (outermost.symm.trans same)
        exact absurd found known
  | some g =>
    -- The thread at the gateway is the one of its lane, which is replaced.
    have old (l v : String) (hv : (l, v) ∈ t.threads) (other : l ≠ g.lane) : d'.Settled v := by
      obtain old | ⟨same, e, known, lane⟩ := h.threads l v hv
      · exact keep old
      · obtain rfl := Option.some.inj (outermost.symm.trans same)
        obtain rfl := Option.some.inj (found.symm.trans known)
        exact absurd lane.symm other
    cases next : exit.bind doc.findLast? with
    | none =>
      simp only [Threads.step, found, next]
      exact carries_finish old
    | some e =>
      simp only [Threads.step, found, next]
      obtain ⟨v, hv, known⟩ := Option.bind_eq_some_iff.1 next
      refine carries_advance old (.inl ?_)
      rw [Threads.id_of_findLast? known]
      exact settled v hv

/-! ## Sources of edges -/

/-- An edge of the flow comes from a settled element or leads a gateway to a branch. -/
def Leads (d : Draft) (edge : Edge) : Prop :=
  edge.kind = .sequenceFlow →
    d.Settled edge.source ∨ ∃ k, d.IsBranchTask edge.source k edge.target

/-- The log of a draft: where it leaves the threads, and where its edges come from. -/
structure Threaded (d : Draft) (doc : Document) : Prop where
  carries : d.Carries doc (Threads.after doc {} d.events)
  leads : ∀ edge ∈ Threads.run doc {} d.events, d.Leads edge

theorem Leads.mono {edge : Edge} (h : d.Leads edge) (keep : ∀ {v}, d.Settled v → d'.Settled v)
    (later : d.Precedes d') : d'.Leads edge :=
  fun flow => (h flow).imp keep fun ⟨k, task⟩ => ⟨k, task.mono later⟩

/-- A change that logs nothing and leaves the outermost gateway. -/
theorem Threaded.unlogged (h : d.Threaded doc) (keep : ∀ {v}, d.Settled v → d'.Settled v)
    (later : d.Precedes d') (outermost : d'.outermost? = d.outermost?)
    (events : d'.events = d.events) : d'.Threaded doc where
  carries := by
    rw [events]
    exact h.carries.mono keep outermost
  leads := by
    rw [events]
    exact fun edge hedge => (h.leads edge hedge).mono keep later

/-- A change that logs an event. -/
theorem Threaded.logged (h : d.Threaded doc) (keep : ∀ {v}, d.Settled v → d'.Settled v)
    (later : d.Precedes d') {ev : Event} (events : d'.events = d.events ++ [ev])
    (carries : d'.Carries doc ((Threads.after doc {} d.events).step doc ev).1)
    (leads : ∀ edge, (Threads.after doc {} d.events).Draws ev edge → d'.Leads edge) :
    d'.Threaded doc where
  carries := by
    rw [events, Threads.after_append]
    exact carries
  leads := by
    intro edge hedge
    rw [events, Threads.run_append, List.mem_append] at hedge
    obtain old | new := hedge
    · exact (h.leads edge old).mono keep later
    · have drawn : ((Threads.after doc {} d.events).step doc ev).2 = some edge := by
        simpa [Threads.run] using new
      exact leads edge (Threads.draws_step drawn)

theorem Closes.threaded (h : Closes d d') (hr : d.Registered) (hs : d.Stacked) (hd : d.Settles)
    (ht : d.Threaded doc) : d'.Threaded doc := by
  have keep {v : String} (hv : d.Settled v) := h.settled hv
  have later := h.precedes
  have exit {g : OpenGateway} {outer : List OpenGateway} (hg : d.gateways = g :: outer)
    {v : String} (hv : g.exit = some v) := h.settled_exit hr hs hd hg hv
  cases h with
  | @inner g parent outer hg =>
    exact ht.unlogged keep later (by simp [outermost?, hg]) rfl
  | @last g hg =>
    refine ht.logged keep later rfl ?_ fun edge draws => by cases draws
    exact ht.carries.gatewayClosed keep (by simp [outermost?, hg]) fun v hv => exit hg hv

theorem Prepares.threaded (h : Prepares l d d') (hr : d.Registered) (hs : d.Stacked)
    (hd : d.Settles) (ht : d.Threaded doc) : d'.Threaded doc := by
  have keep {v : String} (hv : d.Settled v) := h.settled hv
  have later := h.precedes
  cases h with
  | warned | named | connected => exact ht.unlogged keep later rfl rfl
  | closed h => exact h.threaded hr hs hd ht
  | entered name =>
    refine ht.unlogged keep later (by simp [outermost?, openLane_gateways]) ?_
    unfold openLane
    split <;> rfl
  | broken =>
    exact ht.logged keep later rfl (carries_empty _ doc) fun edge draws => by cases draws

theorem Threaded.messages (h : d.Threaded doc) (keep : ∀ {v}, d.Settled v → d'.Settled v)
    (later : d.Precedes d') (outermost : d'.outermost? = d.outermost?) {paired : List Event}
    (messages : ∀ ev ∈ paired, ∃ sender receiver label, ev = .messagePaired sender receiver label)
    (events : d'.events = d.events ++ paired) : d'.Threaded doc where
  carries := by
    rw [events, Threads.after_append, Threads.after_of_messages messages]
    exact h.carries.mono keep outermost
  leads := by
    intro edge hedge flow
    rw [events, Threads.run_append, List.mem_append] at hedge
    obtain old | new := hedge
    · exact (h.leads edge old).mono keep later flow
    · rw [Threads.kind_of_messages messages edge new] at flow
      cases flow

/-- A change that declares an element outside of all gateways. -/
theorem Threaded.declared (h : d.Threaded doc) (keep : ∀ {v}, d.Settled v → d'.Settled v)
    (later : d.Precedes d') (hg : d.gateways = []) {id : String}
    (events : d'.events = d.events ++ [.declared id])
    (new : d'.Settled id ∨ d'.outermost? = some id) : d'.Threaded doc := by
  refine h.logged keep later events (h.carries.declared hg keep new) ?_
  intro edge draws
  cases draws with
  | declared _ held => exact fun _ => .inl (keep (h.carries.settled_of_holds hg held))

/-- A change that lets the innermost branch go on at an element. -/
theorem Threaded.branchStep (h : d.Threaded doc) (keep : ∀ {v}, d.Settled v → d'.Settled v)
    (later : d.Precedes d') (outermost : d'.outermost? = d.outermost?) {after : Option String}
    {id : String} (events : d'.events = d.events ++ [.branchStep after id])
    (settled : ∀ v, after = some v → d.Settled v) : d'.Threaded doc := by
  refine h.logged keep later events (h.carries.mono keep outermost) ?_
  intro edge draws
  cases draws with
  | branchStep source => exact fun _ => .inl (keep (settled source rfl))

theorem Declares.threaded (h : Declares l d d') (hr : d.Registered) (hs : d.Stacked)
    (hd : d.Settles) (ht : d.Threaded doc) : d'.Threaded doc := by
  have keep {v : String} (hv : d.Settled v) := h.settled hr hs hv
  have later := h.precedes
  cases h with
  | @node lane label kind hl hk hg =>
    let e := d.newElement lane l label kind
    let d₁ : Draft := { d.addNode lane l label kind with
      events := d.events ++ [flowEvent d.gateways e] }
    have keep' {v : String} (hv : d.Settled v) : d₁.Settled v := keep hv
    have later' : d.Precedes d₁ := ⟨later.elements, later.lanes⟩
    have first : d₁.Threaded doc := by
      cases stack : d.gateways with
      | nil =>
        have event : d₁.events = d.events ++ [.declared e.id] := by simp [d₁, stack, flowEvent]
        have new : d₁.Settled e.id ∨ d₁.outermost? = some e.id := by
          by_cases gateway : ∃ branches, kind = .gateway branches
          · obtain ⟨branches, rfl⟩ := gateway
            refine .inr ((outermost?_addNode ..).trans ?_)
            simp [outermost?, stack, openedBy, newElement, e]
          · exact .inl (settled_addNode hr hs lane l hk fun branches h => gateway ⟨branches, h⟩)
        exact ht.declared keep' later' stack event new
      | cons g outer =>
        obtain ⟨b, body⟩ := Option.ne_none_iff_exists'.1 (hg g outer stack).2
        have event : d₁.events = d.events ++ [.branchStep b.tail e.id] := by
          obtain ⟨id, slot, depth, branches, body', continuation⟩ := g
          cases body
          simp [d₁, stack, flowEvent]
        have outermost : d₁.outermost? = d.outermost? :=
          (outermost?_addNode ..).trans (by simp [outermost?, stack, List.getLast?_cons])
        exact ht.branchStep keep' later' outermost event fun v hv =>
          hd.tail g outer b v stack body hv
    have events : (d.addNode lane l label kind).events = d₁.events ++ pairing d.waiting l e := by
      simp [d₁, e]
    exact first.messages id (precedes_of_elements_eq rfl (List.prefix_refl _)) rfl
      (fun ev => messages_pairing) events
  | @branch lane g outer sign label text hl hg =>
    refine ht.logged keep later (addBranch_events ..) ?_ ?_
    · exact ht.carries.mono keep (by simp [outermost?, hg])
    · intro edge draws
      cases draws
      exact fun _ => .inr ⟨_, hs.isBranchTask hg⟩
  | aside => exact ht.unlogged keep later rfl rfl

end Draft

namespace Outline

open Draft

theorem threaded_finished (defaultLane : String) (lines : List Line) (doc : Document) :
    (finished defaultLane lines).Threaded doc := by
  have empty : Threaded {} doc := ⟨carries_empty {} doc, by simp [Threads.run]⟩
  let P (d : Draft) : Prop := d.Registered ∧ d.Stacked ∧ d.Settles ∧ d.Threaded doc
  have run : P (draft defaultLane lines) := by
    refine draft_invariant defaultLane
      ⟨registered_empty, stacked_of_nil rfl, settles_of_nil rfl, empty⟩ ?_ ?_
    · rintro l - d d' h ⟨hr, hs, hd, ht⟩
      exact ⟨h.registered hr, h.stacked hs, h.settles hr hs hd, h.threaded hr hs hd ht⟩
    · rintro l - d d' h ⟨hr, hs, hd, ht⟩
      exact ⟨h.registered hr, h.stacked hs, h.settles hr hs hd, h.threaded hr hs hd ht⟩
  have closed : P (finished defaultLane lines) := by
    refine finished_invariant defaultLane ?_ run
    rintro d d' h ⟨hr, hs, hd, ht⟩
    exact ⟨h.registered hr, h.stacked hs, h.settles hr hs hd, h.threaded hr hs hd ht⟩
  exact closed.2.2.2

end Outline

/-! ## Boundaries -/

/-- An edge leads from a gateway into one of its branches. -/
def Document.Enters (ctx : Element → Context) (x y : Element) : Prop :=
  ∃ k branch, x.branches[k]? = some branch ∧ branch.task = y.id ∧ ctx y = ctx x ++ [(x.id, k + 1)]

/-- The branch of a number is the first positive one of a gateway. -/
def Document.IsFirstPositive (doc : Document) (p : String × Nat) : Prop :=
  ∃ e ∈ doc.laneElements, e.id = p.1 ∧ ∃ ended branch rest, e.branches = ended ++ branch :: rest ∧
    ended.length + 1 = p.2 ∧ branch.sign = .positive ∧ ∀ b ∈ ended, b.sign = .negative

/-- An edge stays where it is or leaves branches, each the first positive one of its gateway. -/
def Document.Leaves (doc : Document) (ctx : Element → Context) (x y : Element) : Prop :=
  ∃ p, ctx x = ctx y ++ p ∧ ∀ q ∈ p, doc.IsFirstPositive q

/-- The edges of a log fit the contexts, if its events do. -/
theorem Threads.fits_of_mem_run {doc : Document} {d D : Draft} {ctx : String → Context}
    (h : d.Located D ctx) : ∀ edge ∈ run doc {} d.events, edge.kind = .sequenceFlow →
      (∃ k, D.IsBranchTask edge.source k edge.target ∧
        ctx edge.target = ctx edge.source ++ [(edge.source, k)]) ∨
      Reaches D ctx edge.source (ctx edge.target) := by
  refine run_forall (P := fun v => Reaches D ctx v []) (fun v hv => absurd hv (not_holds_empty v))
    ?_ ?_ ?_
  · exact fun v hv => reaches_of_eq (h.events _ hv)
  · exact fun gateway v hv => h.events _ hv v rfl
  · intro t ht ev hev edge draws flow
    have located := h.events ev hev
    cases draws with
    | declared id held =>
      have outside : ctx id = [] := located
      exact .inr (outside ▸ ht _ held)
    | branchOpened gateway task label => exact .inl located
    | branchStep source id => exact .inr (located source rfl)
    | messagePaired sender receiver label => cases flow

/-- No edge that the log draws jumps across the boundary of a gateway, and a gateway that has
branches leads to their tasks only. -/
theorem Outline.implicit_edges_respect_gateways (options : ReadOptions) (text : String)
    (o : Outline) (h : ofText options text = .ok o) :
    let ctx := branchContext options.defaultLane (scan options.maxDepth text).lines
    ∀ edge ∈ Threads.run o.document {} o.events, edge.kind = .sequenceFlow →
      ∃ x ∈ o.document.laneElements, ∃ y ∈ o.document.laneElements,
        x.id = edge.source ∧ y.id = edge.target ∧
        (Document.Enters ctx x y ∨ o.document.Leaves ctx x y) ∧
        (x.branches ≠ [] → y.id ∈ x.branchTasks) := by
  intro ctx edge hedge flow
  obtain ⟨document, events, -⟩ := ofText_eq_ok h
  have numbers := scan_numbers_pairwise options.maxDepth text
  have registered := registered_finished options.defaultLane (scan options.maxDepth text).lines
  have grounded := grounded_finished options.defaultLane (scan options.maxDepth text).lines
  have threaded := threaded_finished options.defaultLane (scan options.maxDepth text).lines
  have located := located_finished options.defaultLane numbers
    (fun id => (o.document.findLast? id).elim [] ctx) fun e he => by
      rw [document, (Draft.findLast?_eq_some registered).2 ⟨he, rfl⟩]
      rfl
  generalize finished options.defaultLane (scan options.maxDepth text).lines = D at *
  rw [document] at hedge located ⊢
  rw [events] at hedge
  -- The ends of the edge, and the one element that has the id of its source.
  obtain ⟨-, ⟨x, hx, source, -⟩, y, hy, target, -⟩ := Threads.hasNode_of_mem_run grounded edge hedge
  have found (e : Element) (he : e ∈ D.elements) : D.document.findLast? e.id = some e :=
    (Draft.findLast?_eq_some registered).2 ⟨he, rfl⟩
  have only (e : Element) (he : e ∈ D.elements) (hid : e.id = edge.source) : e = x :=
    List.inj_on_of_nodup_map registered.elementIds_nodup he hx (hid.trans source.symm)
  refine ⟨x, (Draft.mem_laneElements registered).2 hx, y,
    (Draft.mem_laneElements registered).2 hy, source, target, ?_, fun branches => ?_⟩
  · have fits := Threads.fits_of_mem_run located edge hedge flow
    simp only [Reaches, ← source, ← target, found x hx, found y hy, Option.elim_some] at fits
    obtain ⟨k, ⟨e, he, hid, branch, place, task, pos⟩, context⟩ | ⟨p, context, first⟩ := fits
    · obtain rfl := only e he (hid.trans source)
      refine .inl ⟨k - 1, branch, place, task, ?_⟩
      rwa [Nat.sub_add_cancel pos]
    · refine .inr ⟨p, context, fun q hq => ?_⟩
      simpa only [Document.IsFirstPositive, Draft.IsFirstPositive,
        Draft.mem_laneElements registered] using first q hq
  · obtain ⟨⟨e, he, hid, unbranched⟩, -⟩ | ⟨k, e, he, hid, branch, place, task, -⟩ :=
      (threaded D.document).leads edge hedge flow
    · exact absurd (only e he hid ▸ unbranched) branches
    · obtain rfl := only e he hid
      exact List.mem_map.2 ⟨branch, List.mem_of_getElem? place, task.trans target.symm⟩

/-- Behind two nested gateways the flow goes on from the first positive branch of the inner one,
which leaves both. -/
theorem Outline.implicit_edges_respect_gateways_nested :
    ∃ o, ofText {} "?a\n  +x\n    ?b\n      +y\n      -n\nz" = .ok o ∧
      let ctx := branchContext "Default" (scan 64 "?a\n  +x\n    ?b\n      +y\n      -n\nz").lines
      o.document.elements.map (fun e => (e.id, ctx e)) =
        [("default_a", []), ("default_x", [("default_a", 1)]), ("default_b", [("default_a", 1)]),
          ("default_y", [("default_a", 1), ("default_b", 1)]),
          ("default_n", [("default_a", 1), ("default_b", 2)]), ("default_z", [])] ∧
      ∃ x ∈ o.document.laneElements, ∃ y ∈ o.document.laneElements,
        x.id = "default_y" ∧ y.id = "default_z" ∧
        (Document.Enters ctx x y ∨ o.document.Leaves ctx x y) ∧
        (x.branches ≠ [] → y.id ∈ x.branchTasks) := by
  have read : ofText {} "?a\n  +x\n    ?b\n      +y\n      -n\nz" = .ok _ := rfl
  exact ⟨_, read, by decide +kernel, implicit_edges_respect_gateways {} _ _ read
    { kind := .sequenceFlow, source := "default_y", target := "default_z" }
    (by decide +kernel) rfl⟩

end Swimlane
