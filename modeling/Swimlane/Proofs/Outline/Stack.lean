import Swimlane.Proofs.Outline.Growth

/-!
# The stack of open gateways

An open gateway stands for an element of the draft. What it remembers agrees with the branches of
that element: their number, the sign of the branch that is read, and whether a positive branch has
ended before. Gateways further in are declared later and stand deeper, and all but the innermost
have a branch that is read.

## Main statements

* `OpenGateway.Shows`: what an open gateway remembers of its branches;
* `Draft.Stacked`: the invariant of the stack, kept by every change.
-/

namespace Swimlane

namespace OpenGateway

/-- An open gateway agrees with its branches: it counts them, reads the last one, and has a
continuation once a positive branch before the last one has ended. -/
structure Shows (g : OpenGateway) (branches : List Branch) : Prop where
  count : branches.length = g.branches
  body : g.body.map (·.sign) = branches.getLast?.map (·.sign)
  pending : g.continuation = none ↔ ∀ b ∈ branches.dropLast, b.sign = .negative

variable {g : OpenGateway} {branches : List Branch}

theorem Shows.setTail (h : g.Shows branches) (t : Option String) :
    (g.setTail t).Shows branches where
  count := h.count
  body := by simpa [Function.comp_def] using h.body
  pending := h.pending

theorem Shows.body_eq_none_iff (h : g.Shows branches) : g.body = none ↔ branches = [] := by
  have body := h.body
  cases hb : g.body with
  | none =>
    rw [hb] at body
    simpa using body.symm
  | some b =>
    have : branches ≠ [] := by
      rintro rfl
      simp [hb] at body
    simp [this]

/-- The branch that is read is the last one. -/
theorem Shows.eq_append_of_body (h : g.Shows branches) {b : BranchBody} (hb : g.body = some b) :
    ∃ ended last, branches = ended ++ [last] ∧ last.sign = b.sign ∧ ended.length + 1 = g.branches ∧
      (g.continuation = none ↔ ∀ x ∈ ended, x.sign = .negative) := by
  obtain ⟨last, hl⟩ : ∃ last, branches.getLast? = some last := by
    cases hl : branches.getLast? with
    | none => simpa [hb, hl] using h.body
    | some last => exact ⟨last, rfl⟩
  obtain ⟨ended, rfl⟩ := List.getLast?_eq_some_iff.1 hl
  exact ⟨ended, last, rfl, by simpa [hb] using h.body.symm, by simpa using h.count,
    by simpa using h.pending⟩

/-- Ending the branch that is read, the first positive one fixes the continuation. -/
theorem Shows.finishBody_continuation (h : g.Shows branches) :
    g.finishBody.continuation = none ↔ ∀ b ∈ branches, b.sign = .negative := by
  cases hb : g.body with
  | none =>
    have unbranched := (h.body_eq_none_iff).1 hb
    have pending := h.pending
    simp_all [finishBody]
  | some b =>
    obtain ⟨ended, last, rfl, sign, -, pending⟩ := h.eq_append_of_body hb
    obtain ⟨sign', tail⟩ := b
    cases hc : g.continuation <;> cases sign' <;> simp_all [finishBody]
    grind

theorem Shows.startBody (h : g.Shows branches) (branch : Branch) (task : String) :
    (g.startBody branch.sign task).Shows (branches ++ [branch]) where
  count := by simp [h.count]
  body := by simp
  pending := by simpa using h.finishBody_continuation

end OpenGateway

namespace Draft

/-- The open gateway stands for a gateway of the current lane and agrees with its branches. -/
def Stands (d : Draft) (g : OpenGateway) : Prop :=
  ∃ e branches, d.elements[g.slot]? = some e ∧ e.id = g.id ∧ e.kind = .gateway branches ∧
    g.Shows branches ∧ d.current.map (·.id) = some e.lane

/-- The open gateways, innermost first. -/
structure Stacked (d : Draft) : Prop where
  stands : ∀ g ∈ d.gateways, d.Stands g
  slots : d.gateways.Pairwise fun inner outer => outer.slot < inner.slot
  depths : d.gateways.Pairwise fun inner outer => outer.depth < inner.depth
  bodies : ∀ g ∈ d.gateways.tail, g.body ≠ none

theorem stacked_of_nil {d : Draft} (h : d.gateways = []) : d.Stacked where
  stands := by simp [h]
  slots := by simp [h]
  depths := by simp [h]
  bodies := by simp [h]

/-- Only elements, open gateways and the current lane matter. -/
theorem Stacked.congr {d d' : Draft} (hd : d.Stacked) (elements : d'.elements = d.elements)
    (current : d'.current = d.current) (gateways : d'.gateways = d.gateways) : d'.Stacked where
  stands := fun g hg => by
    simpa only [Stands, elements, current] using hd.stands g (gateways ▸ hg)
  slots := gateways ▸ hd.slots
  depths := gateways ▸ hd.depths
  bodies := gateways ▸ hd.bodies

theorem Stands.setTail {d : Draft} {g : OpenGateway} (h : d.Stands g) (t : Option String) :
    d.Stands (g.setTail t) := by
  obtain ⟨e, branches, slot, id, kind, shows', lane⟩ := h
  exact ⟨e, branches, slot, id, kind, shows'.setTail t, lane⟩

theorem Stands.append {d d' : Draft} {g : OpenGateway} (h : d.Stands g) {e : Element}
    (elements : d'.elements = d.elements ++ [e]) (current : d'.current = d.current) :
    d'.Stands g := by
  obtain ⟨x, branches, slot, id, kind, shows', lane⟩ := h
  exact ⟨x, branches, elements ▸ getElem?_append_of_some slot _, id, kind, shows', current ▸ lane⟩

/-- Replacing the tail of the innermost gateway changes nothing that the stack depends on. -/
theorem Stacked.setHead {d : Draft} {g : OpenGateway} {outer : List OpenGateway} (hd : d.Stacked)
    (hg : ∃ inner, d.gateways = inner ++ g :: outer) (t : Option String) :
    Stacked { d with gateways := g.setTail t :: outer } := by
  obtain ⟨inner, hg⟩ := hg
  have slots := hd.slots
  have depths := hd.depths
  rw [hg] at slots depths
  have slots := (List.pairwise_append.1 slots).2.1
  have depths := (List.pairwise_append.1 depths).2.1
  refine
    { stands := ?_
      slots := List.Pairwise.cons (fun o ho => List.rel_of_pairwise_cons slots ho) slots.of_cons
      depths := List.Pairwise.cons (fun o ho => List.rel_of_pairwise_cons depths ho) depths.of_cons
      bodies := ?_ }
  · intro o ho
    obtain rfl | ho := List.mem_cons.1 ho
    · exact (hd.stands g (by simp [hg])).setTail t
    · exact hd.stands o (by simp [hg, ho])
  · intro o ho
    refine hd.bodies o ?_
    cases inner with
    | nil => simpa [hg] using ho
    | cons x xs =>
      rw [hg, List.cons_append, List.tail_cons]
      exact List.mem_append_right _ (List.mem_cons_of_mem _ ho)

theorem Closes.stacked {d d' : Draft} (h : Closes d d') (hd : d.Stacked) : d'.Stacked := by
  cases h with
  | @inner g parent outer hg => exact hd.setHead ⟨[g], hg⟩ _
  | last => exact stacked_of_nil rfl

theorem Prepares.stacked {l : Line} {d d' : Draft} (h : Prepares l d d') (hd : d.Stacked) :
    d'.Stacked := by
  cases h with
  | warned | named | broken | connected => exact { hd with }
  | closed h => exact h.stacked hd
  | entered name hg => exact stacked_of_nil ((openLane_gateways d name).trans hg)

/-- Behind an element of the flow the stack is as before, but for the tail of its innermost
branch. -/
theorem Stacked.follow {d : Draft} (hd : d.Stacked) (e : Element) :
    Stacked { d with gateways := Draft.follow d.gateways e } := by
  unfold Draft.follow
  cases hg : d.gateways with
  | nil => exact stacked_of_nil rfl
  | cons g outer => exact hd.setHead ⟨[], hg⟩ _

theorem Stacked.declare {d d' : Draft} (hd : d.Stacked) {e : Element}
    (elements : d'.elements = d.elements ++ [e]) (current : d'.current = d.current)
    (gateways : d'.gateways = d.gateways) : d'.Stacked where
  stands := fun g hg => (hd.stands g (gateways ▸ hg)).append elements current
  slots := gateways ▸ hd.slots
  depths := gateways ▸ hd.depths
  bodies := gateways ▸ hd.bodies

theorem Stacked.slot_lt {d : Draft} (hd : d.Stacked) {g : OpenGateway} (hg : g ∈ d.gateways) :
    g.slot < d.elements.length := by
  obtain ⟨e, -, slot, -⟩ := hd.stands g hg
  exact (List.getElem?_eq_some_iff.1 slot).1

/-- A new gateway goes on top of a stack whose innermost gateway stands less deep and is in a
branch. -/
theorem Stacked.push {d : Draft} (hd : d.Stacked) {e : Element} (depth : Nat)
    (element : d.elements[e.order]? = some e) (kind : e.kind = .gateway [])
    (lane : d.current.map (·.id) = some e.lane) (slots : ∀ g ∈ d.gateways, g.slot < e.order)
    (top : ∀ g outer, d.gateways = g :: outer → g.depth < depth ∧ g.body ≠ none) :
    Stacked { d with gateways := { id := e.id, slot := e.order, depth } :: d.gateways } := by
  refine
    { stands := ?_
      slots := List.Pairwise.cons slots hd.slots
      depths := List.Pairwise.cons ?_ hd.depths
      bodies := ?_ }
  · intro g hg
    obtain rfl | hg := List.mem_cons.1 hg
    · exact ⟨e, [], element, rfl, kind, ⟨rfl, rfl, by simp⟩, lane⟩
    · exact hd.stands g hg
  · intro g hg
    cases hs : d.gateways with
    | nil => simp [hs] at hg
    | cons first outer =>
      have above := (top first outer hs).1
      have depths := hd.depths
      rw [hs] at hg depths
      obtain rfl | hg := List.mem_cons.1 hg
      · exact above
      · exact Nat.lt_trans (List.rel_of_pairwise_cons depths hg) above
  · intro g hg
    change g ∈ d.gateways at hg
    cases hs : d.gateways with
    | nil => simp [hs] at hg
    | cons first outer =>
      rw [hs] at hg
      obtain rfl | hg := List.mem_cons.1 hg
      · exact (top g outer hs).2
      · exact hd.bodies g (by simpa [hs] using hg)

/-- A new branch is the one that is read from then on. -/
theorem Stacked.branch {d : Draft} (hd : d.Stacked) {lane : LaneHeader} (l : Line)
    {g : OpenGateway} {outer : List OpenGateway} (sign : Sign) (label : Option String)
    (text : String) (hg : d.gateways = g :: outer) :
    (d.addBranch lane l g outer sign label text).Stacked := by
  have slots := hd.slots
  have depths := hd.depths
  rw [hg] at slots depths
  refine
    { stands := ?_
      slots := ?_
      depths := ?_
      bodies := ?_ }
  · intro o ho
    rw [addBranch_gateways] at ho
    obtain rfl | ho := List.mem_cons.1 ho
    · obtain ⟨e, branches, slot, id, kind, shows', lane'⟩ := hd.stands g (by simp [hg])
      let b := d.newBranch lane l sign label text
      refine ⟨e.addBranch b, branches ++ [b], ?_, ?_, ?_, shows'.startBody b _, ?_⟩
      · simp [getElem?_append_of_some slot, b]
      · simpa [Element.addBranch] using id
      · simp [Element.addBranch, kind, ElementKind.addBranch]
      · simpa [Element.addBranch] using lane'
    · obtain ⟨e, branches, slot, id, kind, shows', lane'⟩ := hd.stands o (by simp [hg, ho])
      have apart : g.slot ≠ o.slot := Nat.ne_of_gt (List.rel_of_pairwise_cons slots ho)
      refine ⟨e, branches, ?_, id, kind, shows', by simpa using lane'⟩
      rw [addBranch_elements, List.getElem?_modify_ne _ _ apart, getElem?_append_of_some slot]
  · rw [addBranch_gateways]
    exact List.Pairwise.cons (fun o ho => by simpa using List.rel_of_pairwise_cons slots ho)
      slots.of_cons
  · rw [addBranch_gateways]
    exact List.Pairwise.cons (fun o ho => by simpa using List.rel_of_pairwise_cons depths ho)
      depths.of_cons
  · intro o ho
    rw [addBranch_gateways] at ho
    exact hd.bodies o (by simpa [hg] using ho)

theorem Declares.stacked {l : Line} {d d' : Draft} (h : Declares l d d') (hd : d.Stacked) :
    d'.Stacked := by
  cases h with
  | @node lane label kind hl hk hg =>
    let e := d.newElement lane l label kind
    have declared : Stacked { d with elements := d.elements ++ [e] } :=
      hd.declare (e := e) rfl rfl rfl
    have followed := declared.follow e
    by_cases gateway : ∃ branches, kind = .gateway branches
    · obtain ⟨branches, rfl⟩ := gateway
      obtain rfl : branches = [] := hk
      have element : (d.elements ++ [e])[e.order]? = some e := by simp [e, newElement]
      have pushed := followed.push l.depth element rfl (by simp [hl, e, newElement])
        (fun g hg => ?_) fun g outer h => ?_
      · exact pushed.congr (by simp [e]) (by simp) (by simp [openedBy, e, newElement])
      · obtain ⟨o, ho, rfl | rfl⟩ := mem_follow hg
        · exact hd.slot_lt ho
        · exact hd.slot_lt (g := o) ho
      · cases hs : d.gateways with
        | nil => simp [Draft.follow, hs] at h
        | cons first rest =>
          simp only [Draft.follow, hs, List.modifyHead_cons, List.cons.injEq] at h
          obtain ⟨rfl, rfl⟩ := h
          simpa using hg first rest hs
    · refine followed.congr (by simp [e]) (by simp) ?_
      have unopened : openedBy l e = [] :=
        openedBy_eq_nil fun branches h => gateway ⟨branches, h⟩
      rw [addNode_gateways, unopened, List.nil_append]
  | branch sign label text _ hg => exact hd.branch l sign label text hg
  | aside => exact hd.declare rfl rfl rfl

end Draft

namespace Outline

open Draft

theorem stacked_draft (defaultLane : String) (lines : List Line) :
    (draft defaultLane lines).Stacked :=
  draft_invariant defaultLane (stacked_of_nil rfl) (fun _ _ _ _ h => h.stacked)
    fun _ _ _ _ h => h.stacked

end Outline

end Swimlane
