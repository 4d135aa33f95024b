import Swimlane.Proofs.Outline.Change

/-!
# Closing gateways by depth

Gateways are closed late: a statement closes what the statements before it have left open. So a
draft is best looked at with all gateways of a depth and deeper closed. This module says how such
closings compose and which of them the lines of a script make.

## Main definitions

* `Draft.close`: closes the gateways from a depth on.

## Main statements

* `Draft.closeGateways_closeGateways`: a closing swallows a smaller one before it;
* `Draft.closeGateways_top`, `Draft.closeGateways_statement`, `Draft.closeGateways_branch`: what a
  line in its place closes.
-/

namespace Swimlane

theorem OpenGateway.unwind_of_not {closes : OpenGateway → Bool} {g : OpenGateway}
    (h : closes g = false) (outer : List OpenGateway) :
    unwind closes g outer = (g :: outer, none) := by
  cases outer <;> simp [unwind, h]

/-- Closing logs nothing while gateways are left. -/
theorem OpenGateway.unwind_snd {closes : OpenGateway → Bool} {g : OpenGateway}
    {outer : List OpenGateway} (h : (unwind closes g outer).1 ≠ []) :
    (unwind closes g outer).2 = none := by
  induction outer generalizing g with
  | nil =>
    by_cases hc : closes g = true
    · simp [unwind, hc] at h
    · simp [unwind, hc]
  | cons parent outer ih =>
    by_cases hc : closes g = true
    · simp only [unwind, hc, if_true] at h ⊢
      exact ih h
    · simp [unwind, hc]

namespace Draft

variable {d : Draft} {p q : OpenGateway → Bool} {g parent : OpenGateway} {outer : List OpenGateway}

theorem closeGateways_of_nil (h : d.gateways = []) : d.closeGateways p = d := by
  simp [closeGateways, h]

theorem closeGateways_of_not (h : d.gateways = g :: outer) (hp : p g = false) :
    d.closeGateways p = d := by
  have same : d.closeGateways p = { d with gateways := g :: outer } := by
    simp [closeGateways, h, OpenGateway.unwind_of_not hp]
  rw [same, ← h]

theorem closeGateways_inner (h : d.gateways = g :: parent :: outer) (hp : p g = true) :
    d.closeGateways p =
      closeGateways { d with gateways := parent.setTail g.exit :: outer } p := by
  simp [closeGateways, h, OpenGateway.unwind, hp]

theorem closeGateways_last (h : d.gateways = [g]) (hp : p g = true) :
    d.closeGateways p =
      { d with gateways := [], events := d.events ++ [.gatewayClosed g.id g.exit] } := by
  simp [closeGateways, h, OpenGateway.unwind, hp]

/-- While gateways are left, closing changes nothing but the stack. -/
theorem closeGateways_eq_of_cons (h : (d.closeGateways p).gateways = g :: outer) :
    d.closeGateways p = { d with gateways := g :: outer } := by
  unfold closeGateways at h ⊢
  cases hg : d.gateways with
  | nil => simp [hg] at h
  | cons first rest =>
    simp only [hg] at h
    have unwound := OpenGateway.unwind_snd (h ▸ List.cons_ne_nil g outer)
    simp [h, unwound]

/-- A closing swallows a smaller one before it. -/
theorem closeGateways_closeGateways (h : ∀ g, p g = true → q g = true) :
    (d.closeGateways p).closeGateways q = d.closeGateways q := by
  -- Along the stack: as long as the smaller closing goes on, so does the larger one.
  generalize size : d.gateways.length = n
  induction n generalizing d with
  | zero => rw [closeGateways_of_nil (List.length_eq_zero_iff.1 size)]
  | succ n ih =>
    obtain ⟨g, outer, hg⟩ := List.exists_cons_of_length_eq_add_one size
    by_cases hp : p g = true
    · cases outer with
      | nil =>
        rw [closeGateways_last hg hp, closeGateways_last hg (h g hp), closeGateways_of_nil rfl]
      | cons parent outer =>
        rw [closeGateways_inner hg hp, closeGateways_inner hg (h g hp)]
        exact ih (by simpa [hg] using size)
    · rw [closeGateways_of_not hg (by simpa using hp)]

/-- Two closings are the same, if one goes on where the other does and stops where it stops. -/
theorem closeGateways_congr (h : ∀ g, p g = true → q g = true)
    (stack : (d.closeGateways p).gateways = g :: outer) (hq : q g = false) :
    d.closeGateways q = d.closeGateways p := by
  rw [← closeGateways_closeGateways h, closeGateways_of_not stack hq]

/-! ## Closing from a depth on -/

/-- Closes the gateways that stand at a depth or deeper. -/
def close (d : Draft) (depth : Nat) : Draft := d.closeGateways fun g => depth ≤ g.depth

theorem close_of_nil (h : d.gateways = []) (depth : Nat) : d.close depth = d :=
  closeGateways_of_nil h

theorem close_of_lt {depth : Nat} (h : d.gateways = g :: outer) (hg : g.depth < depth) :
    d.close depth = d :=
  closeGateways_of_not h (by simpa using hg)

theorem close_eq_of_cons {depth : Nat} (h : (d.close depth).gateways = g :: outer) :
    d.close depth = { d with gateways := g :: outer } :=
  closeGateways_eq_of_cons h

theorem close_close {m n : Nat} (h : m ≤ n) : (d.close n).close m = d.close m :=
  closeGateways_closeGateways fun g hg => by
    have : n ≤ g.depth := by simpa using hg
    simpa using Nat.le_trans h this

theorem close_inner {depth : Nat} (h : d.gateways = g :: parent :: outer) (hg : depth ≤ g.depth)
    (hp : parent.depth < depth) :
    d.close depth = { d with gateways := parent.setTail g.exit :: outer } := by
  rw [close, closeGateways_inner h (by simpa using hg)]
  exact closeGateways_of_not rfl (decide_eq_false (Nat.not_le_of_lt hp))

theorem close_last {depth : Nat} (h : d.gateways = [g]) (hg : depth ≤ g.depth) :
    d.close depth =
      { d with gateways := [], events := d.events ++ [.gatewayClosed g.id g.exit] } :=
  closeGateways_last h (by simpa using hg)

/-- All gateways are closed. -/
theorem close_zero_gateways (d : Draft) : (d.close 0).gateways = [] :=
  closeGateways_eq_nil d fun g => by simp

/-! ## What lines close -/

/-- Outside of all gateways a line of a lane, a break or a statement closes all. -/
theorem closeGateways_top {kind : Sigil}
    (h : kind = .lane ∨ kind = .connectionBreak ∨ kind.declaresFlowNode = true) :
    d.closeGateways (OpenGateway.closedBy kind 0) = d.close 0 := by
  have all : OpenGateway.closedBy kind 0 = fun g => decide (0 ≤ g.depth) := by
    funext g
    obtain rfl | rfl | h := h
    · simp [OpenGateway.closedBy]
    · simp [OpenGateway.closedBy]
    · cases kind <;> simp_all [OpenGateway.closedBy, Sigil.declaresFlowNode]
  rw [all, close]

/-- In a branch a statement closes the gateways of its depth. -/
theorem closeGateways_statement {kind : Sigil} (hk : kind.declaresFlowNode = true) {depth : Nat}
    (stack : (d.close depth).gateways = g :: outer) (hg : g.depth < depth) (hb : g.body ≠ none) :
    d.closeGateways (OpenGateway.closedBy kind depth) = d.close depth := by
  have body : g.body.isNone = false := by simpa [Option.isSome_iff_ne_none] using hb
  refine closeGateways_congr (fun o ho => ?_) stack ?_
  · have deep : depth ≤ o.depth := by simpa using ho
    cases kind <;> simp_all [OpenGateway.closedBy, Sigil.declaresFlowNode]
  · cases kind <;> simp_all [OpenGateway.closedBy, Sigil.declaresFlowNode]

/-- A branch closes the gateways that are deeper than itself. -/
theorem closeGateways_branch (sign : Sign) (depth : Nat) :
    d.closeGateways (OpenGateway.closedBy (.branch sign) depth) = d.close (depth + 1) := rfl

end Draft

end Swimlane
