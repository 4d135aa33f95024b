import Swimlane.Proofs.Indentation
import Swimlane.Proofs.Source.Comment

/-!
# Comments

A comment states nothing, so that it can be left out of the lines of a draft. What it changes, it
changes by its indentation. A text with a comment that fits is read as the same graph as the text
without it.

## Main statements

* `Outline.draft_filter`: comments can be left out;
* `ProcessGraph.ofText_insertComment`: the comments that change nothing.
-/

namespace Swimlane

/-! ## Drafts -/

theorem Draft.consume_comment (defaultLane : String) (d : Draft) {l : Line}
    (h : l.kind = .comment) : d.consume defaultLane l = d := by
  have open' : d.closeGateways (OpenGateway.closedBy l.kind l.depth) = d := by
    rw [h]
    unfold closeGateways
    split
    · rfl
    · next g outer gateways =>
      have left : OpenGateway.unwind (OpenGateway.closedBy .comment l.depth) g outer =
          (g :: outer, none) := by
        cases outer <;> rfl
      simp [left, ← gateways]
  rw [consume, open', Statement.ofLine_eq_comment.2 h]
  rfl

/-- Comments can be left out. -/
theorem Outline.draft_filter (defaultLane : String) {keep : Line → Bool} {lines : List Line}
    (h : ∀ l ∈ lines, keep l = false → l.kind = .comment) :
    draft defaultLane (lines.filter keep) = draft defaultLane lines := by
  suffices run : ∀ d : Draft, d.run defaultLane (lines.filter keep) = d.run defaultLane lines from
    run {}
  induction lines with
  | nil => exact fun _ => rfl
  | cons l ls ih =>
    intro d
    have rest := ih fun l hl => h l (by simp [hl])
    cases hl : keep l with
    | true => rw [List.filter_cons_of_pos hl, Draft.run_cons, Draft.run_cons, rest]
    | false =>
      rw [List.filter_cons_of_neg (by simp [hl]), Draft.run_cons,
        Draft.consume_comment defaultLane d (h l (by simp) hl), rest]

/-! ## Graphs -/

namespace ProcessGraph

variable {options : ReadOptions} {text : String} {g : ProcessGraph}

/-- Lines that are left as they are by one more line, which is a comment, lead to the same graph. -/
theorem same_of_unchanged (read : ofText options text = .ok g) {i : Nat}
    (hi : i ≤ (Text.lines text).length) (c : Text.Comment)
    (same : Text.Unchanged options.maxDepth i c.chars text) :
    ∃ g', ofText options (Text.insertLine i c.chars text) = .ok g' ∧
      g.renumber (Text.shift i) = g'.renumber id := by
  obtain ⟨g', read'⟩ := exists_ofText_eq_ok.2 same.failure
  obtain ⟨o, outline, rfl⟩ := ofText_eq_ok read
  obtain ⟨o', outline', rfl⟩ := ofText_eq_ok read'
  refine ⟨_, read', ?_⟩
  have others : ∀ l ∈ (scan options.maxDepth (Text.insertLine i c.chars text)).lines,
      decide (l.number ≠ i + 1) = false → l.kind = .comment := fun l hl number =>
    c.kind_of_number hi same.failure hl (by simpa using number)
  have left := Outline.draft_filter options.defaultLane others
  rw [Outline.eq_ofDraft_of_ofText outline, Outline.eq_ofDraft_of_ofText outline']
  refine ofDraft_renumber (Text.strictMono_shift i) ?_ same.warnings
  rw [← left, ← Outline.draft_renumber, ← Outline.draft_renumber, same.lines]

/-- A comment that is put between the lines of a text leaves all of them as they are, with their
depths and warnings, exactly when it fits. The graph is then the same, but that the lines behind the
comment have higher numbers. -/
theorem ofText_insertComment (read : ofText options text = .ok g) (i : Nat)
    (hi : i ≤ (Text.lines text).length) (c : Text.Comment) :
    ((∃ depth, c.Fits options.maxDepth i text depth) ↔
        Text.Unchanged options.maxDepth i c.chars text) ∧
      ∀ depth, c.Fits options.maxDepth i text depth →
        ∃ g', ofText options (Text.insertLine i c.chars text) = .ok g' ∧
          g.renumber (Text.shift i) = g'.renumber id := by
  have unchanged := c.fits_iff_unchanged (exists_ofText_eq_ok.1 ⟨g, read⟩) hi
  exact ⟨unchanged, fun depth fits => same_of_unchanged read hi c (unchanged.1 ⟨depth, fits⟩)⟩

/-- A comment at the depth of the branches between which it stands, in front of a line that is
indented badly. -/
theorem ofText_insertComment_between :
    let text := "@A\n?Ok\n  +yes\n   pack\n  -no"
    let c : Text.Comment := ⟨[' ', ' '], " not yet".toList, by simp, by decide⟩
    ∃ g g', ofText {} text = .ok g ∧ c.Fits 64 3 text 1 ∧
      ofText {} (Text.insertLine 3 c.chars text) = .ok g' ∧
      g.renumber (Text.shift 3) = g'.renumber id := by
  intro text c
  have read : ofText {} "@A\n?Ok\n  +yes\n   pack\n  -no" = .ok _ := rfl
  have fits : c.Fits 64 3 text 1 :=
    ⟨by decide +kernel, by decide, by decide +kernel, by decide +kernel⟩
  obtain ⟨g', read', same⟩ := (ofText_insertComment read 3 (by decide +kernel) c).2 1 fits
  exact ⟨_, g', read, fits, read', same⟩

/-- A comment that is the first line with an indentation fixes the unit, and the lines behind it are
indented badly then: the branch `no` does not find its gateway any more. -/
theorem ofText_insertComment_disturbing :
    let text := "@A\n?Ok\n  +yes\n    pack\n  -no"
    let c : Text.Comment := ⟨[' ', ' ', ' '], " undecided".toList, by simp, by decide⟩
    ∃ g g', ofText {} text = .ok g ∧ ofText {} (Text.insertLine 1 c.chars text) = .ok g' ∧
      ∀ f, g.renumber f ≠ g'.renumber id := by
  intro text c
  have read : ofText {} "@A\n?Ok\n  +yes\n    pack\n  -no" = .ok _ := rfl
  have read' : ofText {} (Text.insertLine 1 "   // undecided".toList
      "@A\n?Ok\n  +yes\n    pack\n  -no") = .ok _ := rfl
  refine ⟨_, _, read, read', fun f same => ?_⟩
  have kept (f : Nat → Nat) (g : ProcessGraph) : (g.renumber f).connections = g.connections := rfl
  have connections := congrArg ProcessGraph.connections same
  rw [kept, kept] at connections
  exact absurd connections (by decide +kernel)

end ProcessGraph

end Swimlane
