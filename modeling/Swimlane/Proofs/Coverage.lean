import Mathlib.Logic.ExistsUnique
import Swimlane.Proofs.Outline.Account
import Swimlane.Proofs.Prefix
import Swimlane.Proofs.Source.Sigil

/-!
# No line is lost

A line that is neither blank nor a comment, a break or a name comes to something: it declares an
element, it records a connection, or a warning says why it did neither. No line comes to two of
these, and elements and references come from nowhere else.

## Main definitions

* `Fate`, `Fate.Meets`: what becomes of a line;
* `Text.Piece.Speaks`: the lines that must come to something;
* `Outline.Covers`: an outline that covers the lines of its text.

## Main statements

* `Outline.account_of_mem`: the records of a line in the outline of its text;
* `Outline.ofText_covers`: every outline covers its text.
-/

namespace Swimlane

open Draft (Account)

/-! ## The records of an outline -/

/-- The kinds of warnings that only statements give rise to. -/
def DiagnosticKind.ofStatements : List DiagnosticKind :=
  [.duplicateLabel, .orphanBranch, .malformedConnection, .emptyPayload, .redefinedProcess]

theorem DiagnosticKind.notMem_ofStatements_of_isLate {kind : DiagnosticKind}
    (h : kind.isLate = true) : kind ∉ ofStatements := by
  revert h
  cases kind <;> decide

/-- Warnings from reading lines are not about statements. -/
theorem scan_kind_notMem_ofStatements {limit : Nat} {text : String}
    (read : (scan limit text).failure = none) {x : Diagnostic}
    (hx : x ∈ (scan limit text).warnings) : x.kind ∉ DiagnosticKind.ofStatements := by
  rcases (scan_isTwoPass limit text).kind_of_mem_warnings read hx with own | own <;> rw [own] <;>
    decide

theorem Flow.isLate_of_mem_diagnostics {outcomes : List Outcome} {x : Diagnostic}
    (h : x ∈ diagnostics outcomes) : x.kind.isLate = true := by
  obtain ⟨outcome, -, own⟩ := List.mem_filterMap.1 h
  cases outcome with
  | edge => cases own
  | looseData | looseReference =>
    obtain rfl := Option.some.inj own
    rfl

/-- An outline holds these records on a line, and shows their warnings and no others about what the
line states. -/
structure Outline.Holds (o : Outline) (n : Nat) (y : Records) : Prop where
  ids : (o.document.elements.filter (·.line = n)).map (·.id) = y.ids
  references : o.references.filter (·.line = n) = y.references
  diagnostics : ∀ x ∈ y.diagnostics, x ∈ (ProcessGraph.ofOutline o).diagnostics ∧ x.line = n
  raised : ∀ x ∈ (ProcessGraph.ofOutline o).diagnostics, x.line = n →
    x.kind ∈ DiagnosticKind.ofStatements → x ∈ y.diagnostics

namespace Outline

variable {options : ReadOptions} {text : String} {o : Outline}

/-- Warnings about statements are those of the draft. -/
theorem mem_diagnostics_finished (h : ofText options text = .ok o) {x : Diagnostic}
    (hx : x ∈ (ProcessGraph.ofOutline o).diagnostics)
    (kind : x.kind ∈ DiagnosticKind.ofStatements) :
    x ∈ (finished options.defaultLane (scan options.maxDepth text).lines).diagnostics := by
  have outline := eq_ofDraft_of_ofText h
  rcases List.mem_append.1 ((StableSort.perm_sort _ _).mem_iff.1 hx) with raised | loose
  · rw [outline] at raised
    rcases List.mem_append.1 raised with raised | waiting
    · rcases List.mem_append.1 raised with read | own
      · exact absurd kind (scan_kind_notMem_ofStatements (exists_ofText_eq_ok.1 ⟨o, h⟩) read)
      · exact own
    · obtain ⟨w, -, rfl⟩ := List.mem_map.1 waiting
      exact absurd kind (DiagnosticKind.notMem_ofStatements_of_isLate rfl)
  · exact absurd kind
      (DiagnosticKind.notMem_ofStatements_of_isLate (Flow.isLate_of_mem_diagnostics loose))

/-- Nothing is lost between a finished draft and the graph. -/
theorem holds_recordsOn (h : ofText options text = .ok o) (n : Nat) :
    o.Holds n ((finished options.defaultLane
      (scan options.maxDepth text).lines).recordsOn n) := by
  obtain ⟨document, -, references⟩ := ofText_eq_ok h
  have outline := eq_ofDraft_of_ofText h
  have registered := registered_finished options.defaultLane (scan options.maxDepth text).lines
  refine ⟨?_, by rw [references]; rfl, fun x hx => ?_, fun x hx line kind =>
    List.mem_filter.2 ⟨mem_diagnostics_finished h hx kind, by simpa using line⟩⟩
  · rw [document, Draft.document_elements registered, ← List.filterMap_eq_map,
      ← List.filterMap_eq_filter, List.filterMap_filterMap]
    refine congrArg (List.filterMap · _) (funext fun e => ?_)
    by_cases here : e.line = n <;> simp [Option.guard, Element.idOn, here]
  · obtain ⟨hx, line⟩ := List.mem_filter.1 hx
    have raised : x ∈ o.diagnostics := by
      rw [outline]
      exact List.mem_append_left _ (List.mem_append_right _ hx)
    exact ⟨(StableSort.perm_sort _ _).mem_iff.2 (List.mem_append_left _ raised),
      by simpa using line⟩

/-- The records of a line are those that its account says. It gives the process its name when no
line before it does. -/
theorem account_of_mem (h : ofText options text = .ok o) {l : Line}
    (hl : l ∈ (scan options.maxDepth text).lines) :
    ∃ named y, Account l named o.events (.ofLine l) y ∧ o.Holds l.number y ∧
      (named = none ↔ ∀ l' ∈ (scan options.maxDepth text).lines, l'.number < l.number →
        (Statement.ofLine l').processName? = none) := by
  obtain ⟨-, events, -⟩ := ofText_eq_ok h
  have holds := holds_recordsOn h l.number
  have numbers := List.pairwise_map.1 (scan_numbers_pairwise options.maxDepth text)
  obtain ⟨ls, rest, split⟩ := List.append_of_mem hl
  rw [split] at events holds numbers ⊢
  obtain ⟨-, behind, before⟩ := List.pairwise_append.1 numbers
  have behind : ∀ l' ∈ rest, l.number < l'.number := (List.pairwise_cons.1 behind).1
  have before : ∀ l' ∈ ls, l'.number < l.number := fun l' hl' => before l' hl' l (by simp)
  have account := account_finished options.defaultLane (fun l' hl' => (before l' hl').ne)
    fun l' hl' => (behind l' hl').ne'
  rw [events]
  refine ⟨_, _, account, holds, ?_⟩
  rw [List.findSome?_eq_none_iff]
  constructor
  · intro unnamed l' hl' lt
    rcases List.mem_append.1 hl' with hl' | hl'
    · exact unnamed l' hl'
    · rcases List.mem_cons.1 hl' with rfl | hl'
      · exact absurd lt (Nat.lt_irrefl _)
      · exact absurd lt (Nat.lt_asymm (behind l' hl'))
  · exact fun unnamed l' hl' => unnamed l' (by simp [hl']) (before l' hl')

/-- Where there is no line, there are no records. -/
theorem holds_empty (h : ofText options text = .ok o) {n : Nat}
    (absent : ∀ l ∈ (scan options.maxDepth text).lines, l.number ≠ n) : o.Holds n {} := by
  have holds := holds_recordsOn h n
  have closed := Draft.extends_closeGateways n
    (draft options.defaultLane (scan options.maxDepth text).lines) (fun _ => true) n
  have run := Draft.recordsOn_run absent {} options.defaultLane
  rw [finished, closed, draft, ← Draft.run, run] at holds
  simpa [Draft.recordsOn] using holds

end Outline

/-! ## Fates -/

/-- Statements that leave nothing behind. -/
def Statement.IsSilent (named : Option String) : Statement → Prop
  | .comment | .flowBreak | .lane _ => True
  | .process _ => named = none
  | _ => False

/-- The kinds of warnings about lines that come to nothing. -/
def DiagnosticKind.refusals : List DiagnosticKind :=
  [.emptyPayload, .malformedConnection, .redefinedProcess]

/-- What becomes of a line: it declares an element, it records a connection, or it is refused. -/
inductive Fate where
  | declared
  | connected
  | refused
  deriving Repr, DecidableEq

namespace Fate

/-- What a line of this fate leaves behind. -/
def Leaves (s : Statement) (y : Records) : Fate → Prop
  | .declared => (∃ id, y.ids = [id]) ∧ ∀ r ∈ y.references, r.kind = .sequenceFlow
  | .connected => y.ids = [] ∧ (∃ r, y.references = [r] ∧ r.kind = .messageFlow) ∧
      ∃ label source direction target, s = .connect label source direction target
  | .refused => y.ids = [] ∧ y.references = [] ∧
      ∃ x ∈ y.diagnostics, x.kind ∈ DiagnosticKind.refusals

/-- A piece of a text meets its fate in the outline. One element carries its number, or it starts
with a caret and one message flow carries its number, or there is a warning about it, and neither
element nor reference carries its number. -/
def Meets (o : Outline) (p : Text.Piece) : Fate → Prop
  | .declared => ∃ e, o.document.elements.filter (·.line = p.number) = [e]
  | .connected => (Text.trim p.chars).head? = some '^' ∧
      ∃ r, o.references.filter (·.line = p.number) = [r] ∧ r.kind = .messageFlow
  | .refused =>
      (∃ x ∈ (ProcessGraph.ofOutline o).diagnostics, x.line = p.number ∧
        x.kind ∈ DiagnosticKind.refusals) ∧
      o.document.elements.filter (·.line = p.number) = [] ∧
      o.references.filter (·.line = p.number) = []

end Fate

theorem Draft.kind_of_mem_arrowOf {lane : LaneHeader} {l : Line} {e : Element} {r : Reference}
    (h : r ∈ arrowOf lane l e) : r.kind = .sequenceFlow := by
  obtain ⟨arrow, -, rfl⟩ := List.mem_map.1 h
  rfl

/-- A line is silent and leaves nothing, or it has a fate. -/
theorem Draft.Account.silent_or_leaves {l : Line} {named : Option String} {events : List Event}
    {s : Statement} {y : Records} (h : Account l named events s y) :
    (s.IsSilent named ∧ y = {}) ∨ (¬ s.IsSilent named ∧ ∃ fate, Fate.Leaves s y fate) := by
  have refused {f : Finding} (kind : f.kind ∈ DiagnosticKind.refusals) :
      ∃ fate, Fate.Leaves s { diagnostics := [f.toDiagnostic l.number l.span] } fate :=
    ⟨.refused, rfl, rfl, _, List.mem_singleton_self _, kind⟩
  cases h with
  | comment => exact .inl ⟨trivial, rfl⟩
  | flowBreak => exact .inl ⟨trivial, rfl⟩
  | lane name => exact .inl ⟨trivial, rfl⟩
  | named name h => exact .inl ⟨h, rfl⟩
  | renamed name h =>
    exact .inr ⟨by simp [Statement.IsSilent, h],
      refused (by simp [Finding.kind, DiagnosticKind.refusals])⟩
  | empty | badConnection | sourceless =>
    exact .inr ⟨id, refused (by simp [Finding.kind, DiagnosticKind.refusals])⟩
  | connected kind => exact .inr ⟨id, .connected, rfl, ⟨_, rfl, kind⟩, _, _, _, _, rfl⟩
  | node | orphan | branch =>
    exact .inr ⟨id, .declared, ⟨_, rfl⟩, fun r hr => kind_of_mem_arrowOf hr⟩
  | data | note => exact .inr ⟨id, .declared, ⟨_, rfl⟩, by simp⟩

/-- An element on a line with an arrow is one end of the one reference on that line. -/
theorem Draft.Account.arrow {l : Line} {named : Option String} {events : List Event} {y : Records}
    (h : Account l named events (.ofLine l) y) (accepts : l.kind.acceptsArrow = true)
    {arrow : Arrow}
    (ha : l.arrow = some arrow) {id : String} (ids : y.ids = [id]) :
    ∃ r, y.references = [r] ∧ r.kind = .sequenceFlow ∧
      (arrow.direction = .forward → r.source = .element id) ∧
      (arrow.direction = .backward → r.target = .element id) := by
  have recorded (lane : LaneHeader) (e : Element) (same : e.id = id) :
      ∃ r, arrowOf lane l e = [r] ∧ r.kind = .sequenceFlow ∧
        (arrow.direction = .forward → r.source = .element id) ∧
        (arrow.direction = .backward → r.target = .element id) := by
    rw [arrowOf, ha]
    refine ⟨_, rfl, rfl, fun forward => ?_, fun backward => ?_⟩
    · simp [ArrowDirection.ends, forward, same]
    · simp [ArrowDirection.ends, backward, same]
  have aside := Statement.not_acceptsArrow_of_aside (l := l)
  rw [accepts] at aside
  generalize Statement.ofLine l = s at h aside
  cases h with
  | node lane e => exact recorded lane e (by simpa using ids)
  | orphan lane e => exact recorded lane e (by simpa using ids)
  | branch lane e => exact recorded lane e (by simpa using ids)
  | data => exact absurd (aside (.inl ⟨_, _, rfl⟩)) (by simp)
  | note => exact absurd (aside (.inr ⟨_, rfl⟩)) (by simp)
  | _ => simp at ids

section

variable {o : Outline} {p : Text.Piece} {s : Statement} {y : Records} {fate fate' : Fate}

/-- In the outline a line meets the fate that its records say. -/
theorem Fate.Leaves.meets (h : fate.Leaves s y) (holds : o.Holds p.number y)
    (caret : (∃ label source direction target, s = .connect label source direction target) →
      (Text.trim p.chars).head? = some '^') : fate.Meets o p := by
  have elements := holds.ids
  have references := holds.references
  cases fate with
  | declared =>
    obtain ⟨⟨id, ids⟩, -⟩ := h
    rw [ids] at elements
    obtain ⟨e, one, -⟩ := List.map_eq_singleton_iff.1 elements
    exact ⟨e, one⟩
  | connected =>
    obtain ⟨-, ⟨r, recorded, kind⟩, connect⟩ := h
    exact ⟨caret connect, r, references.trans recorded, kind⟩
  | refused =>
    obtain ⟨bare, silent, x, hx, kind⟩ := h
    obtain ⟨raised, line⟩ := holds.diagnostics x hx
    exact ⟨⟨x, raised, line, kind⟩, List.map_eq_nil_iff.1 (elements.trans bare),
      references.trans silent⟩

/-- A line meets no fate but the one that its records say. -/
theorem Fate.Leaves.eq_of_meets (h : fate.Leaves s y) (holds : o.Holds p.number y)
    (meets : fate'.Meets o p) : fate' = fate := by
  have elements := holds.ids
  have references := holds.references
  cases fate' with
  | declared =>
    obtain ⟨e, one⟩ := meets
    rw [one] at elements
    cases fate with
    | declared => rfl
    | connected | refused =>
      rw [h.1] at elements
      cases elements
  | connected =>
    obtain ⟨-, r, recorded, kind⟩ := meets
    rw [recorded] at references
    cases fate with
    | declared =>
      have own := h.2 r (references ▸ List.mem_singleton_self r)
      simp [kind] at own
    | connected => rfl
    | refused =>
      rw [h.2.1] at references
      cases references
  | refused =>
    obtain ⟨-, bare, silent⟩ := meets
    cases fate with
    | declared =>
      obtain ⟨⟨id, ids⟩, -⟩ := h
      rw [bare, ids] at elements
      cases elements
    | connected =>
      obtain ⟨-, ⟨r, recorded, -⟩, -⟩ := h
      rw [silent, recorded] at references
      cases references
    | refused => rfl

end

/-! ## Texts -/

/-- A piece that must come to something: it is not blank, it is no comment and no break, and it
names neither a lane nor, as the first piece that does so, the process. -/
structure Text.Piece.Speaks (ps : List Piece) (p : Piece) : Prop where
  mem : p ∈ ps
  written : p.isWritten = true
  comment : ¬ p.IsComment
  flowBreak : ¬ p.IsBreak
  lane : ¬ p.Names '@'
  process : ¬ (p.Names ':' ∧ ∀ q ∈ ps, q.number < p.number → ¬ q.Names ':')

theorem Text.Piece.Names.isWritten {p : Text.Piece} {c : Char} (h : p.Names c) :
    p.isWritten = true := by
  obtain ⟨rest, starts, -⟩ := h
  simp [Text.Piece.isWritten, starts]

theorem Text.eq_of_number_eq {cs : List Char} {p q : Piece} (hp : p ∈ pieces cs)
    (hq : q ∈ pieces cs) (h : p.number = q.number) : p = q := by
  have numbers : ((pieces cs).map (·.number)).Nodup :=
    (pairwise_numberPieces 1 0 _).imp Nat.ne_of_lt
  exact List.inj_on_of_nodup_map numbers hp hq h

theorem Statement.isSilent_iff {named : Option String} {s : Statement} :
    s.IsSilent named ↔ s = .comment ∨ s = .flowBreak ∨ (∃ name, s = .lane name) ∨
      (∃ name, s = .process name) ∧ named = none := by
  cases s <;> simp [IsSilent]

theorem Statement.processName?_eq_none {s : Statement} :
    s.processName? = none ↔ ¬ ∃ name, s = .process name := by
  cases s <;> simp [processName?]

namespace Outline

variable {options : ReadOptions} {text : String} {o : Outline}

/-- The pieces of a text that speak are those whose lines are not silent. -/
theorem speaks_iff (read : (scan options.maxDepth text).failure = none) {p : Text.Piece}
    (hp : p ∈ Text.pieces text.toList) (written : p.isWritten = true) {l : Line}
    (line : l = Line.ofPiece p l.depth) {named : Option String}
    (first : named = none ↔ ∀ l' ∈ (scan options.maxDepth text).lines, l'.number < l.number →
      (Statement.ofLine l').processName? = none) :
    p.Speaks (Text.pieces text.toList) ↔ ¬ (Statement.ofLine l).IsSilent named := by
  have two := scan_isTwoPass options.maxDepth text
  have number : l.number = p.number := line ▸ rfl
  have unnamed : named = none ↔
      ∀ q ∈ Text.pieces text.toList, q.number < p.number → ¬ q.Names ':' := by
    rw [first, number]
    constructor
    · intro nameless q hq lt names
      obtain ⟨l', hl', line'⟩ := two.exists_line read (List.mem_filter.2 ⟨hq, names.isWritten⟩)
      have number' : l'.number = q.number := line' ▸ rfl
      refine Statement.processName?_eq_none.1 (nameless l' hl' (number' ▸ lt)) ?_
      rw [line']
      exact (Text.Piece.names_process_iff _).1 names
    · intro nameless l' hl' lt
      obtain ⟨q, hq, line'⟩ := two.exists_piece read hl'
      have number' : l'.number = q.number := line' ▸ rfl
      refine Statement.processName?_eq_none.2 fun process => ?_
      rw [line'] at process
      exact nameless q (List.mem_filter.1 hq).1 (number' ▸ lt)
        ((Text.Piece.names_process_iff _).2 process)
  have silent : (Statement.ofLine l).IsSilent named ↔ p.IsComment ∨ p.IsBreak ∨ p.Names '@' ∨
      p.Names ':' ∧ ∀ q ∈ Text.pieces text.toList, q.number < p.number → ¬ q.Names ':' := by
    rw [Statement.isSilent_iff, unnamed, line, ← Text.Piece.isComment_iff, ← Text.Piece.isBreak_iff,
      ← Text.Piece.names_lane_iff, ← Text.Piece.names_process_iff]
  rw [silent]
  constructor
  · rintro ⟨-, -, comment, flowBreak, lane, process⟩ (h | h | h | h)
    · exact comment h
    · exact flowBreak h
    · exact lane h
    · exact process h
  · intro speaks
    simp only [not_or] at speaks
    obtain ⟨comment, flowBreak, lane, process⟩ := speaks
    exact ⟨hp, written, comment, flowBreak, lane, process⟩

/-- An outline covers the lines of its text. Each piece that speaks meets one fate; elements and
references come from pieces that speak; and an element on a line with an arrow is the source of the
one reference on that line, or its target, as the arrow points. -/
structure Covers (o : Outline) (lines : List Line) (ps : List Text.Piece) : Prop where
  fates : ∀ p, p.Speaks ps → ∃! fate : Fate, fate.Meets o p
  elements : ∀ e ∈ o.document.elements,
    ∃! p : Text.Piece, p.Speaks ps ∧ p.number = e.line ∧ Fate.declared.Meets o p
  references : ∀ r ∈ o.references, ∃! p : Text.Piece, p.Speaks ps ∧ p.number = r.line ∧
    (Fate.declared.Meets o p ∨ Fate.connected.Meets o p)
  arrows : ∀ l ∈ lines, ∀ arrow, l.arrow = some arrow →
    ∀ e, o.document.elements.filter (·.line = l.number) = [e] →
      ∃ r, o.references.filter (·.line = l.number) = [r] ∧ r.kind = .sequenceFlow ∧
        (arrow.direction = .forward → r.source = .element e.id) ∧
        (arrow.direction = .backward → r.target = .element e.id)

/-- What becomes of a piece of a text: it is silent and leaves nothing, or it speaks and meets the
fate that its records say. -/
theorem silent_or_speaks (h : ofText options text = .ok o) {p : Text.Piece}
    (hp : p ∈ Text.pieces text.toList) (written : p.isWritten = true) :
    (¬ p.Speaks (Text.pieces text.toList) ∧ o.Holds p.number {}) ∨
      p.Speaks (Text.pieces text.toList) ∧ ∃ s y, ∃ fate : Fate, fate.Leaves s y ∧
        o.Holds p.number y ∧ fate.Meets o p ∧ ∀ fate' : Fate, fate'.Meets o p → fate' = fate := by
  have read := exists_ofText_eq_ok.1 ⟨o, h⟩
  have two := scan_isTwoPass options.maxDepth text
  obtain ⟨l, hl, line⟩ := two.exists_line read (List.mem_filter.2 ⟨hp, written⟩)
  have number : l.number = p.number := line ▸ rfl
  obtain ⟨named, y, account, holds, first⟩ := account_of_mem h hl
  rw [number] at holds
  have speaks := speaks_iff read hp written line first
  rcases account.silent_or_leaves with ⟨silent, rfl⟩ | ⟨loud, fate, leaves⟩
  · exact .inl ⟨fun own => speaks.1 own silent, holds⟩
  · refine .inr ⟨speaks.2 loud, _, y, fate, leaves, holds, leaves.meets holds ?_,
      fun fate' meets => leaves.eq_of_meets holds meets⟩
    rintro ⟨label, source, direction, target, connect⟩
    have kind := Statement.kind_of_ofLine_connect connect
    rw [line, Line.kind_ofPiece _ _ (by decide) (by decide)] at kind
    obtain ⟨-, rest, starts⟩ := Sigil.exists_cons_of_split rfl kind
    rw [starts]
    rfl

/-- Records that are not empty come from a piece that speaks. -/
theorem speaks_of_holds (h : ofText options text = .ok o) {n : Nat} (filled : ¬ o.Holds n {}) :
    ∃ p : Text.Piece, p.Speaks (Text.pieces text.toList) ∧ p.number = n := by
  have read := exists_ofText_eq_ok.1 ⟨o, h⟩
  by_contra silent
  refine filled (holds_empty h fun l hl number => ?_)
  obtain ⟨p, hp, line⟩ := (scan_isTwoPass options.maxDepth text).exists_piece read hl
  obtain ⟨hp, written⟩ := List.mem_filter.1 hp
  have number : p.number = n := number ▸ line ▸ rfl
  rcases silent_or_speaks h hp written with ⟨-, empty⟩ | ⟨speaks, -⟩
  · exact filled (number ▸ empty)
  · exact silent ⟨p, speaks, number⟩

/-- Every outline covers its text. -/
theorem ofText_covers (options : ReadOptions) (text : String) (o : Outline)
    (h : ofText options text = .ok o) :
    o.Covers (scan options.maxDepth text).lines (Text.pieces text.toList) := by
  have same {p q : Text.Piece} (hp : p.Speaks (Text.pieces text.toList))
      (hq : q.Speaks (Text.pieces text.toList)) (number : q.number = p.number) : q = p :=
    Text.eq_of_number_eq hq.mem hp.mem number
  have fate {p : Text.Piece} (hp : p.Speaks (Text.pieces text.toList)) :=
    (silent_or_speaks h hp.mem hp.written).resolve_left fun silent => silent.1 hp
  refine ⟨fun p hp => ?_, fun e he => ?_, fun r hr => ?_, fun l hl arrow ha e one => ?_⟩
  · obtain ⟨-, -, -, fate, -, -, meets, unique⟩ := fate hp
    exact ⟨fate, meets, unique⟩
  · have here : e ∈ o.document.elements.filter (·.line = e.line) := by simp [he]
    obtain ⟨p, speaks, number⟩ := speaks_of_holds h (n := e.line) fun empty => by
      simp [List.map_eq_nil_iff.1 empty.ids] at here
    obtain ⟨-, s, y, fate, leaves, holds, meets, -⟩ := fate speaks
    rw [number] at holds
    have own : e.id ∈ y.ids := holds.ids ▸ List.mem_map_of_mem here
    have declared : Fate.declared.Meets o p := by
      cases fate with
      | declared => exact meets
      | connected => simp [leaves.1] at own
      | refused => simp [leaves.1] at own
    exact ⟨p, ⟨speaks, number, declared⟩, fun q hq => same speaks hq.1 (hq.2.1.trans number.symm)⟩
  · have here : r ∈ o.references.filter (·.line = r.line) := by simp [hr]
    obtain ⟨p, speaks, number⟩ := speaks_of_holds h (n := r.line) fun empty => by
      simp [empty.references] at here
    obtain ⟨-, s, y, fate, leaves, holds, meets, -⟩ := fate speaks
    rw [number] at holds
    rw [holds.references] at here
    have recorded : Fate.declared.Meets o p ∨ Fate.connected.Meets o p := by
      cases fate with
      | declared => exact .inl meets
      | connected => exact .inr meets
      | refused => simp [leaves.2.1] at here
    exact ⟨p, ⟨speaks, number, recorded⟩, fun q hq => same speaks hq.1 (hq.2.1.trans number.symm)⟩
  · have read := exists_ofText_eq_ok.1 ⟨o, h⟩
    obtain ⟨p, -, line⟩ := (scan_isTwoPass options.maxDepth text).exists_piece read hl
    obtain ⟨named, y, account, holds, -⟩ := account_of_mem h hl
    have accepts : l.kind.acceptsArrow = true := by
      rw [line] at ha ⊢
      exact Line.acceptsArrow_of_arrow p _ ha
    have ids : y.ids = [e.id] := by rw [← holds.ids, one]; rfl
    rw [holds.references]
    exact account.arrow accepts ha ids

/-- Lines of all fates. The second name of the process, the caret without arrow and the lane without
name are refused; the lane with a name, the comment and the break are silent. -/
theorem ofText_covers_mixed :
    ∃ o, ofText {} ":p\n: q\n\n@S\n//x\na -> b\n?c\n  +b <- a\n^ -> b\n^ d\n@\n---" = .ok o ∧
      o.document.elements.map (·.line) = [6, 7, 8] ∧
      o.references.map (fun r => (r.line, r.kind)) =
        [(6, .sequenceFlow), (8, .sequenceFlow), (9, .messageFlow)] ∧
      o.diagnostics.map (fun x => (x.line, x.kind)) =
        [(2, .redefinedProcess), (10, .malformedConnection), (11, .emptyPayload)] ∧
      o.Covers
        (scan 64 ":p\n: q\n\n@S\n//x\na -> b\n?c\n  +b <- a\n^ -> b\n^ d\n@\n---").lines
        (Text.pieces ":p\n: q\n\n@S\n//x\na -> b\n?c\n  +b <- a\n^ -> b\n^ d\n@\n---".toList) := by
  have read : ofText {}
    ":p\n: q\n\n@S\n//x\na -> b\n?c\n  +b <- a\n^ -> b\n^ d\n@\n---" = .ok _ := rfl
  exact ⟨_, read, by decide +kernel, by decide +kernel, by decide +kernel,
    ofText_covers {} _ _ read⟩

end Outline

end Swimlane
