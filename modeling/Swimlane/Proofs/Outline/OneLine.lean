import Swimlane.Proofs.Outline.Growth
import Swimlane.Proofs.Source.Arrow
import Swimlane.Proofs.Source.Lines
import Swimlane.Proofs.Source.Numbering
import Swimlane.Proofs.Source.Sigil

/-!
# Texts of one line

What a draft shows of a text comes from single lines: names, labels and displayed texts have no
newlines in them. Only the name of the default lane comes from elsewhere.

## Main definitions

* `Text.OneLine`: a text without newlines;
* `Statement.OneLine`, `Draft.OneLine`: all texts of a statement or of a draft are such.

## Main statements

* `Line.oneLine_of_mem_scan`, `Statement.oneLine_ofLine`: what is read of lines;
* `Draft.OneLine.perform`: what is stated keeps a draft so;
* `Outline.oneLine_finished`: so it is in the finished draft of a text.
-/

namespace Swimlane

/-- A text without newlines. -/
def Text.OneLine (text : String) : Prop := '\n' ∉ text.toList

instance (text : String) : Decidable (Text.OneLine text) :=
  inferInstanceAs (Decidable ('\n' ∉ text.toList))

@[simp] theorem Text.oneLine_append {a b : String} :
    Text.OneLine (a ++ b) ↔ Text.OneLine a ∧ Text.OneLine b := by
  simp [Text.OneLine]

open Text (OneLine)

/-! ## Lines -/

theorem Text.trim_sublist (cs : List Char) : (trim cs).Sublist cs :=
  (isInfix_trim cs).sublist

/-- The payload of a line is a part of it. -/
theorem Sigil.Splits.sublist {cs payload : List Char} {kind : Sigil} (h : Splits cs kind payload) :
    payload.Sublist cs := by
  have behind (word rest : List Char) : (Text.trim rest).Sublist (word ++ rest) :=
    (Text.trim_sublist rest).trans (List.sublist_append_right word rest)
  cases h with
  | rule => exact List.nil_sublist cs
  | comment rest => exact behind ['/', '/'] rest
  | send rest => exact behind ['s', 'e', 'n', 'd', ':'] rest
  | receive rest => exact behind ['r', 'e', 'c', 'e', 'i', 'v', 'e', ':'] rest
  | note rest =>
    have unquoted : (dropClosingQuote (Text.trim rest)).Sublist (Text.trim rest) := by
      unfold dropClosingQuote
      split
      · exact List.dropLast_sublist _
      · exact .refl _
    exact (Text.trim_sublist _).trans (unquoted.trans (behind ['"'] rest))
  | @char c rest => exact behind [c] rest
  | task => exact .refl _

theorem Arrow.sublist_splitInline (payload : List Char) :
    (splitInline payload).1.toList.Sublist payload := by
  unfold splitInline
  split
  · simp
  · next left direction right found =>
    simpa using (Text.trim_sublist left).trans (cutsFirst_of_firstArrow found).left_isPrefix.sublist

/-- The text of a line is a part of its piece. -/
theorem Line.text_sublist (p : Text.Piece) (depth : Nat) :
    (ofPiece p depth).text.toList.Sublist p.chars := by
  have payload := (Sigil.splits_split (Text.trim p.chars)).sublist.trans (Text.trim_sublist p.chars)
  unfold ofPiece
  simp only
  split
  · exact (Arrow.sublist_splitInline _).trans payload
  · simpa using payload

theorem Text.newline_notMem_chars {text : String} {p : Piece} (h : p ∈ pieces text.toList) :
    '\n' ∉ p.chars := by
  have mem := List.mem_map_of_mem (f := (·.chars)) h
  rw [pieces, map_chars_numberPieces] at mem
  exact newline_notMem_lines mem

theorem Line.oneLine_of_mem_scan {limit : Nat} {text : String} {l : Line}
    (read : (scan limit text).failure = none) (hl : l ∈ (scan limit text).lines) :
    OneLine l.text := by
  obtain ⟨p, hp, eq⟩ := (scan_isTwoPass limit text).exists_piece read hl
  rw [eq]
  exact fun newline => Text.newline_notMem_chars (List.mem_of_mem_filter hp)
    ((text_sublist p _).subset newline)

/-! ## Statements -/

/-- The texts of a statement that are shown. -/
def Statement.OneLine : Statement → Prop
  | .process name | .lane name | .note name | .data name _ => Text.OneLine name
  | .node kind label => Text.OneLine (kind.display label)
  | .branch _ label text => (∀ name, label = some name → Text.OneLine name) ∧ Text.OneLine text
  | .connect label .. => ∀ name, label = some name → Text.OneLine name
  | .comment | .flowBreak | .empty | .badConnection => True

theorem Text.OneLine.of_sublist {text : String} (h : OneLine text) {cs : List Char}
    (part : cs.Sublist text.toList) : OneLine (String.ofList cs) := by
  intro newline
  rw [String.toList_ofList] at newline
  exact h (part.subset newline)

namespace Statement

variable {text : String} (h : Text.OneLine text)

include h

theorem oneLine_of_nonempty? {cs : List Char} (part : cs.Sublist text.toList) {name : String}
    (named : nonempty? cs = some name) : Text.OneLine name := by
  unfold nonempty? at named
  split at named
  · cases named
  · cases named
    exact h.of_sublist part

omit h in
theorem sublist_of_branchLabel? {cs label rest : List Char}
    (cut : branchLabel? cs = some (label, rest)) : label.Sublist cs ∧ rest.Sublist cs := by
  unfold branchLabel? at cut
  split at cut
  · next body =>
    split at cut
    · cases cut
    · next c behind eq =>
      cases cut
      have inside : behind.Sublist body :=
        (List.sublist_cons_self c behind).trans (eq ▸ List.dropWhile_sublist _)
      exact ⟨(Text.trim_sublist _).trans ((List.takeWhile_sublist _).cons '|'),
        (Text.trim_sublist _).trans (inside.cons '|')⟩
  · cases cut

theorem oneLine_ofBranch (sign : Sign) : (ofBranch sign text).OneLine := by
  unfold ofBranch
  split
  · exact ⟨by simp, h⟩
  · next label rest cut =>
    obtain ⟨hl, hr⟩ := sublist_of_branchLabel? cut
    split
    · trivial
    · exact ⟨fun name named => oneLine_of_nonempty? h hl named, h.of_sublist hr⟩

theorem oneLine_ofData : (ofData text).OneLine := by
  unfold ofData
  split
  · exact h
  · exact h.of_sublist (List.takeWhile_sublist _)

theorem oneLine_ofConnection : (ofConnection text).OneLine := by
  unfold ofConnection
  split
  · trivial
  · next left direction right cut =>
    obtain ⟨rest, first, -⟩ := Arrow.splitConnection_eq_some_iff.1 cut
    have part : left.Sublist text.toList := first.left_isPrefix.sublist
    intro name named
    exact oneLine_of_nonempty? h
      ((Text.trim_sublist _).trans ((List.takeWhile_sublist _).trans part)) named

theorem oneLine_ofPayload (kind : Sigil) : (ofPayload kind text).OneLine := by
  cases kind with
  | comment | connectionBreak => trivial
  | processName | lane | gateway | note | startEvent | endEvent | task => exact h
  | message side => cases side <;> simpa [ofPayload, Statement.OneLine, Text.OneLine,
      ElementKind.display, Side.display, Side.word] using h
  | branch sign => exact oneLine_ofBranch h sign
  | connection => exact oneLine_ofConnection h
  | dataObject => exact oneLine_ofData h

omit h in
/-- What a line states is shown without newlines. -/
theorem oneLine_ofLine {l : Line} (h : Text.OneLine l.text) : (ofLine l).OneLine := by
  unfold ofLine
  split
  · trivial
  · trivial
  · split
    · trivial
    · exact oneLine_ofPayload h _

end Statement

/-! ## Drafts -/

theorem Element.Grows.display {e e' : Element} (h : e.Grows e') : e'.display = e.display := by
  obtain ⟨kind, grows, rfl⟩ := h
  unfold Element.display
  generalize e.kind = old at grows
  cases grows <;> rfl

/-- The label of the edge that an event draws. -/
def Event.label? : Event → Option String
  | .branchOpened _ _ label | .messagePaired _ _ label => some label
  | _ => none

namespace Draft

/-- All that a draft shows of its text, or passes on to be shown, has no newlines. -/
structure OneLine (d : Draft) : Prop where
  process : ∀ name, d.processName = some name → Text.OneLine name
  lanes : ∀ name ∈ d.lanes.map (·.name), Text.OneLine name
  elements : ∀ text ∈ d.elements.map (·.display), Text.OneLine text
  events : ∀ label ∈ d.events.filterMap Event.label?, Text.OneLine label
  references : ∀ label ∈ d.references.filterMap (·.label), Text.OneLine label

theorem oneLine_empty : OneLine {} where
  process := by simp
  lanes := by simp
  elements := by simp
  events := by simp
  references := by simp

namespace OneLine

variable {d : Draft} (h : d.OneLine)

include h

theorem warn (l : Line) (f : Finding) : (d.warn l f).OneLine :=
  ⟨h.process, h.lanes, h.elements, h.events, h.references⟩

theorem openLane {name : String} (hn : Text.OneLine name) : (d.openLane name).OneLine := by
  unfold Draft.openLane
  split
  · exact ⟨h.process, h.lanes, h.elements, h.events, h.references⟩
  · next new =>
    refine ⟨h.process, ?_, h.elements, h.events, h.references⟩
    simpa [laneNamed, new, or_imp, forall_and, hn] using h.lanes

theorem enterLane {defaultLane : String} (hn : Text.OneLine defaultLane) :
    (d.enterLane defaultLane).OneLine := by
  unfold Draft.enterLane
  split
  · exact h
  · exact h.openLane hn

theorem closeGateways (closes : OpenGateway → Bool) : (d.closeGateways closes).OneLine := by
  refine invariant_of_changes (fun d d' closing hd => ?_) (closeGateways_closes d closes) h
  cases closing with
  | inner => exact ⟨hd.process, hd.lanes, hd.elements, hd.events, hd.references⟩
  | last =>
    refine ⟨hd.process, hd.lanes, hd.elements, ?_, hd.references⟩
    simpa [List.filterMap_append, Event.label?] using hd.events

theorem declare (lane : LaneHeader) {e : Element} (he : Text.OneLine e.display) :
    (d.declare lane e).OneLine := by
  refine ⟨h.process, h.lanes, ?_, h.events, h.references⟩
  intro text ht
  rw [Draft.declare, List.map_append, List.mem_append] at ht
  rcases ht with ht | ht
  · exact h.elements text ht
  · rwa [List.mem_singleton.1 ht]

omit h in
/-- Arrows have no labels. -/
theorem arrowOf_labels (lane : LaneHeader) (l : Line) (e : Element) :
    (arrowOf lane l e).filterMap (·.label) = [] := by
  simp [arrowOf, List.filterMap_map]

omit h in
/-- The event of a message that meets its other side has the text of the message. -/
theorem oneLine_of_pairing {waiting : List WaitingMessage} {l : Line} {e : Element}
    (he : Text.OneLine e.display) {label : String}
    (hl : label ∈ (pairing waiting l e).filterMap Event.label?) : Text.OneLine label := by
  obtain ⟨ev, hev, named⟩ := List.mem_filterMap.1 hl
  unfold pairing messageOf? at hev
  cases kind : e.kind with
  | message side text =>
    have shown : Text.OneLine text := by
      intro newline
      refine he ?_
      simp [Element.display, ElementKind.display, kind, Side.display, newline]
    simp only [kind, Option.mem_toList, Option.map_eq_some_iff] at hev
    obtain ⟨w, -, rfl⟩ := hev
    cases side <;> cases named <;> exact shown
  | _ => simp [kind] at hev

theorem addNode (lane : LaneHeader) (l : Line) {label : String} {kind : ElementKind}
    (shown : Text.OneLine (kind.display label)) : (d.addNode lane l label kind).OneLine := by
  have flow (gateways : List OpenGateway) (e : Element) :
      Event.label? (flowEvent gateways e) = none := by
    unfold flowEvent
    split <;> rfl
  rw [addNode_eq]
  refine ⟨h.process, h.lanes, ?_, ?_, ?_⟩
  · rw [List.map_append]
    exact List.forall_mem_append.2 ⟨h.elements, List.forall_mem_singleton.2 shown⟩
  · rw [List.filterMap_append, List.filterMap_cons_none (flow _ _)]
    refine List.forall_mem_append.2 ⟨h.events, fun text ht => ?_⟩
    exact oneLine_of_pairing (e := d.newElement lane l label kind) shown ht
  · rw [List.filterMap_append, arrowOf_labels, List.append_nil]
    exact h.references

theorem addBranch (lane : LaneHeader) (l : Line) (g : OpenGateway) (outer : List OpenGateway)
    (sign : Sign) {label : Option String} {text : String}
    (hl : ∀ name, label = some name → Text.OneLine name) (ht : Text.OneLine text) :
    (d.addBranch lane l g outer sign label text).OneLine := by
  have named : Text.OneLine (label.getD sign.defaultLabel) := by
    cases label with
    | none => cases sign <;> decide
    | some name => exact hl name rfl
  rw [addBranch_eq]
  refine ⟨h.process, h.lanes, ?_, ?_, ?_⟩
  · simp only
    rw [map_modify_addBranch fun _ _ grows => grows.display, List.map_append]
    exact List.forall_mem_append.2 ⟨h.elements, List.forall_mem_singleton.2 ht⟩
  · rw [List.filterMap_append]
    exact List.forall_mem_append.2 ⟨h.events, List.forall_mem_singleton.2 named⟩
  · rw [List.filterMap_append, arrowOf_labels, List.append_nil]
    exact h.references

/-- What is stated keeps a draft free of newlines. -/
theorem perform {defaultLane : String} (hn : Text.OneLine defaultLane) (l : Line) {s : Statement}
    (hs : s.OneLine) : (d.perform defaultLane l s).OneLine := by
  have entered := h.enterLane hn
  cases s with
  | comment => exact h
  | flowBreak =>
    refine ⟨h.process, h.lanes, h.elements, ?_, h.references⟩
    simpa [Draft.perform, log, List.filterMap_append, Event.label?] using h.events
  | empty | badConnection => exact h.warn l _
  | process name =>
    simp only [Draft.perform]
    split
    · exact h.warn l _
    · exact ⟨fun _ named => Option.some.inj named ▸ hs, h.lanes, h.elements, h.events, h.references⟩
  | lane name => exact h.openLane hs
  | node kind label => exact entered.addNode _ l hs
  | branch sign label text =>
    simp only [Draft.perform, performBranch]
    split
    · have shown : Text.OneLine (ElementKind.task.display text) := hs.2
      exact ((h.warn l _).enterLane hn).addNode _ l shown
    · refine OneLine.addBranch (OneLine.enterLane ?_ hn) _ l _ _ sign hs.1 hs.2
      split
      · exact h.warn l _
      · exact h
  | data name associated => exact entered.declare _ hs
  | note text => exact entered.declare _ hs
  | connect label source direction target =>
    simp only [Draft.perform, performConnection]
    split
    · exact h.warn l _
    · refine ⟨entered.process, entered.lanes, entered.elements, entered.events, ?_⟩
      rw [addReference, List.filterMap_append]
      refine List.forall_mem_append.2 ⟨entered.references, fun name new => hs name ?_⟩
      simpa using new

/-- A line keeps a draft free of newlines. -/
theorem consume {defaultLane : String} (hn : Text.OneLine defaultLane) {l : Line}
    (hl : Text.OneLine l.text) : (d.consume defaultLane l).OneLine :=
  (h.closeGateways _).perform hn l (Statement.oneLine_ofLine hl)

end OneLine

end Draft

/-- The finished draft of lines shows nothing with a newline in it. -/
theorem Outline.oneLine_finished {defaultLane : String} (hn : Text.OneLine defaultLane)
    {lines : List Line} (hl : ∀ l ∈ lines, Text.OneLine l.text) :
    (finished defaultLane lines).OneLine := by
  refine Draft.OneLine.closeGateways ?_ _
  induction lines using List.reverseRecOn with
  | nil => exact Draft.oneLine_empty
  | append_singleton ls l ih =>
    rw [draft_append]
    exact (ih fun l' hl' => hl l' (by simp [hl'])).consume hn (hl l (by simp))

end Swimlane
