import Swimlane.Proofs.Outline.Declaration
import Swimlane.Proofs.Outline.Registry

/-!
# Who owns what a line records

A line opens a lane, or it records something in the lane that is open, or it does not care about
lanes. Where nothing has been opened, the first record opens the default lane. So the openings in
front of a line tell the lane of what the line records.

## Main definitions

* `Draft.Marks`: a line has recorded something in a lane;
* `Draft.Turns`: what a line can do to the lanes of a draft;
* `Opening.laneAt`: the lane of a line by the openings of a text;
* `Draft.Owned`: a draft whose lanes and records agree with openings.

## Main statements

* `Draft.consume_turns`: every line opens a lane, passes, or records something;
* `Draft.Owned.turn`: each of these keeps lanes and records in agreement with the openings;
* `Outline.owned_finished`: so they agree for every list of lines.
-/

namespace Swimlane

/-- The name of the lane that a statement opens. -/
def Statement.laneName? : Statement → Option String
  | .lane name => some name
  | _ => none

/-- The opening of a lane: the number of its line and the name of the lane. -/
structure Opening where
  line : Nat
  name : String
  deriving Repr, DecidableEq

namespace Opening

/-- The names that have been opened in front of a line. -/
def before (openings : List Opening) (n : Nat) : List String :=
  (openings.filter (·.line < n)).map (·.name)

/-- The name of the lane that a line belongs to: the last one opened in front of it, or else the
default one. -/
def laneAt (defaultLane : String) (openings : List Opening) (n : Nat) : String :=
  (before openings n).getLast?.getD defaultLane

/-- The names in the order they are opened, again and again. The default lane is opened where a line
has a record and no lane has been opened in front of it. -/
def names (defaultLane : String) (openings : List Opening) (recorded : List Nat) : List String :=
  (if ∃ n ∈ recorded, before openings n = [] then [defaultLane] else []) ++ openings.map (·.name)

/-- The opening that a line is. -/
def ofLine? (l : Line) : Option Opening :=
  (Statement.ofLine l).laneName?.map (⟨l.number, ·⟩)

variable {defaultLane : String} {openings : List Opening} {recorded recorded' : List Nat} {n : Nat}

theorem before_of_lt (h : ∀ o ∈ openings, o.line < n) :
    before openings n = openings.map (·.name) := by
  rw [before, List.filter_eq_self.2 fun o ho => by simpa using h o ho]

/-- An opening is not in front of its own line, nor of the lines before. -/
theorem before_append {o : Opening} (h : n ≤ o.line) :
    before (openings ++ [o]) n = before openings n := by
  simp [before, List.filter_append, Nat.not_lt.2 h]

theorem names_congr (h : ∀ n, n ∈ recorded' ↔ n ∈ recorded) :
    names defaultLane openings recorded' = names defaultLane openings recorded := by
  simp only [names, h]

theorem names_append {o : Opening} (h : ∀ n ∈ recorded, n ≤ o.line) :
    names defaultLane (openings ++ [o]) recorded =
      names defaultLane openings recorded ++ [o.name] := by
  have same : (∃ n ∈ recorded, before (openings ++ [o]) n = []) ↔
      ∃ n ∈ recorded, before openings n = [] :=
    exists_congr fun n => and_congr_right fun hn => by rw [before_append (h n hn)]
  simp only [names, same, List.map_append, List.append_assoc, List.map_singleton]

/-- A record behind all openings opens the default lane if nothing has been opened. -/
theorem names_of_record (behind : ∀ o ∈ openings, o.line < n)
    (h : ∀ m, m ∈ recorded' ↔ m ∈ recorded ∨ m = n) :
    names defaultLane openings recorded' =
      if names defaultLane openings recorded = [] then [defaultLane]
      else names defaultLane openings recorded := by
  by_cases unopened : openings = []
  · subst unopened
    have recording : ∃ m, m ∈ recorded' := ⟨n, (h n).2 (.inr rfl)⟩
    by_cases first : ∃ m, m ∈ recorded <;> simp [names, before, recording, first]
  · have ne : before openings n ≠ [] := by simpa [before_of_lt behind] using unopened
    have same : (∃ m ∈ recorded', before openings m = []) ↔
        ∃ m ∈ recorded, before openings m = [] := by
      simp only [h]
      grind
    have opened : names defaultLane openings recorded ≠ [] := by simp [names, unopened]
    rw [if_neg opened]
    simp only [names, same]

/-- The last name that has been opened is the lane of a line behind all openings. -/
theorem laneAt_of_getLast? {name : String} (behind : ∀ o ∈ openings, o.line < n)
    (h : (names defaultLane openings recorded).getLast? = some name) :
    laneAt defaultLane openings n = name := by
  rw [names, List.getLast?_append] at h
  rw [laneAt, before_of_lt behind]
  cases last : (openings.map (·.name)).getLast? with
  | some name' => simpa [last] using h
  | none =>
    rw [last, Option.none_or] at h
    split at h
    · simpa using h
    · cases h

theorem line_of_ofLine? {l : Line} {o : Opening} (h : ofLine? l = some o) : o.line = l.number := by
  obtain ⟨name, -, rfl⟩ := Option.map_eq_some_iff.1 h
  rfl

end Opening

namespace Draft

variable {defaultLane : String} {l : Line} {d d' : Draft} {lane : LaneHeader}

/-- A line has recorded something in a lane: an element or a reference. -/
def Marks (d : Draft) (n : Nat) (id : String) : Prop :=
  (∃ e ∈ d.elements, e.line = n ∧ e.lane = id) ∨ ∃ r ∈ d.references, r.line = n ∧ r.lane = id

theorem marks_congr (elements : d'.elements = d.elements)
    (references : d'.references = d.references) (n : Nat) (id : String) :
    d'.Marks n id ↔ d.Marks n id := by
  rw [Marks, Marks, elements, references]

theorem marks_addReference (d : Draft) (r : Reference) (n : Nat) (id : String) :
    (d.addReference r).Marks n id ↔ d.Marks n id ∨ n = r.line ∧ id = r.lane := by
  simp [Marks, addReference, or_and_right, exists_or, or_assoc, eq_comm]

theorem Books.marks {e : Element} (h : Books l d d' lane e) (n : Nat) (id : String) :
    d'.Marks n id ↔ d.Marks n id ∨ n = l.number ∧ id = lane.id := by
  have elements := h.exists_mem_elements (p := fun x => x.line = n ∧ x.lane = id)
    fun x x' grows => by rw [grows.line, grows.lane]
  rw [h.line, h.owner] at elements
  obtain ⟨arrows, references, places⟩ := h.references
  rw [Marks, Marks, elements, references]
  grind

/-- The lane of a name becomes the current one. It is new only if no lane has the name. -/
structure Opens (name : String) (d d' : Draft) (lane : LaneHeader) : Prop where
  named : lane.name = name
  current : d'.current = some lane
  lanes : lane ∈ d.lanes ∧ d'.lanes = d.lanes ∨
    name ∉ d.lanes.map (·.name) ∧ d'.lanes = d.lanes ++ [lane]

theorem opens_openLane (d : Draft) (name : String) :
    Opens name d (d.openLane name) (d.laneNamed name) where
  named := laneNamed_name d name
  current := openLane_current d name
  lanes := by
    unfold openLane laneNamed
    cases hf : d.lanes.find? (·.name = name) with
    | some lane => exact .inl ⟨List.mem_of_find?_eq_some hf, rfl⟩
    | none =>
      refine .inr ⟨fun known => ?_, rfl⟩
      obtain ⟨lane, hl, own⟩ := List.mem_map.1 known
      simpa [own] using List.find?_eq_none.1 hf lane hl

/-- What a line can do to the lanes of a draft: it opens one, it passes, or it records something
in the current lane, after it has opened the default one where there was none. -/
inductive Turns (defaultLane : String) (l : Line) (d d' : Draft) : Prop
  | opens (name : String) (lane : LaneHeader) (stated : Statement.ofLine l = .lane name)
      (opened : Opens name d d' lane) (marks : ∀ n id, d'.Marks n id ↔ d.Marks n id)
  | passes (stated : (Statement.ofLine l).laneName? = none) (current : d'.current = d.current)
      (lanes : d'.lanes = d.lanes) (marks : ∀ n id, d'.Marks n id ↔ d.Marks n id)
  | records (lane : LaneHeader) (stated : (Statement.ofLine l).laneName? = none)
      (opened : d.current = some lane ∧ d'.current = some lane ∧ d'.lanes = d.lanes ∨
        d.current = none ∧ Opens defaultLane d d' lane)
      (marks : ∀ n id, d'.Marks n id ↔ d.Marks n id ∨ n = l.number ∧ id = lane.id)

/-- A line that records something in the lane that it finds or opens. -/
theorem turns_of_enterLane (stated : (Statement.ofLine l).laneName? = none)
    (current : d'.current = some (d.lane defaultLane))
    (lanes : d'.lanes = (d.enterLane defaultLane).lanes)
    (marks : ∀ n id, d'.Marks n id ↔
      (d.enterLane defaultLane).Marks n id ∨ n = l.number ∧ id = (d.lane defaultLane).id) :
    Turns defaultLane l d d' := by
  have entered (n : Nat) (id : String) : (d.enterLane defaultLane).Marks n id ↔ d.Marks n id := by
    refine marks_congr (enterLane_elements d defaultLane) ?_ n id
    unfold enterLane
    split
    · rfl
    · exact openLane_references d defaultLane
  refine .records (d.lane defaultLane) stated ?_ fun n id => by rw [marks, entered]
  cases hc : d.current with
  | some found =>
    refine .inl ⟨?_, current, ?_⟩
    · rw [Draft.lane, hc, Option.getD_some]
    · rw [lanes, enterLane, hc]
      rfl
  | none =>
    have own : d.lane defaultLane = d.laneNamed defaultLane := by
      rw [Draft.lane, hc, Option.getD_none]
    have opened := opens_openLane d defaultLane
    refine .inr ⟨rfl, own ▸ opened.named, current, ?_⟩
    rw [own, lanes, enterLane, hc]
    exact opened.lanes

theorem Books.turns {e : Element} (stated : (Statement.ofLine l).laneName? = none)
    (h : Books l (d.enterLane defaultLane) d' (d.lane defaultLane) e) : Turns defaultLane l d d' :=
  turns_of_enterLane stated h.current' h.lanes h.marks

/-- Only lanes and records matter. -/
theorem Turns.congr {d₁ : Draft} (h : Turns defaultLane l d₁ d') (current : d₁.current = d.current)
    (lanes : d₁.lanes = d.lanes) (marks : ∀ n id, d₁.Marks n id ↔ d.Marks n id) :
    Turns defaultLane l d d' := by
  cases h with
  | opens name lane stated opened marks' =>
    exact .opens name lane stated ⟨opened.named, opened.current, lanes ▸ opened.lanes⟩
      fun n id => (marks' n id).trans (marks n id)
  | passes stated current' lanes' marks' =>
    exact .passes stated (current'.trans current) (lanes'.trans lanes)
      fun n id => (marks' n id).trans (marks n id)
  | records lane stated opened marks' =>
    refine .records lane stated ?_ fun n id => by rw [marks', marks]
    rcases opened with ⟨before, after, same⟩ | ⟨before, opened⟩
    · exact .inl ⟨current ▸ before, after, same.trans lanes⟩
    · exact .inr ⟨current ▸ before, opened.named, opened.current, lanes ▸ opened.lanes⟩

theorem turns_warn (d : Draft) (f : Finding) (stated : (Statement.ofLine l).laneName? = none) :
    Turns defaultLane l d (d.warn l f) :=
  .passes stated rfl rfl fun _ _ => Iff.rfl

theorem performBranch_turns (d : Draft) (sign : Sign) (label : Option String) (text : String)
    (stated : (Statement.ofLine l).laneName? = none) :
    Turns defaultLane l d (d.performBranch defaultLane l sign label text) := by
  unfold performBranch
  split
  · have books := books_addNode (l := l)
      (enterLane_current (d.warn l (.orphanBranch text)) defaultLane) text .task
    exact (books.turns stated).congr rfl rfl fun _ _ => Iff.rfl
  · next g outer _ =>
    simp only
    split
    · have books := books_addBranch (l := l)
        (enterLane_current (d.warn l (.branchDepth text)) defaultLane) g outer sign label text
      exact (books.turns stated).congr rfl rfl fun _ _ => Iff.rfl
    · exact (books_addBranch (enterLane_current d defaultLane) g outer sign label text).turns stated

theorem perform_turns (d : Draft) (defaultLane : String) (l : Line) :
    Turns defaultLane l d (d.perform defaultLane l (.ofLine l)) := by
  have entered := enterLane_current d defaultLane
  cases hs : Statement.ofLine l with
  | lane name =>
    exact .opens name _ hs (opens_openLane d name)
      (marks_congr (openLane_elements d name) (openLane_references d name))
  | comment | flowBreak => exact .passes (by rw [hs]; rfl) rfl rfl fun _ _ => Iff.rfl
  | empty | badConnection => exact turns_warn d _ (by rw [hs]; rfl)
  | process name =>
    have stated : (Statement.ofLine l).laneName? = none := by rw [hs]; rfl
    simp only [perform]
    split
    · exact turns_warn d _ stated
    · exact .passes stated rfl rfl fun _ _ => Iff.rfl
  | node kind label => exact (books_addNode entered label kind).turns (by rw [hs]; rfl)
  | branch sign label text => exact performBranch_turns d sign label text (by rw [hs]; rfl)
  | data name associated => exact (books_declare entered name _).turns (by rw [hs]; rfl)
  | note text => exact (books_declare entered text _).turns (by rw [hs]; rfl)
  | connect label source direction target =>
    have stated : (Statement.ofLine l).laneName? = none := by rw [hs]; rfl
    simp only [perform, performConnection]
    split
    · exact turns_warn d _ stated
    · exact turns_of_enterLane stated entered rfl (marks_addReference _ _)

/-- Every line opens a lane, passes, or records something. -/
theorem consume_turns (d : Draft) (defaultLane : String) (l : Line) :
    Turns defaultLane l d (d.consume defaultLane l) := by
  refine (perform_turns _ defaultLane l).congr ?_ (closeGateways_lanes ..)
    (marks_congr (closeGateways_elements ..) (closeGateways_references ..))
  unfold closeGateways
  split <;> rfl

/-! ## Openings tell the lanes -/

/-- The numbers of the lines that have recorded something. -/
def recordedLines (d : Draft) : List Nat := d.elements.map (·.line) ++ d.references.map (·.line)

theorem mem_recordedLines {n : Nat} : n ∈ d.recordedLines ↔ ∃ id, d.Marks n id := by
  simp only [recordedLines, Marks, List.mem_append, List.mem_map, exists_or]
  grind

theorem Turns.recordedLines (h : Turns defaultLane l d d') {n : Nat} (hn : n ∈ d'.recordedLines) :
    n ∈ d.recordedLines ∨ n = l.number := by
  obtain ⟨id, hm⟩ := mem_recordedLines.1 hn
  cases h with
  | opens _ _ _ _ marks | passes _ _ _ marks =>
    exact .inl (mem_recordedLines.2 ⟨id, (marks n id).1 hm⟩)
  | records _ _ _ marks =>
    rcases (marks n id).1 hm with old | new
    · exact .inl (mem_recordedLines.2 ⟨id, old⟩)
    · exact .inr new.1

/-- Lanes and records agree with openings: the lanes are those that have been opened, the last one
is current, and what a line has recorded stands in the lane that the openings tell. -/
structure Owned (defaultLane : String) (openings : List Opening) (d : Draft) : Prop where
  lanes : d.lanes.map (·.name) =
    (Opening.names defaultLane openings d.recordedLines).eraseDups
  current : d.current.map (·.name) =
    (Opening.names defaultLane openings d.recordedLines).getLast?
  marks : ∀ n id, d.Marks n id →
    ∃ lane ∈ d.lanes, lane.id = id ∧ lane.name = Opening.laneAt defaultLane openings n

theorem eraseDups_append_singleton (names : List String) (name : String) :
    (names ++ [name]).eraseDups =
      if name ∈ names then names.eraseDups else names.eraseDups ++ [name] := by
  rw [List.eraseDups_append]
  split <;> simp [List.removeAll, List.eraseDups_cons, *]

section

variable {openings : List Opening}

theorem owned_empty (defaultLane : String) : Owned defaultLane [] {} where
  lanes := by simp [recordedLines, Opening.names]
  current := by simp [recordedLines, Opening.names]
  marks := by simp [Marks]

theorem recordedLines_congr (marks : ∀ n id, d'.Marks n id ↔ d.Marks n id) (n : Nat) :
    n ∈ d'.recordedLines ↔ n ∈ d.recordedLines := by
  simp only [mem_recordedLines, marks]

variable (h : d.Owned defaultLane openings)

include h

theorem Owned.pass (current : d'.current = d.current) (lanes : d'.lanes = d.lanes)
    (marks : ∀ n id, d'.Marks n id ↔ d.Marks n id) : d'.Owned defaultLane openings where
  lanes := by rw [lanes, h.lanes, Opening.names_congr (recordedLines_congr marks)]
  current := by rw [current, h.current, Opening.names_congr (recordedLines_congr marks)]
  marks := fun n id hm => by simpa only [lanes] using h.marks n id ((marks n id).1 hm)

theorem Owned.mem_names {name : String} :
    name ∈ d.lanes.map (·.name) ↔ name ∈ Opening.names defaultLane openings d.recordedLines := by
  rw [h.lanes, List.mem_eraseDups]

theorem Owned.open {o : Opening} (earlier : ∀ n ∈ d.recordedLines, n ≤ o.line)
    (opened : Opens o.name d d' lane) (marks : ∀ n id, d'.Marks n id ↔ d.Marks n id) :
    d'.Owned defaultLane (openings ++ [o]) where
  lanes := by
    rw [Opening.names_congr (recordedLines_congr marks), Opening.names_append earlier,
      eraseDups_append_singleton, ← h.lanes]
    rcases opened.lanes with ⟨old, lanes⟩ | ⟨new, lanes⟩
    · have known := h.mem_names.1 (List.mem_map_of_mem old)
      rw [opened.named] at known
      rw [if_pos known, lanes]
    · rw [if_neg (mt h.mem_names.2 new), lanes, List.map_append, List.map_singleton, opened.named]
  current := by
    rw [Opening.names_congr (recordedLines_congr marks), Opening.names_append earlier,
      opened.current, List.getLast?_concat, Option.map_some, opened.named]
  marks := by
    intro n id hm
    have hm := (marks n id).1 hm
    obtain ⟨lane', hl, own⟩ := h.marks n id hm
    rw [Opening.laneAt, Opening.before_append (earlier n (mem_recordedLines.2 ⟨id, hm⟩))]
    refine ⟨lane', ?_, own⟩
    rcases opened.lanes with ⟨-, lanes⟩ | ⟨-, lanes⟩
    · rwa [lanes]
    · rw [lanes]
      exact List.mem_append_left _ hl

theorem Owned.record (hd : d.Registered) {n : Nat} (behind : ∀ o ∈ openings, o.line < n)
    (opened : d.current = some lane ∧ d'.current = some lane ∧ d'.lanes = d.lanes ∨
      d.current = none ∧ Opens defaultLane d d' lane)
    (marks : ∀ m id, d'.Marks m id ↔ d.Marks m id ∨ m = n ∧ id = lane.id) :
    d'.Owned defaultLane openings := by
  have recorded (m : Nat) : m ∈ d'.recordedLines ↔ m ∈ d.recordedLines ∨ m = n := by
    simp only [mem_recordedLines, marks, exists_or]
    simp
  have current := h.current
  have lanes := h.lanes
  have after : Opening.names defaultLane openings d'.recordedLines = _ :=
    Opening.names_of_record behind recorded
  rcases opened with ⟨before, current', lanes'⟩ | ⟨before, opened⟩
  · -- A lane is open. If no line has opened it, it is the default one.
    rw [before, Option.map_some] at current
    have ne : Opening.names defaultLane openings d.recordedLines ≠ [] := by
      intro empty
      rw [empty] at current
      cases current
    rw [if_neg ne] at after
    refine ⟨by rw [after, lanes', lanes], by rw [after, current', ← current, Option.map_some], ?_⟩
    intro m id hm
    rw [lanes']
    rcases (marks m id).1 hm with old | ⟨rfl, rfl⟩
    · exact h.marks m id old
    · have own := Opening.laneAt_of_getLast? behind current.symm
      exact ⟨lane, hd.current lane before, rfl, own.symm⟩
  · -- Nothing has been opened, so there are no lanes and no records.
    rw [before, Option.map_none] at current
    have empty := List.getLast?_eq_none_iff.1 current.symm
    rw [if_pos empty] at after
    rw [empty, List.eraseDups_nil, List.map_eq_nil_iff] at lanes
    have lanes' : d'.lanes = [lane] := by
      rcases opened.lanes with ⟨old, -⟩ | ⟨-, new⟩
      · rw [lanes] at old
        cases old
      · rw [new, lanes, List.nil_append]
    refine ⟨?_, ?_, ?_⟩
    · rw [after, lanes', List.map_singleton, opened.named]
      rfl
    · rw [after, opened.current, Option.map_some, opened.named]
      rfl
    · intro m id hm
      rcases (marks m id).1 hm with old | ⟨rfl, rfl⟩
      · obtain ⟨lane', hl, -⟩ := h.marks m id old
        rw [lanes] at hl
        cases hl
      · refine ⟨lane, by simp [lanes'], rfl, ?_⟩
        have last : (Opening.names defaultLane openings d'.recordedLines).getLast? =
            some defaultLane := by rw [after]; rfl
        rw [opened.named, Opening.laneAt_of_getLast? behind last]

/-- A line behind all openings and records keeps lanes and records in agreement with the
openings. -/
theorem Owned.turn (hd : d.Registered) (behind : ∀ o ∈ openings, o.line < l.number)
    (earlier : ∀ n ∈ d.recordedLines, n < l.number) (turn : Turns defaultLane l d d') :
    d'.Owned defaultLane (openings ++ (Opening.ofLine? l).toList) := by
  cases turn with
  | passes stated current lanes marks =>
    rw [Opening.ofLine?, stated, Option.map_none, Option.toList_none, List.append_nil]
    exact h.pass current lanes marks
  | opens name lane stated opened marks =>
    rw [Opening.ofLine?, stated]
    exact Owned.open (o := ⟨l.number, name⟩) h (fun n hn => Nat.le_of_lt (earlier n hn)) opened
      marks
  | records lane stated opened marks =>
    rw [Opening.ofLine?, stated, Option.map_none, Option.toList_none, List.append_nil]
    exact h.record hd behind opened marks

end

end Draft

namespace Outline

open Draft

theorem mem_numbers_of_mem_recordedLines (defaultLane : String) {ls : List Line} {n : Nat}
    (h : n ∈ (draft defaultLane ls).recordedLines) : n ∈ ls.map (·.number) := by
  induction ls using List.reverseRecOn with
  | nil => cases h
  | append_singleton ls l ih =>
    rw [draft_append] at h
    rw [List.map_append, List.mem_append]
    exact ((consume_turns _ defaultLane l).recordedLines h).imp ih (by simp)

/-- The lanes and records of lines agree with their openings. -/
theorem owned_draft (defaultLane : String) {ls : List Line}
    (h : (ls.map (·.number)).Pairwise (· < ·)) :
    (draft defaultLane ls).Owned defaultLane (ls.filterMap Opening.ofLine?) := by
  induction ls using List.reverseRecOn with
  | nil => exact owned_empty defaultLane
  | append_singleton ls l ih =>
    rw [List.map_append, List.pairwise_append] at h
    have earlier : ∀ n ∈ ls.map (·.number), n < l.number := fun n hn => h.2.2 n hn _ (by simp)
    rw [draft_append, List.filterMap_append]
    have behind : ∀ o ∈ ls.filterMap Opening.ofLine?, o.line < l.number := by
      intro o ho
      obtain ⟨l', hl', opening⟩ := List.mem_filterMap.1 ho
      rw [Opening.line_of_ofLine? opening]
      exact earlier _ (List.mem_map_of_mem hl')
    have owned := (ih h.1).turn (registered_draft defaultLane ls) behind
      (fun n hn => earlier n (mem_numbers_of_mem_recordedLines defaultLane hn))
      (consume_turns (draft defaultLane ls) defaultLane l)
    cases opening : Opening.ofLine? l <;> simpa [opening] using owned

theorem owned_finished (defaultLane : String) {ls : List Line}
    (h : (ls.map (·.number)).Pairwise (· < ·)) :
    (finished defaultLane ls).Owned defaultLane (ls.filterMap Opening.ofLine?) := by
  refine (owned_draft defaultLane h).pass ?_ (closeGateways_lanes ..)
    (marks_congr (closeGateways_elements ..) (closeGateways_references ..))
  unfold finished closeGateways
  split <;> rfl

end Outline

end Swimlane
