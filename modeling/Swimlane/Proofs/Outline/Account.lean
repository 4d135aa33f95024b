import Swimlane.Proofs.Outline.Growth
import Swimlane.Proofs.Outline.Log

/-!
# What a line leaves behind

A line leaves records in the draft that carry its number: an element, a reference, warnings. What it
leaves depends on what it states and on little else. Other lines do not touch these records, so they
are found in the finished draft as the line has left them.

## Main definitions

* `Records`, `Draft.recordsOn`: the records of a line;
* `Draft.Account`: what a line leaves, by what it states.

## Main statements

* `Draft.consume_account`: every line leaves what its account says, and nothing on other lines;
* `Draft.consume_processName`: the first name of the process counts;
* `Outline.account_finished`: the records of a line in the finished draft.
-/

namespace Swimlane

/-- The id of an element that stands on a line. -/
def Element.idOn (n : Nat) (e : Element) : Option String := if e.line = n then some e.id else none

theorem Element.Grows.idOn {e e' : Element} (h : e.Grows e') (n : Nat) : e'.idOn n = e.idOn n := by
  simp [Element.idOn, h.line, h.id]

/-- The name that a statement gives to the process. -/
def Statement.processName? : Statement → Option String
  | .process name => some name
  | _ => none

/-- Records of one line: the ids of its elements, its references and its warnings. -/
structure Records where
  ids : List String := []
  references : List Reference := []
  diagnostics : List Diagnostic := []

namespace Records

instance : Append Records where
  append y z := ⟨y.ids ++ z.ids, y.references ++ z.references, y.diagnostics ++ z.diagnostics⟩

theorem append_eq (y z : Records) :
    y ++ z = ⟨y.ids ++ z.ids, y.references ++ z.references, y.diagnostics ++ z.diagnostics⟩ := rfl

@[simp] theorem append_empty (y : Records) : y ++ ({} : Records) = y := by simp [append_eq]

@[simp] theorem empty_append (y : Records) : ({} : Records) ++ y = y := by simp [append_eq]

theorem append_assoc (x y z : Records) : x ++ y ++ z = x ++ (y ++ z) := by simp [append_eq]

end Records

namespace Draft

/-- The records of a draft that carry a line number. -/
def recordsOn (d : Draft) (n : Nat) : Records where
  ids := d.elements.filterMap (Element.idOn n)
  references := d.references.filter (·.line = n)
  diagnostics := d.diagnostics.filter (·.line = n)

/-- A later draft has more records on one line, and the same ones on all others. -/
def Extends (n : Nat) (d d' : Draft) (y : Records) : Prop :=
  ∀ m, d'.recordsOn m = d.recordsOn m ++ if m = n then y else {}

section Extends

variable {n : Nat} {d d' d'' : Draft} {y z : Records}

theorem Extends.trans (h : Extends n d d' y) (h' : Extends n d' d'' z) :
    Extends n d d'' (y ++ z) := by
  intro m
  rw [h' m, h m, Records.append_assoc]
  split
  · rfl
  · simp

theorem Extends.of_ne (h : Extends n d d' y) {m : Nat} (hm : m ≠ n) :
    d'.recordsOn m = d.recordsOn m := by
  simp [h m, hm]

theorem extends_of_eq (elements : d'.elements = d.elements)
    (references : d'.references = d.references) (diagnostics : d'.diagnostics = d.diagnostics) :
    Extends n d d' {} := by
  intro m
  simp [recordsOn, elements, references, diagnostics]

/-- A draft that has more records, all of them on one line. -/
theorem extends_of_append {e : Element} (line : e.line = n)
    (elements : ∀ m, d'.elements.filterMap (Element.idOn m) =
      (d.elements ++ [e]).filterMap (Element.idOn m))
    (references : d'.references = d.references ++ y.references)
    (diagnostics : d'.diagnostics = d.diagnostics ++ y.diagnostics)
    (ids : y.ids = [e.id]) (lines : ∀ r ∈ y.references, r.line = n)
    (places : ∀ x ∈ y.diagnostics, x.line = n) : Extends n d d' y := by
  intro m
  by_cases hm : m = n
  · subst hm
    have all : y.references.filter (·.line = m) = y.references :=
      List.filter_eq_self.2 fun r hr => by simp [lines r hr]
    have all' : y.diagnostics.filter (·.line = m) = y.diagnostics :=
      List.filter_eq_self.2 fun x hx => by simp [places x hx]
    simp [recordsOn, Records.append_eq, elements, references, diagnostics, all, all', ids,
      Element.idOn, line]
  · have unreferenced : y.references.filter (·.line = m) = [] :=
      List.filter_eq_nil_iff.2 fun r hr => by simp [lines r hr, Ne.symm hm]
    have unraised : y.diagnostics.filter (·.line = m) = [] :=
      List.filter_eq_nil_iff.2 fun x hx => by simp [places x hx, Ne.symm hm]
    simp [recordsOn, hm, elements, references, diagnostics, unreferenced, unraised, Element.idOn,
      line, Ne.symm hm]

end Extends

/-! ## Operations -/

variable {d : Draft} {l : Line} {lane : LaneHeader}

theorem extends_enterLane (n : Nat) (d : Draft) (defaultLane : String) :
    Extends n d (d.enterLane defaultLane) {} := by
  unfold enterLane
  split
  · exact extends_of_eq rfl rfl rfl
  · exact extends_of_eq (openLane_elements d _) (openLane_references d _) (openLane_diagnostics d _)

theorem extends_closeGateways (n : Nat) (d : Draft) (closes : OpenGateway → Bool) :
    Extends n d (d.closeGateways closes) {} := by
  unfold closeGateways
  split <;> exact extends_of_eq rfl rfl rfl

theorem closeGateways_processName (d : Draft) (closes : OpenGateway → Bool) :
    (d.closeGateways closes).processName = d.processName := by
  unfold closeGateways
  split <;> rfl

theorem extends_warn (d : Draft) (l : Line) (f : Finding) :
    Extends l.number d (d.warn l f)
      { diagnostics := [f.toDiagnostic l.number l.span] } := by
  intro m
  by_cases hm : m = l.number
  · simp [recordsOn, warn, hm, Finding.toDiagnostic, Records.append_eq]
  · simp [recordsOn, warn, hm, Finding.toDiagnostic, Ne.symm hm]

theorem extends_addReference (d : Draft) {l : Line} {r : Reference} (line : r.line = l.number) :
    Extends l.number d (d.addReference r) { references := [r] } := by
  intro m
  by_cases hm : m = l.number
  · simp [recordsOn, addReference, hm, line, Records.append_eq]
  · simp [recordsOn, addReference, hm, line, Ne.symm hm]

theorem line_of_mem_arrowOf {e : Element} {r : Reference} (h : r ∈ arrowOf lane l e) :
    r.line = l.number := by
  obtain ⟨arrow, -, rfl⟩ := List.mem_map.1 h
  rfl

theorem line_of_mem_duplicateWarning {e : Element} {x : Diagnostic}
    (h : x ∈ d.duplicateWarning lane e) : x.kind = .duplicateLabel ∧ x.line = e.line := by
  unfold duplicateWarning at h
  split at h
  · rw [List.mem_singleton.1 h]
    exact ⟨rfl, rfl⟩
  · cases h

theorem extends_addNode (d : Draft) (lane : LaneHeader) (l : Line) (label : String)
    (kind : ElementKind) :
    let e := d.newElement lane l label kind
    Extends l.number d (d.addNode lane l label kind)
      ⟨[e.id], arrowOf lane l e, d.duplicateWarning lane e⟩ := by
  intro e
  refine extends_of_append (e := e) rfl (fun m => by rw [addNode_elements]) (by rw [addNode_eq])
    (by rw [addNode_eq]) rfl (fun _ => line_of_mem_arrowOf) fun x hx => ?_
  exact (line_of_mem_duplicateWarning hx).2

theorem extends_addBranch (d : Draft) (lane : LaneHeader) (l : Line) (g : OpenGateway)
    (outer : List OpenGateway) (sign : Sign) (label : Option String) (text : String) :
    let e := d.newElement lane l text .task
    Extends l.number d (d.addBranch lane l g outer sign label text)
      ⟨[e.id], arrowOf lane l e, d.duplicateWarning lane e⟩ := by
  intro e
  refine extends_of_append (e := e) rfl (fun m => ?_) (by rw [addBranch_eq])
    (by rw [addBranch_eq]) rfl (fun _ => line_of_mem_arrowOf) fun x hx => ?_
  · rw [addBranch_elements, filterMap_modify_addBranch fun _ _ grows => grows.idOn m]
  · exact (line_of_mem_duplicateWarning hx).2

theorem extends_declare (d : Draft) (lane : LaneHeader) (l : Line) (label : String)
    (kind : ElementKind) :
    let e := d.newElement lane l label kind
    Extends l.number d (d.declare lane e) ⟨[e.id], [], d.duplicateWarning lane e⟩ := by
  intro e
  refine extends_of_append (e := e) rfl (fun m => rfl) (by simp [declare]) rfl rfl (by simp)
    fun x hx => ?_
  exact (line_of_mem_duplicateWarning hx).2

/-! ## Lines -/

/-- What a line leaves, by what it states. The name that the process has had before matters for
another name, and the log behind the line tells whether a branch has found a gateway. -/
inductive Account (l : Line) (named : Option String) (events : List Event) :
    Statement → Records → Prop
  | comment : Account l named events .comment {}
  | flowBreak : Account l named events .flowBreak {}
  | lane (name : String) : Account l named events (.lane name) {}
  | named (name : String) (h : named = none) : Account l named events (.process name) {}
  | renamed (name : String) {existing : String} (h : named = some existing) :
      Account l named events (.process name)
        { diagnostics := [(Finding.redefinedProcess existing name).toDiagnostic l.number l.span] }
  | empty : Account l named events .empty
      { diagnostics := [(Finding.emptyPayload l.kind).toDiagnostic l.number l.span] }
  | badConnection : Account l named events .badConnection
      { diagnostics := [(Finding.connectionForm l.text).toDiagnostic l.number l.span] }
  | sourceless {label source : Option String} {direction : ArrowDirection} {target : String} :
      Account l named events (.connect label source direction target)
        { diagnostics := [(Finding.connectionSource l.text).toDiagnostic l.number l.span] }
  | connected {label source : Option String} {direction : ArrowDirection} {target : String}
      {r : Reference} (kind : r.kind = .messageFlow) :
      Account l named events (.connect label source direction target) { references := [r] }
  | node {kind : ElementKind} {label : String} (lane : LaneHeader) (e : Element)
      (warnings : List Diagnostic) :
      Account l named events (.node kind label) ⟨[e.id], arrowOf lane l e, warnings⟩
  | orphan {sign : Sign} {label : Option String} {text : String} (lane : LaneHeader) (e : Element)
      {warnings : List Diagnostic} (warned : ∃ x ∈ warnings, x.kind = .orphanBranch)
      (logged : .declared e.id ∈ events) :
      Account l named events (.branch sign label text) ⟨[e.id], arrowOf lane l e, warnings⟩
  | branch {sign : Sign} {label : Option String} {text : String} (lane : LaneHeader) (e : Element)
      {warnings : List Diagnostic} (gateway : String)
      (warned : ∀ x ∈ warnings, x.kind ≠ .orphanBranch)
      (logged : .branchOpened gateway e.id (label.getD sign.defaultLabel) ∈ events) :
      Account l named events (.branch sign label text) ⟨[e.id], arrowOf lane l e, warnings⟩
  | data {name : String} {associated : Option String} (e : Element) (warnings : List Diagnostic) :
      Account l named events (.data name associated) ⟨[e.id], [], warnings⟩
  | note {text : String} (e : Element) (warnings : List Diagnostic) :
      Account l named events (.note text) ⟨[e.id], [], warnings⟩

theorem performBranch_account (d : Draft) (defaultLane : String) (l : Line) (sign : Sign)
    (label : Option String) (text : String) :
    let d' := d.performBranch defaultLane l sign label text
    ∃ y, Account l d.processName d'.events (.branch sign label text) y ∧
      Extends l.number d d' y := by
  intro d'
  cases hg : d.gateways with
  | nil =>
    let w := d.warn l (.orphanBranch text)
    let e := (w.enterLane defaultLane).newElement (w.lane defaultLane) l text .task
    have result : d' = (w.enterLane defaultLane).addNode (w.lane defaultLane) l text .task := by
      simp only [d', performBranch, hg, w]
    have open' : (w.enterLane defaultLane).gateways = [] := by
      rw [enterLane_gateways]
      exact hg
    have added := ((extends_warn d l (.orphanBranch text)).trans
      (extends_enterLane _ w defaultLane)).trans
        (extends_addNode (w.enterLane defaultLane) (w.lane defaultLane) l text .task)
    rw [← result] at added
    refine ⟨_, .orphan (w.lane defaultLane) e ⟨_, List.mem_cons_self, rfl⟩ ?_, added⟩
    rw [result, addNode_events, open']
    simp [flowEvent, e]
  | cons g outer =>
    let w := if l.depth = g.depth then d.warn l (.branchDepth text) else d
    let e := (w.enterLane defaultLane).newElement (w.lane defaultLane) l text .task
    have result : d' = (w.enterLane defaultLane).addBranch (w.lane defaultLane) l g outer sign
        label text := by
      simp only [d', performBranch, hg, w]
    obtain ⟨warnings, kinds, warned⟩ : ∃ warnings : List Diagnostic,
        (∀ x ∈ warnings, x.kind ≠ .orphanBranch) ∧
          Extends l.number d w { diagnostics := warnings } := by
      by_cases same : l.depth = g.depth
      · refine ⟨_, ?_, by simpa only [w, if_pos same] using extends_warn d l (.branchDepth text)⟩
        simp [Finding.toDiagnostic, Finding.kind]
      · exact ⟨[], by simp, by simpa only [w, if_neg same] using extends_of_eq rfl rfl rfl⟩
    have added := (warned.trans (extends_enterLane _ w defaultLane)).trans
      (extends_addBranch (w.enterLane defaultLane) (w.lane defaultLane) l g outer sign label text)
    rw [← result] at added
    refine ⟨_, .branch (w.lane defaultLane) e g.id ?_ ?_, added⟩
    · intro x hx
      rcases List.mem_append.1 hx with hx | hx
      · exact kinds x (by simpa using hx)
      · simp [(line_of_mem_duplicateWarning hx).1]
    · rw [result, addBranch_events]
      simp [e]

/-- Whatever is stated, a draft gets more records on the line only, and those that the account
says. -/
theorem perform_account (d : Draft) (defaultLane : String) (l : Line) (s : Statement) :
    ∃ y, Account l d.processName (d.perform defaultLane l s).events s y ∧
      Extends l.number d (d.perform defaultLane l s) y := by
  have enter := extends_enterLane l.number d defaultLane
  cases s with
  | comment => exact ⟨{}, .comment, extends_of_eq rfl rfl rfl⟩
  | flowBreak => exact ⟨{}, .flowBreak, extends_of_eq rfl rfl rfl⟩
  | empty => exact ⟨_, .empty, extends_warn d l _⟩
  | badConnection => exact ⟨_, .badConnection, extends_warn d l _⟩
  | process name =>
    cases hp : d.processName with
    | none =>
      refine ⟨{}, .named name rfl, ?_⟩
      simp only [perform, hp]
      exact extends_of_eq rfl rfl rfl
    | some existing =>
      refine ⟨_, .renamed name rfl, ?_⟩
      simp only [perform, hp]
      exact extends_warn d l _
  | lane name =>
    exact ⟨{}, .lane name, extends_of_eq (openLane_elements d name) (openLane_references d name)
      (openLane_diagnostics d name)⟩
  | node kind label =>
    exact ⟨_, .node (d.lane defaultLane) _ _, enter.trans (extends_addNode _ _ l label kind)⟩
  | branch sign label text => exact performBranch_account d defaultLane l sign label text
  | data name associated =>
    exact ⟨_, .data _ _, enter.trans (extends_declare _ _ l name (.dataObject associated))⟩
  | note text => exact ⟨_, .note _ _, enter.trans (extends_declare _ _ l text _)⟩
  | connect label source direction target =>
    simp only [perform, performConnection]
    split
    · exact ⟨_, .sourceless, extends_warn d l _⟩
    · exact ⟨_, .connected rfl, enter.trans (extends_addReference _ rfl)⟩

/-- Every line leaves what its account says, and nothing on other lines. -/
theorem consume_account (d : Draft) (defaultLane : String) (l : Line) :
    ∃ y, Account l d.processName (d.consume defaultLane l).events (.ofLine l) y ∧
      Extends l.number d (d.consume defaultLane l) y := by
  obtain ⟨y, account, added⟩ := perform_account
    (d.closeGateways (OpenGateway.closedBy l.kind l.depth)) defaultLane l (.ofLine l)
  rw [closeGateways_processName] at account
  exact ⟨y, account, by simpa [consume] using (extends_closeGateways l.number d _).trans added⟩

theorem Account.mono {named : Option String} {events events' : List Event} {s : Statement}
    {y : Records} (h : Account l named events s y) (more : events ⊆ events') :
    Account l named events' s y := by
  cases h with
  | comment => exact .comment
  | flowBreak => exact .flowBreak
  | lane name => exact .lane name
  | named name h => exact .named name h
  | renamed name h => exact .renamed name h
  | empty => exact .empty
  | badConnection => exact .badConnection
  | sourceless => exact .sourceless
  | connected kind => exact .connected kind
  | node lane e warnings => exact .node lane e warnings
  | orphan lane e warned logged => exact .orphan lane e warned (more logged)
  | branch lane e gateway warned logged => exact .branch lane e gateway warned (more logged)
  | data e warnings => exact .data e warnings
  | note e warnings => exact .note e warnings

/-! ## The name of the process -/

theorem enterLane_processName (d : Draft) (defaultLane : String) :
    (d.enterLane defaultLane).processName = d.processName := by
  unfold enterLane openLane
  split
  · rfl
  · split <;> rfl

/-- Only a line that names the process changes its name, and only if it has none. -/
theorem perform_processName (d : Draft) (defaultLane : String) (l : Line) (s : Statement) :
    (d.perform defaultLane l s).processName = d.processName.or s.processName? := by
  cases s with
  | process name =>
    simp only [perform, Statement.processName?]
    cases hp : d.processName with
    | none => rfl
    | some existing => exact hp
  | lane name =>
    simp only [perform, openLane, Statement.processName?, Option.or_none]
    split <;> rfl
  | node kind label =>
    simp [perform, addNode_eq, enterLane_processName, Statement.processName?]
  | branch sign label text =>
    simp only [perform, performBranch, Statement.processName?, Option.or_none]
    split
    · simp [addNode_eq, enterLane_processName, warn]
    · rw [addBranch_eq, enterLane_processName]
      split <;> rfl
  | connect label source direction target =>
    simp only [perform, performConnection, Statement.processName?, Option.or_none]
    split
    · rfl
    · exact enterLane_processName d defaultLane
  | data | note => simp [perform, declare, enterLane_processName, Statement.processName?]
  | comment | flowBreak | empty | badConnection => exact (Option.or_none).symm

theorem consume_processName (d : Draft) (defaultLane : String) (l : Line) :
    (d.consume defaultLane l).processName =
      d.processName.or (Statement.ofLine l).processName? := by
  rw [consume, perform_processName, closeGateways_processName]

theorem run_processName (d : Draft) (defaultLane : String) (ls : List Line) :
    (d.run defaultLane ls).processName =
      d.processName.or (ls.findSome? fun l => (Statement.ofLine l).processName?) := by
  induction ls generalizing d with
  | nil => exact (Option.or_none).symm
  | cons l ls ih =>
    rw [run_cons, ih, consume_processName, List.findSome?_cons, Option.or_assoc]
    cases (Statement.ofLine l).processName? <;> rfl

/-! ## Whole runs -/

/-- Lines do not touch the records of another line. -/
theorem recordsOn_run {n : Nat} {ls : List Line} (h : ∀ l ∈ ls, l.number ≠ n) (d : Draft)
    (defaultLane : String) : (d.run defaultLane ls).recordsOn n = d.recordsOn n := by
  induction ls generalizing d with
  | nil => rfl
  | cons l ls ih =>
    obtain ⟨y, -, added⟩ := consume_account d defaultLane l
    rw [run_cons, ih (fun l' hl' => h l' (by simp [hl'])), added.of_ne (h l (by simp)).symm]

end Draft

namespace Outline

open Draft

/-- A line among lines with other numbers: its records in the finished draft are those that its
account says. -/
theorem account_finished (defaultLane : String) {ls rest : List Line} {l : Line}
    (before : ∀ l' ∈ ls, l'.number ≠ l.number) (behind : ∀ l' ∈ rest, l'.number ≠ l.number) :
    let d := finished defaultLane (ls ++ l :: rest)
    Account l (ls.findSome? fun l => (Statement.ofLine l).processName?) d.events (.ofLine l)
      (d.recordsOn l.number) := by
  intro d
  let d₀ := draft defaultLane ls
  let d₁ := d₀.consume defaultLane l
  have whole : draft defaultLane (ls ++ l :: rest) = d₁.run defaultLane rest :=
    draft_append_run defaultLane ls (l :: rest)
  obtain ⟨y, account, added⟩ := consume_account d₀ defaultLane l
  have name : d₀.processName = ls.findSome? fun l => (Statement.ofLine l).processName? :=
    run_processName {} defaultLane ls
  have unrecorded : d₀.recordsOn l.number = {} := recordsOn_run before {} defaultLane
  have records : d.recordsOn l.number = y := by
    have closed := extends_closeGateways l.number (d₁.run defaultLane rest) (fun _ => true)
    have same : d.recordsOn l.number = (d₁.run defaultLane rest).recordsOn l.number := by
      simpa [d, finished, whole] using closed l.number
    rw [same, recordsOn_run behind, added l.number, unrecorded]
    simp
  have logged : d₁.events ⊆ d.events := by
    have anchored : d₁.Anchored := anchored_consume defaultLane l (anchored_draft defaultLane ls)
    have run := events_prefix_run defaultLane anchored rest
    have close : (d₁.run defaultLane rest).events <+: d.events := by
      rw [← whole]
      exact finished_invariant defaultLane (P := fun x => _ <+: x.events)
        (fun _ _ step earlier => earlier.trans step.logs.isPrefix) (List.prefix_refl _)
    exact (run.trans close).subset
  rw [records, ← name]
  exact account.mono logged

end Outline

end Swimlane
