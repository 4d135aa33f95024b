import Swimlane.Proofs.Outline.Registry
import Swimlane.Proofs.Outline.Stack

/-!
# Branch tasks and notes

Two kinds of elements refer to others: a gateway to the tasks of its branches, a note to the element
it is attached to. A branch task is declared after its gateway, in the same lane, and hangs from it
alone. A note looks back to the last element that is not a note itself.

## Main statements

* `Draft.Branching`: where the tasks of branches are;
* `Draft.Annotated`: what notes are attached to;
* `Outline.branching_finished`, `Outline.annotated_finished`: so it is for every list of lines.
-/

namespace Swimlane

namespace Element

/-- The branches of a gateway; other elements have none. -/
def branches (e : Element) : List Branch :=
  match e.kind with
  | .gateway branches => branches
  | _ => []

/-- The ids of the tasks that a gateway branches to. -/
def branchTasks (e : Element) : List String := e.branches.map (·.task)

theorem branches_eq {e : Element} {branches : List Branch} (h : e.kind = .gateway branches) :
    e.branches = branches := by
  simp [Element.branches, h]

theorem branches_addBranch {e : Element} (h : e.kind = .gateway e.branches) (b : Branch) :
    (e.addBranch b).branches = e.branches ++ [b] := by
  refine branches_eq ?_
  simp only [addBranch]
  rw [h]
  rfl

theorem branchTasks_addBranch {e : Element} (h : e.kind = .gateway e.branches) (b : Branch) :
    (e.addBranch b).branchTasks = e.branchTasks ++ [b.task] := by
  simp [branchTasks, branches_addBranch h b]

theorem branches_eq_nil_of_isNew {e : Element} {label : String} (h : e.kind.IsNew label) :
    e.branches = [] := by
  unfold branches
  split
  · next hk =>
    rw [hk] at h
    exact h
  · rfl

/-- What a note shows: its id and, if it is a note, the id it is attached to. -/
def noteView (e : Element) : String × Option (Option String) :=
  (e.id, match e.kind with
    | .note attached => some attached
    | _ => none)

theorem Grows.noteView {e e' : Element} (h : e.Grows e') : e'.noteView = e.noteView := by
  unfold Element.noteView
  rw [h.id]
  have grows := h.kind
  generalize e.kind = kind, e'.kind = kind' at grows ⊢
  cases grows with
  | refl => rfl
  | gateway => rfl

end Element

namespace Draft

/-! ## Branches -/

/-- Branch tasks are tasks of their gateway's lane, declared after it, and no id occurs twice among
them. -/
structure Branching (d : Draft) : Prop where
  tasks : ∀ e ∈ d.elements, ∀ id ∈ e.branchTasks,
    ∃ x ∈ d.elements, x.id = id ∧ x.kind = .task ∧ x.lane = e.lane ∧ e.order < x.order
  nodup : (d.elements.flatMap Element.branchTasks).Nodup

theorem branching_empty : Branching {} where
  tasks := by simp
  nodup := List.nodup_nil

theorem Branching.congr {d d' : Draft} (hd : d.Branching) (h : d'.elements = d.elements) :
    d'.Branching where
  tasks := by rw [h]; exact hd.tasks
  nodup := by rw [h]; exact hd.nodup

/-- Old branch tasks stay where they are. -/
theorem Branching.tasks_mono {d d' : Draft} (hd : d.Branching) (later : d.Precedes d') {e : Element}
    (he : e ∈ d.elements) {id : String} (hid : id ∈ e.branchTasks) :
    ∃ x ∈ d'.elements, x.id = id ∧ x.kind = .task ∧ x.lane = e.lane ∧ e.order < x.order := by
  obtain ⟨x, hx, rfl, kind, lane, order⟩ := hd.tasks e he id hid
  obtain ⟨x', hx', grows⟩ := later.mem hx
  have kind' : x'.kind = .task := (grows.kind_eq_iff (by simp)).2 kind
  exact ⟨x', hx', grows.id, kind', grows.lane.trans lane, grows.order ▸ order⟩

/-- An element without branches adds no branch task. -/
theorem Branching.append {d d' : Draft} (hd : d.Branching) (later : d.Precedes d') {e : Element}
    (elements : d'.elements = d.elements ++ [e]) (he : e.branches = []) : d'.Branching where
  tasks := by
    intro x hx id hid
    rw [elements, List.mem_append, List.mem_singleton] at hx
    obtain hx | rfl := hx
    · exact hd.tasks_mono later hx hid
    · simp [Element.branchTasks, he] at hid
  nodup := by
    rw [elements, List.flatMap_append]
    simpa [Element.branchTasks, he] using hd.nodup

/-- The elements around the gateway that gets a branch. -/
theorem Stacked.elements_addBranch {d : Draft} (hd : d.Stacked) {lane : LaneHeader} (l : Line)
    {g : OpenGateway} {outer : List OpenGateway} (sign : Sign) (label : Option String)
    (text : String) (hl : d.current = some lane) (hg : d.gateways = g :: outer) :
    ∃ before x after, d.elements = before ++ x :: after ∧ before.length = g.slot ∧
      x.kind = .gateway x.branches ∧ x.lane = lane.id ∧
      (d.addBranch lane l g outer sign label text).elements =
        before ++ x.addBranch (d.newBranch lane l sign label text) ::
          (after ++ [d.newElement lane l text .task]) := by
  obtain ⟨x, branches, slot, id, kind, shows', lane'⟩ := hd.stands g (by simp [hg])
  obtain ⟨bound, hx⟩ := List.getElem?_eq_some_iff.1 slot
  have split : d.elements = d.elements.take g.slot ++ x :: d.elements.drop (g.slot + 1) := by
    rw [← hx, ← List.drop_eq_getElem_cons bound, List.take_append_drop]
  refine ⟨_, x, _, split, List.length_take_of_le (Nat.le_of_lt bound),
    by rw [Element.branches_eq kind, kind], by simpa [hl] using lane'.symm, ?_⟩
  have inside : g.slot < (d.elements ++ [d.newElement lane l text .task]).length := by
    simpa using Nat.lt_succ_of_lt bound
  rw [addBranch_elements, List.modify_eq_take_cons_drop inside, List.getElem_append_left bound, hx,
    List.take_append_of_le_length (Nat.le_of_lt bound), List.drop_append_of_le_length bound]

theorem Stacked.newElement_mem_addBranch {d : Draft} (hd : d.Stacked) {lane : LaneHeader} (l : Line)
    {g : OpenGateway} {outer : List OpenGateway} (sign : Sign) (label : Option String)
    (text : String) (hl : d.current = some lane) (hg : d.gateways = g :: outer) :
    d.newElement lane l text .task ∈ (d.addBranch lane l g outer sign label text).elements := by
  obtain ⟨before, x, after, -, -, -, -, new⟩ := hd.elements_addBranch l sign label text hl hg
  rw [new]
  simp

theorem Declares.branching {l : Line} {d d' : Draft} (h : Declares l d d') (hr : d.Registered)
    (hs : d.Stacked) (hd : d.Branching) : d'.Branching := by
  have later := h.precedes
  cases h with
  | @node lane label kind hl hk =>
    exact hd.append later (addNode_elements ..) (Element.branches_eq_nil_of_isNew hk)
  | @aside lane kind label hl hk =>
    refine hd.append later rfl ?_
    obtain ⟨_, rfl⟩ | rfl := hk
    · rfl
    · rfl
  | @branch lane g outer sign label text hl hg =>
    let e := d.newElement lane l text .task
    let b := d.newBranch lane l sign label text
    obtain ⟨before, x, after, old, slot, kind, lane', new⟩ :=
      hs.elements_addBranch l sign label text hl hg
    have tasks : (x.addBranch b).branchTasks = x.branchTasks ++ [e.id] :=
      Element.branchTasks_addBranch kind b
    have mem (y : Element) (hy : y ∈ before ∨ y = x ∨ y ∈ after) : y ∈ d.elements := by
      rw [old]
      simpa using hy
    refine ⟨?_, ?_⟩
    · intro y hy id hid
      rw [new, List.mem_append, List.mem_cons, List.mem_append, List.mem_singleton] at hy
      obtain hy | rfl | hy | rfl := hy
      · exact hd.tasks_mono later (mem y (.inl hy)) hid
      · rw [tasks, List.mem_append, List.mem_singleton] at hid
        obtain hid | rfl := hid
        · exact hd.tasks_mono later (mem x (.inr (.inl rfl))) hid
        · have place : d.elements[before.length]? = some x := by simp [old]
          have order : x.order < e.order := by
            rw [hr.order_eq place]
            exact (List.getElem?_eq_some_iff.1 place).1
          exact ⟨e, hs.newElement_mem_addBranch l sign label text hl hg, rfl, rfl, lane'.symm,
            order⟩
      · exact hd.tasks_mono later (mem y (.inr (.inr hy))) hid
      · simp [Element.branchTasks, Element.branches, newElement] at hid
    · have childless : e.branchTasks = [] := rfl
      have perm : ((d.addBranch lane l g outer sign label text).elements.flatMap
          Element.branchTasks).Perm (d.elements.flatMap Element.branchTasks ++ [e.id]) := by
        simp only [new, old, List.flatMap_append, List.flatMap_cons, tasks, childless,
          List.flatMap_nil, List.append_nil, List.append_assoc, e, b]
        exact (List.perm_append_comm.append_left _).append_left _
      refine perm.nodup_iff.2 (List.nodup_append.2 ⟨hd.nodup, List.nodup_singleton _, ?_⟩)
      intro a ha c hc hac
      obtain ⟨y, hy, task⟩ := List.mem_flatMap.1 ha
      obtain ⟨t, ht, rfl, -⟩ := hd.tasks y hy a task
      exact hr.newElement_id_ne lane l text .task ht ((List.mem_singleton.1 hc).symm.trans hac.symm)

/-! ## Notes -/

/-- A note is attached to the last element before it that is not a note. -/
def Annotated (d : Draft) : Prop :=
  ∀ (before after : List Element) (e : Element) (attached : Option String),
    d.elements = before ++ e :: after → e.kind = .note attached →
      attached = (before.filter fun x => !x.kind.isNote).getLast?.map (·.id)

theorem noteView_snd_isNone (e : Element) : e.noteView.2.isNone = !e.kind.isNote := by
  unfold ElementKind.isNote Element.noteView
  cases e.kind <;> rfl

theorem noteView_eq_iff {e : Element} {id : String} {attached : Option String} :
    e.noteView = (id, some attached) ↔ e.id = id ∧ e.kind = .note attached := by
  unfold Element.noteView
  cases e.kind <;> simp

/-- What a note behind some elements is attached to, told from their views. -/
theorem lastSubject_map_noteView (es : List Element) :
    ((es.map (·.noteView)).filter fun v => v.2.isNone).getLast?.map (·.1) =
      (es.filter fun x => !x.kind.isNote).getLast?.map (·.id) := by
  rw [List.filter_map, List.getLast?_map, Option.map_map]
  simp only [Function.comp_def, noteView_snd_isNone]
  rfl

/-- Whether the notes are attached as they should be can be told from the views: branches do not
matter. -/
theorem annotated_iff {d : Draft} :
    d.Annotated ↔ ∀ before after id attached,
      d.elements.map (·.noteView) = before ++ (id, some attached) :: after →
        attached = (before.filter fun v => v.2.isNone).getLast?.map (·.1) := by
  constructor
  · intro h before after id attached split
    obtain ⟨xs, ys, hes, rfl, rest⟩ := List.map_eq_append_iff.1 split
    obtain ⟨e, zs, rfl, view, rfl⟩ := List.map_eq_cons_iff.1 rest
    rw [lastSubject_map_noteView]
    exact h xs zs e attached hes (noteView_eq_iff.1 view).2
  · intro h before after e attached split kind
    rw [← lastSubject_map_noteView]
    refine h _ (after.map (·.noteView)) e.id attached ?_
    rw [split, List.map_append, List.map_cons, noteView_eq_iff.2 ⟨rfl, kind⟩]

theorem Declares.annotated {l : Line} {d d' : Draft} (h : Declares l d d') (hd : d.Annotated) :
    d'.Annotated := by
  obtain ⟨e, next, -, -, -, map⟩ := h.exists_next
  rw [annotated_iff] at hd ⊢
  intro before after id attached split
  rw [map fun _ _ h => h.noteView] at split
  -- The note is the new element or stands before it.
  obtain rfl | ⟨after, last, rfl⟩ := List.eq_nil_or_concat after
  · obtain ⟨rfl, new⟩ := List.append_inj' split rfl
    have kind := (noteView_eq_iff.1 (List.head_eq_of_cons_eq new)).2
    rw [lastSubject_map_noteView]
    obtain isNew | ⟨associated, data⟩ | note := next.kind
    · rw [kind] at isNew
      exact isNew.elim
    · simp [kind] at data
    · simpa [kind, lastSubject?] using note
  · rw [List.concat_eq_append, ← List.cons_append, ← List.append_assoc] at split
    exact hd before after id attached (List.append_inj' split rfl).1

theorem Annotated.congr {d d' : Draft} (hd : d.Annotated) (h : d'.elements = d.elements) :
    d'.Annotated := by
  unfold Annotated
  rw [h]
  exact hd

end Draft

namespace Outline

open Draft

theorem branching_finished (defaultLane : String) (lines : List Line) :
    (finished defaultLane lines).Branching := by
  have run : (draft defaultLane lines).Branching :=
    And.right <| And.right <| draft_invariant
      (P := fun d => d.Registered ∧ d.Stacked ∧ d.Branching) defaultLane
      ⟨registered_empty, stacked_of_nil rfl, branching_empty⟩
      (fun _ _ _ _ h hd => ⟨h.registered hd.1, h.stacked hd.2.1, hd.2.2.congr h.elements⟩)
      fun _ _ _ _ h hd => ⟨h.registered hd.1, h.stacked hd.2.1, h.branching hd.1 hd.2.1 hd.2.2⟩
  exact finished_invariant defaultLane (fun _ _ h hd => hd.congr h.elements) run

theorem annotated_finished (defaultLane : String) (lines : List Line) :
    (finished defaultLane lines).Annotated := by
  have run : (draft defaultLane lines).Annotated :=
    draft_invariant defaultLane (by simp [Annotated]) (fun _ _ _ _ h hd => hd.congr h.elements)
      fun _ _ _ _ h => h.annotated
  exact finished_invariant defaultLane (fun _ _ h hd => hd.congr h.elements) run

end Outline

end Swimlane
