import Mathlib.Data.List.Zip
import Swimlane.Proofs.Document

/-!
# Messages and their other sides

The two sides of a message meet in the order of their declaration: the first one that is sent meets
the first one that is received, whatever stands between them. So of each message only one side can
wait, and what waits are the last elements of this side.

## Main definitions

* `Element.message?`: the side of a message that an element is;
* `WaitingMessage.ofSide`: the elements of one side of a message;
* `Draft.Paired`: the pairs of a draft and what waits in it.

## Main statements

* `Draft.Paired.waits`, `Draft.Paired.meets`: an element on a side of a message;
* `Outline.paired_finished`: the messages of every list of lines.
-/

namespace Swimlane

/-- The side that a side of a message waits for. -/
def Side.other : Side → Side
  | .send => .receive
  | .receive => .send

theorem Side.bne_eq (side side' : Side) : (side != side') = decide (side = side'.other) := by
  cases side <;> cases side' <;> rfl

theorem Side.eq_or_eq_other (side side' : Side) : side = side' ∨ side = side'.other := by
  cases side <;> cases side' <;> simp [other]

theorem Side.other_ne (side : Side) : side.other ≠ side := by
  cases side <;> simp [other]

theorem Side.other_other (side : Side) : side.other.other = side := by
  cases side <;> rfl

/-- The side of a message that an element is. -/
def Element.message? (e : Element) : Option WaitingMessage :=
  match e.kind with
  | .message side text => some ⟨text, e.id, side, e.order, e.line, e.span⟩
  | _ => none

theorem Element.Grows.message? {e e' : Element} (h : e.Grows e') : e'.message? = e.message? := by
  obtain ⟨kind, grows, rfl⟩ := h
  unfold Element.message?
  cases hk : e.kind <;> rw [hk] at grows <;> cases grows <;> rfl

/-- The elements of one side of a message. -/
def WaitingMessage.ofSide (label : String) (side : Side) (messages : List WaitingMessage) :
    List WaitingMessage :=
  messages.filter fun m => m.label = label && m.side = side

/-- The pairs of a message, as the ids of their ends. -/
def WaitingMessage.pairs (label : String) (messages : List WaitingMessage) :
    List (String × String) :=
  ((ofSide label .send messages).zip (ofSide label .receive messages)).map
    fun p => (p.1.element, p.2.element)

/-- The ids that an event pairs for a message. -/
def Event.pair? (label : String) : Event → Option (String × String)
  | .messagePaired sender receiver l => if l = label then some (sender, receiver) else none
  | _ => none

namespace WaitingMessage

variable {label : String} {side : Side} {m : WaitingMessage} {messages : List WaitingMessage}

theorem ofSide_append (messages' : List WaitingMessage) :
    ofSide label side (messages ++ messages') =
      ofSide label side messages ++ ofSide label side messages' :=
  List.filter_append ..

theorem ofSide_cons_self : ofSide m.label m.side (m :: messages) =
    m :: ofSide m.label m.side messages := by
  simp [ofSide]

theorem ofSide_cons_of_ne (h : m.label ≠ label ∨ m.side ≠ side) :
    ofSide label side (m :: messages) = ofSide label side messages := by
  refine List.filter_cons_of_neg ?_
  rcases h with h | h <;> simp [h]

/-- A message that is added to others is the last one of its side. -/
theorem ofSide_concat_self : ofSide m.label m.side (messages ++ [m]) =
    ofSide m.label m.side messages ++ [m] := by
  rw [ofSide_append, ofSide_cons_self]
  rfl

theorem ofSide_concat_of_ne (h : m.label ≠ label ∨ m.side ≠ side) :
    ofSide label side (messages ++ [m]) = ofSide label side messages := by
  rw [ofSide_append, ofSide_cons_of_ne h]
  exact List.append_nil _

end WaitingMessage

/-! ## Lists in step -/

section

variable {α β : Type} {xs : List α} {ys : List β}

theorem zip_concat_of_length_le (h : ys.length ≤ xs.length) (x : α) :
    (xs ++ [x]).zip ys = xs.zip ys := by
  induction xs generalizing ys with
  | nil => simp [List.length_eq_zero_iff.1 (Nat.le_zero.1 h)]
  | cons a xs ih =>
    cases ys with
    | nil => rfl
    | cons b ys => simp [ih (Nat.le_of_succ_le_succ h)]

theorem zip_concat_of_drop {y : β} {rest : List β} (h : ys.drop xs.length = y :: rest) (x : α) :
    (xs ++ [x]).zip ys = xs.zip ys ++ [(x, y)] := by
  induction xs generalizing ys with
  | nil => simp [show ys = y :: rest from h]
  | cons a xs ih =>
    cases ys with
    | nil => simp at h
    | cons b ys => simp [ih h]

theorem zip_concat_right_of_length_le (h : xs.length ≤ ys.length) (y : β) :
    xs.zip (ys ++ [y]) = xs.zip ys := by
  rw [← List.zip_swap, zip_concat_of_length_le h, List.zip_swap]

theorem zip_concat_right_of_drop {x : α} {rest : List α} (h : xs.drop ys.length = x :: rest)
    (y : β) : xs.zip (ys ++ [y]) = xs.zip ys ++ [(x, y)] := by
  rw [← List.zip_swap, zip_concat_of_drop h, List.map_append, List.zip_swap]
  rfl

end

namespace WaitingMessage

variable {m w : WaitingMessage} {messages rest : List WaitingMessage}

/-- An element that finds nothing on the other side makes no pair. -/
theorem pairs_concat_of_length_le
    (h : (ofSide m.label m.side.other messages).length ≤ (ofSide m.label m.side messages).length) :
    pairs m.label (messages ++ [m]) = pairs m.label messages := by
  have own : ofSide m.label m.side (messages ++ [m]) = _ := ofSide_concat_self
  have other : ofSide m.label m.side.other (messages ++ [m]) = _ :=
    ofSide_concat_of_ne (.inr m.side.other_ne.symm)
  unfold pairs
  cases side : m.side with
  | send =>
    simp only [side, Side.other] at h own other
    rw [own, other, zip_concat_of_length_le h]
  | receive =>
    simp only [side, Side.other] at h own other
    rw [own, other, zip_concat_right_of_length_le h]

/-- An element makes a pair with the first one on the other side that is left over. -/
theorem pairs_concat_of_drop
    (h : (ofSide m.label m.side.other messages).drop (ofSide m.label m.side messages).length =
      w :: rest) :
    pairs m.label (messages ++ [m]) =
      pairs m.label messages ++ ((Draft.joinEvent m w).pair? m.label).toList := by
  have own : ofSide m.label m.side (messages ++ [m]) = _ := ofSide_concat_self
  have other : ofSide m.label m.side.other (messages ++ [m]) = _ :=
    ofSide_concat_of_ne (.inr m.side.other_ne.symm)
  unfold pairs
  cases side : m.side with
  | send =>
    simp only [side, Side.other] at h own other
    rw [own, other, zip_concat_of_drop h]
    simp [Draft.joinEvent, side, Event.pair?]
  | receive =>
    simp only [side, Side.other] at h own other
    rw [own, other, zip_concat_right_of_drop h]
    simp [Draft.joinEvent, side, Event.pair?]

end WaitingMessage

namespace Draft

open WaitingMessage (ofSide ofSide_append ofSide_cons_self ofSide_cons_of_ne ofSide_concat_self
  ofSide_concat_of_ne pairs pairs_concat_of_length_le pairs_concat_of_drop)

variable {d d' : Draft} {l : Line} {m w : WaitingMessage}

/-- The elements of a draft that are sides of messages. -/
def messages (d : Draft) : List WaitingMessage := d.elements.filterMap Element.message?

/-- Of each message, the elements of the two sides are paired in their order, and those that are
left over wait. -/
structure Paired (d : Draft) : Prop where
  waiting : ∀ label side, ofSide label side d.waiting =
    (ofSide label side d.messages).drop (ofSide label side.other d.messages).length
  events : ∀ label, d.events.filterMap (Event.pair? label) = pairs label d.messages
  sublist : d.waiting.Sublist d.messages

theorem paired_empty : Paired {} where
  waiting := by simp [messages, ofSide]
  events := by simp [messages, pairs, ofSide]
  sublist := List.Sublist.refl _

theorem Paired.congr (hd : d.Paired) (messages : d'.messages = d.messages)
    (waiting : d'.waiting = d.waiting)
    (events : ∀ label, d'.events.filterMap (Event.pair? label) =
      d.events.filterMap (Event.pair? label)) : d'.Paired where
  waiting := by rw [messages, waiting]; exact hd.waiting
  events label := by rw [messages, events label]; exact hd.events label
  sublist := by rw [messages, waiting]; exact hd.sublist

theorem otherSide?_eq_head? (waiting : List WaitingMessage) (m : WaitingMessage) :
    otherSide? waiting m = (ofSide m.label m.side.other waiting).head? := by
  simp only [otherSide?, ofSide, List.head?_filter, Side.bne_eq]

/-- The first one that waits on the other side is taken out. -/
theorem split_of_otherSide? {waiting : List WaitingMessage} (h : otherSide? waiting m = some w) :
    w.label = m.label ∧ w.side = m.side.other ∧
      ∃ before after, waiting = before ++ w :: after ∧ waiting.erase w = before ++ after ∧
        ofSide m.label m.side.other before = [] := by
  obtain ⟨found, before, after, rfl, passed⟩ := List.find?_eq_some_iff_append.1 h
  simp only [Side.bne_eq, Bool.and_eq_true, decide_eq_true_eq] at found
  refine ⟨found.1, found.2, before, after, rfl, ?_, ?_⟩
  · have fresh : w ∉ before := fun mem => by
      have := passed w mem
      simp [Side.bne_eq, found] at this
    rw [List.erase_append_right _ fresh, List.erase_cons_head]
  · refine List.filter_eq_nil_iff.2 fun x hx => ?_
    simpa [Side.bne_eq, imp_iff_not_or] using passed x hx

/-- One more element on a side of a message: other messages are left alone. -/
theorem Paired.step (hd : d.Paired) (messages : d'.messages = d.messages ++ [m])
    (apart : ∀ label, m.label ≠ label →
      (∀ side, ofSide label side d'.waiting = ofSide label side d.waiting) ∧
        d'.events.filterMap (Event.pair? label) = d.events.filterMap (Event.pair? label))
    (own : ofSide m.label m.side d'.waiting = (ofSide m.label m.side d.messages ++ [m]).drop
      (ofSide m.label m.side.other d.messages).length)
    (other : ofSide m.label m.side.other d'.waiting = (ofSide m.label m.side.other d.messages).drop
      ((ofSide m.label m.side d.messages).length + 1))
    (events : d'.events.filterMap (Event.pair? m.label) = pairs m.label (d.messages ++ [m]))
    (sublist : d'.waiting.Sublist (d.messages ++ [m])) : d'.Paired := by
  refine ⟨fun label side => ?_, fun label => ?_, messages ▸ sublist⟩
  · rw [messages]
    by_cases same : m.label = label
    · subst same
      have away := m.side.other_ne.symm
      rcases side.eq_or_eq_other m.side with rfl | rfl
      · rw [own, ofSide_concat_self, ofSide_concat_of_ne (.inr away)]
      · rw [other, Side.other_other, ofSide_concat_self, ofSide_concat_of_ne (.inr away),
          List.length_append, List.length_singleton]
    · rw [(apart label same).1, hd.waiting, ofSide_concat_of_ne (.inl same),
        ofSide_concat_of_ne (.inl same)]
  · rw [messages]
    by_cases same : m.label = label
    · subst same
      exact events
    · rw [(apart label same).2, hd.events, pairs, pairs, ofSide_concat_of_ne (.inl same),
        ofSide_concat_of_ne (.inl same)]

/-- An element on a side of a message that finds nothing on the other side waits. -/
theorem Paired.waits (hd : d.Paired) (unmatched : otherSide? d.waiting m = none)
    (messages : d'.messages = d.messages ++ [m]) (waiting : d'.waiting = d.waiting ++ [m])
    (events : ∀ label, d'.events.filterMap (Event.pair? label) =
      d.events.filterMap (Event.pair? label)) : d'.Paired := by
  have away := m.side.other_ne.symm
  -- The other side of the message has no more elements than this one.
  have empty : ofSide m.label m.side.other d.waiting = [] := by
    rwa [otherSide?_eq_head?, List.head?_eq_none_iff] at unmatched
  have short : (ofSide m.label m.side.other d.messages).length ≤
      (ofSide m.label m.side d.messages).length := by
    rw [hd.waiting, Side.other_other] at empty
    exact List.drop_eq_nil_iff.1 empty
  refine hd.step messages (fun label ne => ⟨fun side => ?_, events label⟩) ?_ ?_ ?_ ?_
  · rw [waiting, ofSide_concat_of_ne (.inl ne)]
  · rw [waiting, ofSide_concat_self, hd.waiting, List.drop_append_of_le_length short]
  · rw [waiting, ofSide_concat_of_ne (.inr away), empty, List.drop_eq_nil_of_le]
    exact Nat.le_succ_of_le short
  · rw [events, hd.events, pairs_concat_of_length_le short]
  · rw [waiting]
    exact hd.sublist.append (List.Sublist.refl _)

/-- An element on a side of a message takes the first one that waits on the other side. -/
theorem Paired.meets (hd : d.Paired) (found : otherSide? d.waiting m = some w)
    (messages : d'.messages = d.messages ++ [m]) (waiting : d'.waiting = d.waiting.erase w)
    (events : ∀ label, d'.events.filterMap (Event.pair? label) =
      d.events.filterMap (Event.pair? label) ++ ((joinEvent m w).pair? label).toList) :
    d'.Paired := by
  obtain ⟨label, side, before, after, split, erased, clear⟩ := split_of_otherSide? found
  have first : (ofSide m.label m.side.other d.messages).drop
      (ofSide m.label m.side d.messages).length = w :: ofSide m.label m.side.other after := by
    have own : ofSide w.label w.side (w :: after) = _ := ofSide_cons_self
    rw [label, side] at own
    have waits := hd.waiting m.label m.side.other
    rw [Side.other_other] at waits
    rw [← waits, split, ofSide_append, clear, own]
    rfl
  have long : (ofSide m.label m.side d.messages).length <
      (ofSide m.label m.side.other d.messages).length := by
    by_contra short
    rw [List.drop_eq_nil_of_le (Nat.le_of_not_lt short)] at first
    cases first
  have kept {label' : String} {side' : Side} (ne : w.label ≠ label' ∨ w.side ≠ side') :
      ofSide label' side' d'.waiting = ofSide label' side' d.waiting := by
    rw [waiting, erased, split, ofSide_append, ofSide_append, ofSide_cons_of_ne ne]
  refine hd.step messages (fun label' ne => ⟨fun side' => kept (.inl (label ▸ ne)), ?_⟩) ?_ ?_ ?_ ?_
  · have quiet : (joinEvent m w).pair? label' = none := by
      cases hm : m.side <;> simp [joinEvent, hm, Event.pair?, ne]
    rw [events, quiet]
    exact List.append_nil _
  · rw [kept (.inr (side ▸ m.side.other_ne)), hd.waiting,
      List.drop_eq_nil_of_le (Nat.le_of_lt long), List.drop_eq_nil_of_le]
    simpa using Nat.succ_le_of_lt long
  · rw [waiting, erased, ofSide_append, clear, List.drop_add_one_eq_tail_drop, first]
    rfl
  · rw [events, hd.events, pairs_concat_of_drop first]
  · rw [waiting]
    exact (List.erase_sublist.trans hd.sublist).trans (List.sublist_append_left _ _)

/-! ## Whole runs -/

theorem messageOf?_newElement (d : Draft) (lane : LaneHeader) (l : Line) (label : String)
    (kind : ElementKind) :
    messageOf? l (d.newElement lane l label kind) =
      (d.newElement lane l label kind).message? := by
  cases kind <;> rfl

theorem pair?_flowEvent (label : String) (gateways : List OpenGateway) (e : Element) :
    (flowEvent gateways e).pair? label = none := by
  unfold flowEvent
  split <;> rfl

theorem Closes.paired (h : Closes d d') (hd : d.Paired) : d'.Paired := by
  cases h with
  | inner => exact { hd with }
  | last => exact hd.congr rfl rfl fun label => by simp [Event.pair?]

theorem Prepares.paired (h : Prepares l d d') (hd : d.Paired) : d'.Paired := by
  cases h with
  | warned | named | connected => exact { hd with }
  | closed h => exact h.paired hd
  | entered name =>
    exact hd.congr (by rw [messages, openLane_elements]; rfl) (openLane_waiting d name)
      fun label => by rw [openLane_events]
  | broken => exact hd.congr rfl rfl fun label => by simp [log, Event.pair?]

theorem Paired.addNode (hd : d.Paired) (lane : LaneHeader) (l : Line) (label : String)
    (kind : ElementKind) : (d.addNode lane l label kind).Paired := by
  have elements := addNode_elements d lane l label kind
  have waiting := addNode_waiting d lane l label kind
  have events := addNode_events d lane l label kind
  have same := messageOf?_newElement d lane l label kind
  generalize d.newElement lane l label kind = e at elements waiting events same
  generalize d.addNode lane l label kind = d' at elements waiting events
  have messages : d'.messages = d.messages ++ e.message?.toList := by
    rw [messages, elements, List.filterMap_append]
    cases hm : e.message? <;> simp [Draft.messages, hm]
  have paired (label : String) : d'.events.filterMap (Event.pair? label) =
      d.events.filterMap (Event.pair? label) ++
        (pairing d.waiting l e).filterMap (Event.pair? label) := by
    rw [events, List.filterMap_append, List.filterMap_cons_none (pair?_flowEvent ..)]
  rw [waitingAfter, same] at waiting
  cases hm : e.message? with
  | none =>
    have unpaired : pairing d.waiting l e = [] := by rw [pairing, same, hm]
    rw [hm] at messages waiting
    exact hd.congr (by simpa using messages) waiting (by simpa [unpaired] using paired)
  | some m =>
    have joined : pairing d.waiting l e = ((otherSide? d.waiting m).map (joinEvent m)).toList := by
      rw [pairing, same, hm]
    rw [hm] at messages waiting
    cases other : otherSide? d.waiting m with
    | none =>
      simp only [other] at waiting joined
      exact hd.waits other messages waiting (by simpa [joined] using paired)
    | some w =>
      simp only [other] at waiting joined
      refine hd.meets other messages waiting fun label => ?_
      rw [paired label, joined, Option.map_some, Option.toList_some, List.filterMap_cons]
      cases (joinEvent m w).pair? label <;> rfl

theorem Declares.paired (h : Declares l d d') (hd : d.Paired) : d'.Paired := by
  cases h with
  | node => exact hd.addNode ..
  | @branch lane g outer sign label text hl hg =>
    refine hd.congr ?_ (addBranch_waiting ..) fun label => by simp [Event.pair?]
    rw [messages, addBranch_elements, filterMap_modify_addBranch fun _ _ h => h.message?]
    simp [Element.message?, newElement, messages]
  | @aside lane kind label hl hk =>
    have silent : (d.newElement lane l label kind).message? = none := by
      rcases hk with ⟨associated, rfl⟩ | rfl <;> rfl
    exact hd.congr (by simp [messages, declare, silent]) rfl fun _ => rfl

end Draft

/-- The messages of every list of lines are paired. -/
theorem Outline.paired_finished (defaultLane : String) (lines : List Line) :
    (finished defaultLane lines).Paired := by
  have run : (draft defaultLane lines).Paired :=
    draft_invariant (P := Draft.Paired) defaultLane Draft.paired_empty
      (fun _ _ _ _ h => h.paired) fun _ _ _ _ h => h.paired
  exact finished_invariant defaultLane (fun _ _ h => h.paired) run

end Swimlane
