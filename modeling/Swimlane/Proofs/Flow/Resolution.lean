import Mathlib.Logic.ExistsUnique
import Swimlane.Flow.Resolve
import Swimlane.Proofs.Source.Layout

/-!
# What a text refers to

A text that refers to an element bears a name. A name with a point may be read in two ways: as that
of an element in the lanes that are named before the point, and as a whole. The first reading comes
before the second, and there the lane in which the text is written comes before all others. This is
said here of any document: lanes may share a name, elements an id or a position, and an element may
say that it belongs to a lane other than the one that holds it.

## Main definitions

* `Text.Bears`: a text and the name in it;
* `Element.HasName`: an element of the flow and a name;
* `Document.Qualifies`: an element that a name with a point stands for;
* `Document.Refers`: what a text written in a lane refers to;
* `Document.IsResolution`: the id that a text stands for.

## Main statements

* `Document.bears_iff`: every text bears one name;
* `Document.qualified?_eq_some`, `Document.unqualified?_eq_some`: the two readings of a name;
* `Document.resolve?_isResolution`: looking up a text gives what it refers to.
-/

namespace Swimlane

/-! ## The name in a text -/

namespace Text

/-- A text bears a name: the name stands between blanks, perhaps behind a mark and further blanks.
Of several marks only the first does not belong to the name. -/
inductive Bears : List Char → List Char → Prop
  | plain {before name after : List Char} (trimmed : IsTrimmed name)
      (unmarked : name.head? ≠ some '@') (left : ∀ c ∈ before, isBlank c = true)
      (right : ∀ c ∈ after, isBlank c = true) : Bears (before ++ name ++ after) name
  | marked {before gap name after : List Char} (trimmed : IsTrimmed name)
      (left : ∀ c ∈ before, isBlank c = true) (inner : ∀ c ∈ gap, isBlank c = true)
      (right : ∀ c ∈ after, isBlank c = true) :
      Bears (before ++ '@' :: (gap ++ name ++ after)) name

/-- A character that is not blank stays, with what stands before the last such character. -/
theorem trimRight_cons {c : Char} (hc : isBlank c = false) (cs : List Char) :
    trimRight (c :: cs) = c :: trimRight cs := by
  rw [trimRight, trimRight, List.reverse_cons, List.dropWhile_append]
  split
  · next empty => simp [List.isEmpty_iff.1 empty, hc]
  · simp

theorem trim_trimRight (cs : List Char) : trim (trimRight cs) = trim cs := by
  obtain ⟨after, split, blank⟩ := exists_trimRight_append cs
  calc trim (trimRight cs)
    _ = trim (trimRight cs ++ after) := (trim_append_blank blank _).symm
    _ = trim cs := by rw [← split]

end Text

namespace Document

theorem bareName_of_marked {text : String} {rest : List Char}
    (h : Text.trim text.toList = '@' :: rest) : bareName text = Text.trim rest := by
  simp [bareName, h]

theorem bareName_of_unmarked {text : String} (h : (Text.trim text.toList).head? ≠ some '@') :
    bareName text = Text.trim text.toList := by
  unfold bareName
  split
  · next rest marked => simp [marked] at h
  · rfl

/-- Every text bears one name. -/
theorem bears_iff {text : String} {name : List Char} :
    Text.Bears text.toList name ↔ bareName text = name := by
  constructor
  · intro h
    generalize hcs : text.toList = cs at h
    cases h with
    | @plain before name after trimmed unmarked left right =>
      have trim : Text.trim text.toList = name :=
        Text.trim_eq_iff.2 ⟨trimmed, before, after, hcs, left, right⟩
      rw [bareName_of_unmarked (by rwa [trim]), trim]
    | @marked before gap name after trimmed left inner right =>
      have blank : Text.isBlank '@' = false := by decide
      have trim : Text.trim text.toList = '@' :: Text.trimRight (gap ++ name ++ after) := by
        rw [hcs, Text.trim, Text.trimLeft, List.dropWhile_append_of_pos left,
          List.dropWhile_cons_of_neg (by simp [blank]), Text.trimRight_cons blank]
      rw [bareName_of_marked trim, Text.trim_trimRight]
      exact Text.trim_eq_iff.2 ⟨trimmed, gap, after, rfl, inner, right⟩
  · rintro rfl
    obtain ⟨trimmed, before, after, split, left, right⟩ :=
      Text.trim_eq_iff.1 (rfl : Text.trim text.toList = _)
    by_cases mark : (Text.trim text.toList).head? = some '@'
    · obtain ⟨rest, marked⟩ : ∃ rest, Text.trim text.toList = '@' :: rest := by
        cases h : Text.trim text.toList with
        | nil => simp [h] at mark
        | cons c rest => exact ⟨rest, by simpa [h] using mark⟩
      obtain ⟨trimmed', gap, after', split', inner, right'⟩ :=
        Text.trim_eq_iff.1 (rfl : Text.trim rest = _)
      have whole : text.toList = before ++ '@' :: (gap ++ Text.trim rest ++ (after' ++ after)) := by
        rw [split, marked]
        nth_rewrite 1 [split']
        simp
      rw [bareName_of_marked marked, whole]
      exact .marked trimmed' left inner (by grind)
    · rw [bareName_of_unmarked mark]
      nth_rewrite 1 [split]
      exact .plain trimmed mark left right

end Document

/-! ## Elements with a name -/

/-- An element of the flow has a name: its label or the text it is shown with has the slug of the
name, or the name is its id. -/
def Element.HasName (e : Element) (name : List Char) : Prop :=
  e.isFlowNode = true ∧ (slug e.label = slug (String.ofList name) ∨
    slug e.display = slug (String.ofList name) ∨ e.id = String.ofList (Text.trim name))

namespace Document

theorem isTarget_iff {name : List Char} {e : Element} :
    isTarget name e = true ↔ e.HasName name := by
  simp [isTarget, Element.isNamedBy, Element.HasName, or_assoc]

variable {doc : Document} {name : List Char} {lane : String} {e : Element}

/-- A name with a point stands for an element: the part before the first point has the slug of a
lane that holds the element, and the part behind it is a name of the element. -/
def Qualifies (doc : Document) (name : List Char) (e : Element) : Prop :=
  ∃ owner inner, name = owner ++ '.' :: inner ∧ '.' ∉ owner ∧ ∃ l ∈ doc.lanes,
    slug l.name = slug (String.ofList owner) ∧ e ∈ l.elements ∧ e.HasName inner

theorem Qualifies.mem_laneElements (h : doc.Qualifies name e) : e ∈ doc.laneElements := by
  obtain ⟨owner, inner, -, -, l, hl, -, he, -⟩ := h
  exact List.mem_flatMap.2 ⟨l, hl, he⟩

/-- The first element that a name with a point stands for: in the first lane that holds one, the
first of them. -/
def IsFirstQualified (doc : Document) (name : List Char) (e : Element) : Prop :=
  ∃ owner inner, name = owner ++ '.' :: inner ∧ '.' ∉ owner ∧
    ∃ ls l ls' es es', doc.lanes = ls ++ l :: ls' ∧ l.elements = es ++ e :: es' ∧
      slug l.name = slug (String.ofList owner) ∧ e.HasName inner ∧ (∀ x ∈ es, ¬ x.HasName inner) ∧
      ∀ o ∈ ls, slug o.name = slug (String.ofList owner) → ∀ x ∈ o.elements, ¬ x.HasName inner

/-- The first element with a property, in the order of the document. -/
def IsEarliest (doc : Document) (p : Element → Prop) (e : Element) : Prop :=
  ∃ before after, doc.elements = before ++ e :: after ∧ p e ∧ ∀ x ∈ before, ¬ p x

theorem IsFirstQualified.qualifies (h : doc.IsFirstQualified name e) : doc.Qualifies name e := by
  obtain ⟨owner, inner, split, first, ls, l, ls', es, es', lanes, elements, same, named, -⟩ := h
  exact ⟨owner, inner, split, first, l, by simp [lanes], same, by simp [elements], named⟩

/-! ## The two readings of a name -/

/-- Searching lane by lane finds the first element of the first lane that holds one. -/
theorem find?_flatMap_lanes {p : Lane → Bool} {q : Element → Bool} {lanes : List Lane} :
    ((lanes.filter p).flatMap (·.elements)).find? q = some e ↔
      ∃ ls l ls' es es', lanes = ls ++ l :: ls' ∧ l.elements = es ++ e :: es' ∧ p l = true ∧
        q e = true ∧ (∀ x ∈ es, ¬ q x = true) ∧
        ∀ o ∈ ls, p o = true → ∀ x ∈ o.elements, ¬ q x = true := by
  have guarded : ((lanes.filter p).flatMap (·.elements)).find? q =
      lanes.findSome? fun l => if p l then l.elements.find? q else none := by
    rw [List.find?_flatMap]
    induction lanes with
    | nil => rfl
    | cons l ls ih => by_cases hl : p l = true <;> simp [List.findSome?_cons, hl, ih]
  rw [guarded, List.findSome?_eq_some_iff]
  constructor
  · rintro ⟨ls, l, ls', split, found, others⟩
    obtain ⟨hl, found⟩ := Option.ite_none_right_eq_some.1 found
    obtain ⟨he, es, es', split', first⟩ := List.find?_eq_some_iff_append.1 found
    refine ⟨ls, l, ls', es, es', split, split', hl, he, by simpa using first, fun o ho hp => ?_⟩
    have differs := others o ho
    rw [if_pos hp, List.find?_eq_none] at differs
    exact differs
  · rintro ⟨ls, l, ls', es, es', split, split', hl, he, first, others⟩
    refine ⟨ls, l, ls', split, ?_, fun o ho => ?_⟩
    · rw [if_pos hl, List.find?_eq_some_iff_append]
      exact ⟨he, es, es', split', by simpa using first⟩
    · rw [ite_eq_right_iff]
      exact fun hp => List.find?_eq_none.2 (others o ho hp)

/-- The part before the first point and the part behind it. -/
theorem qualified?_of_point {owner inner : List Char} (h : '.' ∉ owner) :
    doc.qualified? (owner ++ '.' :: inner) =
      ((doc.lanes.filter fun l => slug l.name = slug (String.ofList owner)).flatMap
        (·.elements)).find? (isTarget inner) := by
  have before : ∀ c ∈ owner, (c != '.') = true := by grind
  have taken : (owner ++ '.' :: inner).takeWhile (· != '.') = owner := by
    rw [List.takeWhile_append_of_pos before]
    simp
  have dropped : (owner ++ '.' :: inner).dropWhile (· != '.') = '.' :: inner := by
    rw [List.dropWhile_append_of_pos before]
    simp
  simp only [qualified?, dropped, taken]

theorem qualified?_of_pointless (h : '.' ∉ name) : doc.qualified? name = none := by
  have all : name.dropWhile (· != '.') = [] := List.dropWhile_eq_nil_iff.2 (by grind)
  simp [qualified?, all]

/-- The first reading of a name finds the first element that the name stands for. -/
theorem qualified?_eq_some : doc.qualified? name = some e ↔ doc.IsFirstQualified name e := by
  have found {owner inner : List Char} (h : '.' ∉ owner) :
      doc.qualified? (owner ++ '.' :: inner) = some e ↔
        ∃ ls l ls' es es', doc.lanes = ls ++ l :: ls' ∧ l.elements = es ++ e :: es' ∧
          slug l.name = slug (String.ofList owner) ∧ e.HasName inner ∧
          (∀ x ∈ es, ¬ x.HasName inner) ∧
          ∀ o ∈ ls, slug o.name = slug (String.ofList owner) →
            ∀ x ∈ o.elements, ¬ x.HasName inner := by
    rw [qualified?_of_point h, find?_flatMap_lanes]
    simp only [isTarget_iff, decide_eq_true_eq]
  constructor
  · intro h
    by_cases point : '.' ∈ name
    · obtain ⟨owner, inner, rfl, first⟩ := List.eq_append_cons_of_mem point
      exact ⟨owner, inner, rfl, first, (found first).1 h⟩
    · simp [qualified?_of_pointless point] at h
  · rintro ⟨owner, inner, rfl, first, h⟩
    exact (found first).2 h

/-- The first reading of a name finds an element, if the name stands for one. -/
theorem qualified?_eq_none : doc.qualified? name = none ↔ ∀ x, ¬ doc.Qualifies name x := by
  constructor
  · rintro h x ⟨owner, inner, rfl, first, l, hl, same, hx, named⟩
    rw [qualified?_of_point first, List.find?_eq_none] at h
    refine h x (List.mem_flatMap.2 ⟨l, List.mem_filter.2 ⟨hl, by simpa using same⟩, hx⟩) ?_
    exact isTarget_iff.2 named
  · intro unqualified
    cases h : doc.qualified? name with
    | none => rfl
    | some e => exact absurd (qualified?_eq_some.1 h).qualifies (unqualified e)

theorem find?_elements {p : Element → Bool} :
    doc.elements.find? p = some e ↔ doc.IsEarliest (fun x => p x = true) e := by
  rw [List.find?_eq_some_iff_append, IsEarliest]
  grind

/-- The second reading of a name finds the first element of the lane that has it, or else the first
one of all. -/
theorem unqualified?_eq_some :
    doc.unqualified? name lane = some e ↔
      doc.IsEarliest (fun x => x.HasName name ∧ x.lane = lane) e ∨
        (∀ x ∈ doc.elements, x.HasName name → x.lane ≠ lane) ∧
          doc.IsEarliest (·.HasName name) e := by
  rw [unqualified?, List.head?_filter, List.find?_filter, Option.or_eq_some_iff, find?_elements,
    find?_elements, List.find?_eq_none]
  simp only [decide_eq_true_eq, isTarget_iff, not_and, ne_eq]

theorem unqualified?_eq_none :
    doc.unqualified? name lane = none ↔ ∀ x ∈ doc.elements, ¬ x.HasName name := by
  rw [unqualified?, List.head?_filter, List.find?_filter, Option.or_eq_none_iff, List.find?_eq_none,
    List.find?_eq_none]
  simp only [decide_eq_true_eq, isTarget_iff]
  grind

/-! ## What a text refers to -/

/-- What a text written in a lane refers to, if to anything. A text that bears no name refers to
nothing. Otherwise the first reading of the name comes before the second one, and in the second one
elements of the lane come before all others. -/
inductive Refers (doc : Document) (text lane : String) : Option Element → Prop
  | empty (bears : Text.Bears text.toList []) : Refers doc text lane none
  | qualified {name : List Char} {e : Element} (bears : Text.Bears text.toList name)
      (first : doc.IsFirstQualified name e) : Refers doc text lane (some e)
  | own {name : List Char} {e : Element} (bears : Text.Bears text.toList name)
      (written : name ≠ []) (free : ∀ x, ¬ doc.Qualifies name x)
      (first : doc.IsEarliest (fun x => x.HasName name ∧ x.lane = lane) e) :
      Refers doc text lane (some e)
  | other {name : List Char} {e : Element} (bears : Text.Bears text.toList name)
      (written : name ≠ []) (free : ∀ x, ¬ doc.Qualifies name x)
      (foreign : ∀ x ∈ doc.elements, x.HasName name → x.lane ≠ lane)
      (first : doc.IsEarliest (·.HasName name) e) : Refers doc text lane (some e)
  | unknown {name : List Char} (bears : Text.Bears text.toList name) (written : name ≠ [])
      (free : ∀ x, ¬ doc.Qualifies name x) (nameless : ∀ x ∈ doc.elements, ¬ x.HasName name) :
      Refers doc text lane none

/-- The element that a text refers to, as it is looked up. -/
def referent? (doc : Document) (text lane : String) : Option Element :=
  let name := bareName text
  if name.isEmpty then none else (doc.qualified? name).or (doc.unqualified? name lane)

theorem resolve?_eq_referent? (text lane : String) :
    doc.resolve? text lane = (doc.referent? text lane).map (·.id) := by
  simp only [resolve?, referent?]
  split <;> rfl

theorem referent?_of_bears {text : String} (bears : Text.Bears text.toList name)
    (written : name ≠ []) :
    doc.referent? text lane = (doc.qualified? name).or (doc.unqualified? name lane) := by
  simp [referent?, bears_iff.1 bears, written]

/-- Looking up a text finds what it refers to, and nothing else. -/
theorem refers_iff {text : String} {referent : Option Element} :
    doc.Refers text lane referent ↔ doc.referent? text lane = referent := by
  constructor
  · intro h
    cases h with
    | empty bears => simp [referent?, bears_iff.1 bears]
    | qualified bears first =>
      obtain ⟨owner, inner, rfl, -⟩ := id first
      rw [referent?_of_bears bears (by simp), qualified?_eq_some.2 first, Option.some_or]
    | own bears written free first =>
      rw [referent?_of_bears bears written, qualified?_eq_none.2 free, Option.none_or]
      exact unqualified?_eq_some.2 (.inl first)
    | other bears written free foreign first =>
      rw [referent?_of_bears bears written, qualified?_eq_none.2 free, Option.none_or]
      exact unqualified?_eq_some.2 (.inr ⟨foreign, first⟩)
    | unknown bears written free nameless =>
      rw [referent?_of_bears bears written, qualified?_eq_none.2 free, Option.none_or]
      exact unqualified?_eq_none.2 nameless
  · rintro rfl
    have bears : Text.Bears text.toList (bareName text) := bears_iff.2 rfl
    by_cases written : bareName text = []
    · simpa [referent?, written] using Refers.empty (written ▸ bears)
    rw [referent?_of_bears bears written]
    cases first : doc.qualified? (bareName text) with
    | some e => exact .qualified bears (qualified?_eq_some.1 first)
    | none =>
      have free := qualified?_eq_none.1 first
      rw [Option.none_or]
      cases second : doc.unqualified? (bareName text) lane with
      | none => exact .unknown bears written free (unqualified?_eq_none.1 second)
      | some e =>
        obtain first | ⟨foreign, first⟩ := unqualified?_eq_some.1 second
        · exact .own bears written free first
        · exact .other bears written free foreign first

/-- A text refers to elements of the flow only. -/
theorem Refers.isFlowNode {text : String} (h : doc.Refers text lane (some e)) :
    e ∈ doc.laneElements ∧ e.isFlowNode = true := by
  cases h with
  | qualified _ first =>
    obtain ⟨owner, inner, -, -, l, hl, -, he, named⟩ := first.qualifies
    exact ⟨List.mem_flatMap.2 ⟨l, hl, he⟩, named.1⟩
  | own _ _ _ first =>
    obtain ⟨before, after, split, ⟨named, -⟩, -⟩ := first
    exact ⟨mem_elements.1 (by simp [split]), named.1⟩
  | other _ _ _ _ first =>
    obtain ⟨before, after, split, named, -⟩ := first
    exact ⟨mem_elements.1 (by simp [split]), named.1⟩

/-- The id that a text written in a lane stands for. The text refers to at most one element, which
is one of the flow, and the id is that of this element. There is none exactly if the text bears no
name or no element of the document has that name in one of its readings. -/
structure IsResolution (doc : Document) (text lane : String) (result : Option String) : Prop where
  unique : ∃! referent, doc.Refers text lane referent
  eq_map : ∀ referent, doc.Refers text lane referent → result = referent.map (·.id)
  isFlowNode : ∀ e, doc.Refers text lane (some e) → e ∈ doc.laneElements ∧ e.isFlowNode = true ∧
    (∀ associated, e.kind ≠ .dataObject associated) ∧ ∀ attached, e.kind ≠ .note attached
  eq_none : result = none ↔ ∀ name, Text.Bears text.toList name →
    name = [] ∨ ∀ e ∈ doc.laneElements, ¬ doc.Qualifies name e ∧ ¬ e.HasName name

/-- Looking up a text gives the id of what it refers to. -/
theorem resolve?_isResolution (doc : Document) (text lane : String) :
    doc.IsResolution text lane (doc.resolve? text lane) where
  unique := ⟨doc.referent? text lane, refers_iff.2 rfl, fun _ h => (refers_iff.1 h).symm⟩
  eq_map referent h := by rw [resolve?_eq_referent?, refers_iff.1 h]
  isFlowNode e h := by
    obtain ⟨mem, flow⟩ := h.isFlowNode
    refine ⟨mem, flow, fun associated kind => ?_, fun attached kind => ?_⟩ <;>
      simp [Element.isFlowNode, kind, ElementKind.isFlowNode] at flow
  eq_none := by
    rw [resolve?_eq_referent?, Option.map_eq_none_iff, ← refers_iff]
    constructor
    · intro h name bears
      cases h with
      | empty bears' => exact .inl ((bears_iff.1 bears).symm.trans (bears_iff.1 bears'))
      | unknown bears' _ free nameless =>
        obtain rfl := (bears_iff.1 bears).symm.trans (bears_iff.1 bears')
        exact .inr fun e he => ⟨free e, nameless e (mem_elements.2 he)⟩
    · intro h
      have bears : Text.Bears text.toList (bareName text) := bears_iff.2 rfl
      by_cases written : bareName text = []
      · exact .empty (written ▸ bears)
      · have nameless := (h _ bears).resolve_left written
        exact .unknown bears written (fun e he => (nameless e he.mem_laneElements).1 he)
          fun e he => (nameless e (mem_elements.1 he)).2

end Document

end Swimlane
