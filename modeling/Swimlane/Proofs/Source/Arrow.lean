import Swimlane.Proofs.Source.Layout
import Swimlane.Text.Piece

/-!
# The first arrow of a text

A payload is cut at its first arrow, whichever way it points. Arrows overlap: `<->` holds one of
each direction, and the one that starts further left counts. The two readings of a payload, as a
label with an arrow behind it and as the two sides of a connection, cut it at the same place.

## Main definitions

* `ArrowDirection.chars`: how an arrow is written;
* `Arrow.Occurs`: a text has an arrow in it;
* `Arrow.CutsFirst`: a text is cut at an arrow before which no other starts;
* `Arrow.earlier`: the place that two searches find, one for each way of writing an arrow.

## Main statements

* `Arrow.firstArrow_eq_some_iff`, `Arrow.firstArrow_eq_none_iff`: what the one scan finds;
* `Arrow.earlier_eq`: the two searches find the same place;
* `Arrow.splits_at_first`: both readings of a payload cut it at its first arrow.
-/

namespace Swimlane

/-- How an arrow is written. -/
def ArrowDirection.chars : ArrowDirection → List Char
  | .forward => ['-', '>']
  | .backward => ['<', '-']

namespace Text

/-- Byte offset of the first place where a pattern stands. -/
def find? (pattern : List Char) : List Char → Option Nat
  | [] => if pattern.isEmpty then some 0 else none
  | c :: cs => if pattern <+: c :: cs then some 0 else (find? pattern cs).map (c.utf8Size + ·)

end Text

namespace Arrow

/-- A text has an arrow in it. -/
def Occurs (cs : List Char) : Prop := ∃ direction : ArrowDirection, direction.chars <:+: cs

/-- A text is cut at its first arrow: what stands before the arrow stands before all arrows. -/
structure CutsFirst (cs left : List Char) (direction : ArrowDirection) (rest : List Char) :
    Prop where
  eq : cs = left ++ (direction.chars ++ rest)
  first : ∀ l d r, cs = l ++ (ArrowDirection.chars d ++ r) → left <+: l

/-- The earlier of the two places where a search for the one arrow and a search for the other end,
as a byte offset, and which arrow it is. -/
def earlier (cs : List Char) : Option (Nat × ArrowDirection) :=
  match Text.find? ArrowDirection.forward.chars cs, Text.find? ArrowDirection.backward.chars cs with
  | some f, some b => if b < f then some (b, .backward) else some (f, .forward)
  | some f, none => some (f, .forward)
  | none, some b => some (b, .backward)
  | none, none => none

/-! ## Cuts -/

theorem CutsFirst.occurs {cs left rest : List Char} {direction : ArrowDirection}
    (h : CutsFirst cs left direction rest) : Occurs cs :=
  ⟨direction, left, rest, by rw [h.eq, List.append_assoc]⟩

theorem CutsFirst.left_isPrefix {cs left rest : List Char} {direction : ArrowDirection}
    (h : CutsFirst cs left direction rest) : left <+: cs :=
  ⟨direction.chars ++ rest, h.eq.symm⟩

theorem CutsFirst.not_occurs_left {cs left rest : List Char} {direction : ArrowDirection}
    (h : CutsFirst cs left direction rest) : ¬ Occurs left := by
  rintro ⟨d, l, r, rfl⟩
  have before := (h.first l d (r ++ (direction.chars ++ rest)) (by simp [h.eq])).length_le
  have two : d.chars.length = 2 := by cases d <;> rfl
  simp only [List.length_append, two] at before
  omega

/-- A text has one first arrow. -/
theorem CutsFirst.unique {cs left left' rest rest' : List Char} {d d' : ArrowDirection}
    (h : CutsFirst cs left d rest) (h' : CutsFirst cs left' d' rest') :
    left = left' ∧ d = d' ∧ rest = rest' := by
  have same : left = left' :=
    (h.first _ _ _ h'.eq).eq_of_length_le (h'.first _ _ _ h.eq).length_le
  subst same
  have behind := List.append_cancel_left (h.eq.symm.trans h'.eq)
  cases d <;> cases d' <;> simp_all [ArrowDirection.chars]

/-- An arrow further right stays the first one when a character is put in front that starts none. -/
theorem CutsFirst.cons {c : Char} {cs left rest : List Char} {direction : ArrowDirection}
    (h : CutsFirst cs left direction rest)
    (apart : ∀ (d : ArrowDirection) r, c :: cs ≠ d.chars ++ r) :
    CutsFirst (c :: cs) (c :: left) direction rest where
  eq := by rw [h.eq, List.cons_append]
  first := by
    intro l d r eq
    cases l with
    | nil => exact absurd eq (apart d r)
    | cons x l =>
      obtain ⟨rfl, tail⟩ := List.cons.inj eq
      exact List.cons_prefix_cons.2 ⟨rfl, h.first l d r tail⟩

/-! ## The scan for the first arrow -/

theorem not_starts {c : Char} {cs : List Char} (forward : ∀ r, c = '-' → cs = '>' :: r → False)
    (backward : ∀ r, c = '<' → cs = '-' :: r → False) (d : ArrowDirection) (r : List Char) :
    c :: cs ≠ d.chars ++ r := by
  intro start
  cases d with
  | forward => exact forward r (List.cons.inj start).1 (List.cons.inj start).2
  | backward => exact backward r (List.cons.inj start).1 (List.cons.inj start).2

theorem cutsFirst_of_firstArrow {cs left rest : List Char} {direction : ArrowDirection}
    (h : firstArrow cs = some (left, direction, rest)) : CutsFirst cs left direction rest := by
  fun_induction firstArrow cs generalizing left with
  | case1 => cases h
  | case2 rest | case3 rest =>
    cases h
    exact ⟨rfl, fun _ _ _ _ => List.nil_prefix⟩
  | case4 c cs forward backward ih =>
    obtain ⟨⟨left', direction', rest'⟩, found, eq⟩ := Option.map_eq_some_iff.1 h
    cases eq
    exact (ih found).cons (not_starts forward backward)

theorem firstArrow_eq_none_iff {cs : List Char} : firstArrow cs = none ↔ ¬ Occurs cs := by
  refine ⟨fun unfound => ?_, fun h => ?_⟩
  · fun_induction firstArrow cs with
    | case1 =>
      rintro ⟨d, h⟩
      cases d <;> simp [ArrowDirection.chars] at h
    | case2 | case3 => cases unfound
    | case4 c cs forward backward ih =>
      rintro ⟨d, h⟩
      obtain ⟨r, start⟩ | later := List.infix_cons_iff.1 h
      · exact not_starts forward backward d r start.symm
      · exact ih (Option.map_eq_none_iff.1 unfound) ⟨d, later⟩
  · exact firstArrow_eq_none (fun forward => h ⟨.forward, forward⟩)
      fun backward => h ⟨.backward, backward⟩

theorem firstArrow_eq_some_iff {cs left rest : List Char} {direction : ArrowDirection} :
    firstArrow cs = some (left, direction, rest) ↔ CutsFirst cs left direction rest := by
  refine ⟨cutsFirst_of_firstArrow, fun h => ?_⟩
  cases found : firstArrow cs with
  | none => exact absurd h.occurs (firstArrow_eq_none_iff.1 found)
  | some cut =>
    obtain ⟨rfl, rfl, rfl⟩ := h.unique (cutsFirst_of_firstArrow found)
    rfl

/-! ## Two searches -/

/-- A character in front that starts no arrow moves both places by its bytes. -/
theorem earlier_cons {c : Char} {cs : List Char}
    (apart : ∀ (d : ArrowDirection) r, c :: cs ≠ d.chars ++ r) :
    earlier (c :: cs) = (earlier cs).map fun (n, d) => (c.utf8Size + n, d) := by
  have moved (d : ArrowDirection) :
      Text.find? d.chars (c :: cs) = (Text.find? d.chars cs).map (c.utf8Size + ·) := by
    rw [Text.find?, if_neg]
    rintro ⟨r, start⟩
    exact apart d r start.symm
  unfold earlier
  rw [moved, moved]
  cases Text.find? ArrowDirection.forward.chars cs with
  | none => cases Text.find? ArrowDirection.backward.chars cs <;> rfl
  | some f =>
    cases Text.find? ArrowDirection.backward.chars cs with
    | none => rfl
    | some b => by_cases h : b < f <;> simp [h]

/-- One scan for both arrows stops where the earlier of the two searches stops. -/
theorem earlier_eq (cs : List Char) : earlier cs =
    (firstArrow cs).map fun (left, direction, _) => (Text.byteLength left, direction) := by
  fun_induction firstArrow cs with
  | case1 => rfl
  | case2 rest =>
    have here : Text.find? ArrowDirection.forward.chars ('-' :: '>' :: rest) = some 0 :=
      if_pos ⟨rest, rfl⟩
    rw [earlier, here]
    cases Text.find? ArrowDirection.backward.chars ('-' :: '>' :: rest) <;> rfl
  | case3 rest =>
    have here : Text.find? ArrowDirection.backward.chars ('<' :: '-' :: rest) = some 0 :=
      if_pos ⟨rest, rfl⟩
    have later : Text.find? ArrowDirection.forward.chars ('<' :: '-' :: rest) =
        (Text.find? ArrowDirection.forward.chars ('-' :: rest)).map (1 + ·) :=
      if_neg (by simp [ArrowDirection.chars])
    rw [earlier, here, later]
    cases Text.find? ArrowDirection.forward.chars ('-' :: rest) <;> simp
  | case4 c cs forward backward ih =>
    rw [earlier_cons (not_starts forward backward), ih]
    cases firstArrow cs <;> rfl

/-! ## The two readings of a payload -/

section

variable {payload left rest right : List Char} {direction : ArrowDirection}

theorem splitInline_of_cutsFirst (h : CutsFirst payload left direction rest) :
    splitInline payload = (String.ofList (Text.trim left),
      if (Text.trim rest).isEmpty then none
      else some ⟨direction, String.ofList (Text.trim rest)⟩) := by
  rw [splitInline, firstArrow_eq_some_iff.2 h]

theorem splitConnection_of_cutsFirst (h : CutsFirst payload left direction rest) :
    splitConnection payload =
      if (Text.trim rest).isEmpty then none else some (left, direction, Text.trim rest) := by
  rw [splitConnection, firstArrow_eq_some_iff.2 h]

theorem exists_cutsFirst (h : Occurs payload) :
    ∃ left direction rest, CutsFirst payload left direction rest := by
  cases found : firstArrow payload with
  | none => exact absurd h (firstArrow_eq_none_iff.1 found)
  | some cut => exact ⟨cut.1, cut.2.1, cut.2.2, cutsFirst_of_firstArrow found⟩

theorem splitConnection_eq_some_iff :
    splitConnection payload = some (left, direction, right) ↔
      ∃ rest, CutsFirst payload left direction rest ∧ right = Text.trim rest ∧ right ≠ [] := by
  constructor
  · intro h
    by_cases occurs : Occurs payload
    · obtain ⟨l, d, rest, cut⟩ := exists_cutsFirst occurs
      rw [splitConnection_of_cutsFirst cut] at h
      split at h
      · cases h
      · next filled =>
        cases h
        exact ⟨rest, cut, rfl, by simpa using filled⟩
    · rw [splitConnection, firstArrow_eq_none_iff.2 occurs] at h
      cases h
  · rintro ⟨rest, cut, rfl, filled⟩
    rw [splitConnection_of_cutsFirst cut, if_neg (by simpa using filled)]

theorem splitConnection_eq_none_iff (payload : List Char) :
    splitConnection payload = none ↔ (splitInline payload).2 = none := by
  by_cases occurs : Occurs payload
  · obtain ⟨l, d, rest, cut⟩ := exists_cutsFirst occurs
    rw [splitConnection_of_cutsFirst cut, splitInline_of_cutsFirst cut]
    split <;> simp
  · simp [splitConnection, splitInline, firstArrow_eq_none_iff.2 occurs]

theorem not_occurs_label (h : Occurs payload) : ¬ Occurs (splitInline payload).1.toList := by
  obtain ⟨l, d, rest, cut⟩ := exists_cutsFirst h
  rw [splitInline_of_cutsFirst cut, String.toList_ofList]
  rintro ⟨d', inside⟩
  exact cut.not_occurs_left ⟨d', inside.trans (Text.isInfix_trim l)⟩

end

/-- The two readings of a payload cut it at the same arrow. Where the reading as a connection finds
two sides, the reading as a line finds the left one, trimmed, as the label and the right one behind
an arrow of that direction, and where the one finds none the other finds no arrow. The cut is at the
first arrow of the payload: it is written there, none stands to the left of it or starts further
left, and two searches, one for each arrow, have it as the earlier place. The right side is what
stands behind, trimmed and not empty. A label has no arrow in it where the payload has one. -/
theorem splits_at_first (payload : List Char) :
    (∀ left direction right, splitConnection payload = some (left, direction, right) →
        splitInline payload =
          (String.ofList (Text.trim left), some ⟨direction, String.ofList right⟩)) ∧
      (splitConnection payload = none ↔ (splitInline payload).2 = none) ∧
      (∀ left direction right, splitConnection payload = some (left, direction, right) ↔
        ∃ rest, CutsFirst payload left direction rest ∧ right = Text.trim rest ∧ right ≠ []) ∧
      (∀ left direction right, splitConnection payload = some (left, direction, right) →
        ¬ Occurs left ∧ earlier payload = some (Text.byteLength left, direction)) ∧
      (Occurs payload → ¬ Occurs (splitInline payload).1.toList) := by
  refine ⟨?_, splitConnection_eq_none_iff payload, fun _ _ _ => splitConnection_eq_some_iff, ?_,
    not_occurs_label⟩
  · intro left direction right h
    obtain ⟨rest, cut, rfl, filled⟩ := splitConnection_eq_some_iff.1 h
    rw [splitInline_of_cutsFirst cut, if_neg (by simpa using filled)]
  · intro left direction right h
    obtain ⟨rest, cut, -⟩ := splitConnection_eq_some_iff.1 h
    refine ⟨cut.not_occurs_left, ?_⟩
    rw [earlier_eq, firstArrow_eq_some_iff.2 cut]
    rfl

/-- Of the two arrows in `<->` the one that points back is the first. The label ends before it. -/
theorem splits_at_first_overlapping :
    let payload := "é <-> a -> b".toList
    splitConnection payload = some ("é ".toList, .backward, "> a -> b".toList) ∧
      splitInline payload = ("é", some ⟨.backward, "> a -> b"⟩) ∧
      earlier payload = some (3, .backward) ∧ Occurs payload ∧ ¬ Occurs ['é'] := by
  intro payload
  have cut : splitConnection payload = some ("é ".toList, .backward, "> a -> b".toList) := by decide
  obtain ⟨agree, -, -, place, label⟩ := splits_at_first payload
  have occurs : Occurs payload := ⟨.forward, "é <".toList, " a -> b".toList, rfl⟩
  have inline := agree _ _ _ cut
  refine ⟨cut, inline, (place _ _ _ cut).2, occurs, ?_⟩
  have := label occurs
  rw [inline] at this
  exact this

end Arrow

end Swimlane
