import Mathlib.Data.List.Infix
import Mathlib.Data.List.TakeWhile
import Swimlane.Source.Line

/-!
# How lines are laid out

Lines joined by newlines come apart again, and a trimmed text is found again behind the blank
characters it is indented with.

## Main statements

* `Text.isTrimmed_iff`, `Text.trim_eq_iff`, `Text.indentation_append`: trimmed texts;
* `Text.splitOn_intercalate`: lines of a text;
* `Arrow.firstArrow_eq_none`, `Arrow.firstArrow_append`: texts without arrows.
-/

namespace Swimlane

namespace Text

/-! ## Trimmed texts -/

/-- A text that neither starts nor ends with a blank character. -/
structure IsTrimmed (cs : List Char) : Prop where
  head : ∀ c, cs.head? = some c → isBlank c = false
  last : ∀ c, cs.getLast? = some c → isBlank c = false

variable {cs ds : List Char}

theorem trimLeft_eq_self_iff : trimLeft cs = cs ↔ ∀ c, cs.head? = some c → isBlank c = false := by
  cases cs with
  | nil => simp [trimLeft]
  | cons c cs =>
    by_cases hc : isBlank c = true
    · have shorter : (cs.dropWhile isBlank).length < (c :: cs).length :=
        Nat.lt_succ_of_le (List.dropWhile_suffix _).length_le
      have ne : trimLeft (c :: cs) ≠ c :: cs := by
        rw [trimLeft, List.dropWhile_cons_of_pos hc]
        exact fun h => Nat.ne_of_lt shorter (congrArg List.length h)
      simp [ne, hc]
    · have hc : isBlank c = false := by simpa using hc
      simp [trimLeft, hc]

theorem trimRight_eq_self_iff :
    trimRight cs = cs ↔ ∀ c, cs.getLast? = some c → isBlank c = false := by
  rw [← List.head?_reverse, ← trimLeft_eq_self_iff, trimRight, trimLeft, List.reverse_eq_iff]

theorem length_trimRight_le (cs : List Char) : (trimRight cs).length ≤ cs.length := by
  simpa [trimRight] using (List.dropWhile_suffix (l := cs.reverse) isBlank).length_le

theorem isInfix_trim (cs : List Char) : trim cs <:+: cs := by
  have right : trimRight (trimLeft cs) <+: trimLeft cs := by
    rw [← List.reverse_suffix, trimRight, List.reverse_reverse]
    exact List.dropWhile_suffix _
  exact right.isInfix.trans (List.dropWhile_suffix _).isInfix

/-- Trimming leaves exactly the trimmed texts alone. -/
theorem isTrimmed_iff : IsTrimmed cs ↔ trim cs = cs := by
  constructor
  · intro h
    rw [trim, trimLeft_eq_self_iff.2 h.head, trimRight_eq_self_iff.2 h.last]
  · intro h
    have left : trimLeft cs = cs := by
      refine (List.dropWhile_suffix isBlank).eq_of_length (Nat.le_antisymm ?_ ?_)
      · exact (List.dropWhile_suffix isBlank).length_le
      · have := length_trimRight_le (trimLeft cs)
        rwa [← trim, h] at this
    rw [trim, left] at h
    exact ⟨trimLeft_eq_self_iff.1 left, trimRight_eq_self_iff.1 h⟩

/-- A text that starts with no blank character, followed by a trimmed one. -/
theorem IsTrimmed.append (h : IsTrimmed ds) (hd : ds ≠ [])
    (hc : ∀ c, cs.head? = some c → isBlank c = false) : IsTrimmed (cs ++ ds) where
  head := by
    cases cs with
    | nil => exact h.head
    | cons c cs => exact hc
  last := by
    rw [List.getLast?_append_of_ne_nil _ hd]
    exact h.last

theorem trimLeft_append (hi : ∀ c ∈ cs, isBlank c = true) (h : IsTrimmed ds) :
    trimLeft (cs ++ ds) = ds := by
  rw [trimLeft, List.dropWhile_append_of_pos hi]
  exact trimLeft_eq_self_iff.2 h.head

theorem trim_append (hi : ∀ c ∈ cs, isBlank c = true) (h : IsTrimmed ds) :
    trim (cs ++ ds) = ds := by
  rw [trim, trimLeft_append hi h]
  exact trimRight_eq_self_iff.2 h.last

section

variable (blank : ∀ c ∈ ds, isBlank c = true)

include blank

theorem trimRight_append_blank (cs : List Char) : trimRight (cs ++ ds) = trimRight cs := by
  have all : ∀ c ∈ ds.reverse, isBlank c = true := by simpa using blank
  rw [trimRight, List.reverse_append, List.dropWhile_append_of_pos all, trimRight]

theorem trim_append_blank (cs : List Char) : trim (cs ++ ds) = trim cs := by
  have dropped : ds.dropWhile isBlank = [] := List.dropWhile_eq_nil_iff.2 blank
  unfold trim trimLeft
  rw [List.dropWhile_append]
  split
  · next empty => rw [dropped, List.isEmpty_iff.1 empty]
  · exact trimRight_append_blank blank _

end

theorem exists_trimRight_append (cs : List Char) :
    ∃ after, cs = trimRight cs ++ after ∧ ∀ c ∈ after, isBlank c = true := by
  refine ⟨(cs.reverse.takeWhile isBlank).reverse, ?_, fun c hc => ?_⟩
  · rw [trimRight, ← List.reverse_append, List.takeWhile_append_dropWhile, List.reverse_reverse]
  · exact List.mem_takeWhile_imp (List.mem_reverse.1 hc)

theorem isTrimmed_trim (cs : List Char) : IsTrimmed (trim cs) := by
  have stops {c : Char} (ds : List Char) (h : (ds.dropWhile isBlank).head? = some c) :
      isBlank c = false := by
    simpa [h] using List.head?_dropWhile_not isBlank ds
  refine ⟨fun c hc => ?_, fun c hc => ?_⟩
  · obtain ⟨after, split, -⟩ := exists_trimRight_append (trimLeft cs)
    refine stops cs ?_
    rw [← trimLeft, split, List.head?_append, ← trim, hc, Option.some_or]
  · refine stops (trimLeft cs).reverse ?_
    rwa [trim, trimRight, List.getLast?_reverse] at hc

/-- Trimming finds the trimmed text that stands between blank characters. -/
theorem trim_eq_iff {name : List Char} :
    trim cs = name ↔ IsTrimmed name ∧ ∃ before after, cs = before ++ name ++ after ∧
      (∀ c ∈ before, isBlank c = true) ∧ ∀ c ∈ after, isBlank c = true := by
  constructor
  · rintro rfl
    obtain ⟨after, split, blank⟩ := exists_trimRight_append (trimLeft cs)
    refine ⟨isTrimmed_trim cs, indentation cs, after, ?_, ?_, blank⟩
    · rw [List.append_assoc, trim, ← split, indentation_append_trimLeft]
    · exact fun c hc => List.mem_takeWhile_imp hc
  · rintro ⟨trimmed, before, after, rfl, hb, ha⟩
    rw [trim_append_blank ha, trim_append hb trimmed]

theorem indentation_append (hi : ∀ c ∈ cs, isBlank c = true) (h : IsTrimmed ds) :
    indentation (cs ++ ds) = cs := by
  rw [indentation, List.takeWhile_append_of_pos hi]
  cases ds with
  | nil => simp
  | cons d ds => simp [h.head d rfl]

/-! ## Lines of a text -/

theorem splitOn_ne_nil (separator : Char) (cs : List Char) : splitOn separator cs ≠ [] := by
  cases cs with
  | nil => simp [splitOn]
  | cons c cs =>
    unfold splitOn
    split
    · simp
    · split <;> simp

theorem splitOn_of_not_mem {separator : Char} (h : separator ∉ cs) :
    splitOn separator cs = [cs] := by
  induction cs with
  | nil => rfl
  | cons c cs ih =>
    obtain ⟨hc, hcs⟩ := not_or.1 (List.mem_cons.not.1 h)
    simp [splitOn, ih hcs, Ne.symm hc]

theorem splitOn_append_separator (separator : Char) (cs ds : List Char) :
    splitOn separator (cs ++ separator :: ds) = splitOn separator cs ++ splitOn separator ds := by
  induction cs with
  | nil => simp [splitOn]
  | cons c cs ih =>
    simp only [List.cons_append, splitOn, ih]
    split
    · rfl
    · cases h : splitOn separator cs with
      | nil => exact absurd h (splitOn_ne_nil separator cs)
      | cons l ls => rfl

theorem splitOn_append_cons {separator : Char} (h : separator ∉ cs) (ds : List Char) :
    splitOn separator (cs ++ separator :: ds) = cs :: splitOn separator ds := by
  rw [splitOn_append_separator, splitOn_of_not_mem h, List.singleton_append]

/-- Lines that are joined come apart again. -/
theorem splitOn_intercalate {separator : Char} {lines : List (List Char)} (hne : lines ≠ [])
    (h : ∀ l ∈ lines, separator ∉ l) :
    splitOn separator (List.intercalate [separator] lines) = lines := by
  induction lines with
  | nil => exact absurd rfl hne
  | cons l ls ih =>
    cases ls with
    | nil =>
      rw [List.intercalate_singleton]
      exact splitOn_of_not_mem (h l (by simp))
    | cons l' ls =>
      have joined : List.intercalate [separator] (l :: l' :: ls) =
          l ++ separator :: List.intercalate [separator] (l' :: ls) := by
        simp [List.intercalate]
      rw [joined, splitOn_append_cons (h l (by simp)), ih (by simp) fun m hm => h m (by simp [hm])]

end Text

namespace Arrow

/-! ## Texts without arrows -/

theorem firstArrow_eq_none {cs : List Char} (forward : ¬ ['-', '>'] <:+: cs)
    (backward : ¬ ['<', '-'] <:+: cs) : firstArrow cs = none := by
  fun_induction firstArrow cs with
  | case1 => rfl
  | case2 rest => exact absurd (List.prefix_append ['-', '>'] rest).isInfix forward
  | case3 rest => exact absurd (List.prefix_append ['<', '-'] rest).isInfix backward
  | case4 c cs _ _ ih =>
    rw [ih (fun h => forward (List.infix_cons h)) fun h => backward (List.infix_cons h)]
    rfl

/-- Two texts without arrows have none either when a bar is put between them. -/
theorem firstArrow_append {cs ds : List Char} (hc : firstArrow cs = none)
    (hd : firstArrow ds = none) : firstArrow (cs ++ '|' :: ds) = none := by
  fun_induction firstArrow cs with
  | case1 => simp [firstArrow, hd]
  | case2 rest => cases hc
  | case3 rest => cases hc
  | case4 c cs forward backward ih =>
    have rest := ih (Option.map_eq_none_iff.1 hc)
    -- What follows the first character in the joined text follows it in the first one, too.
    have starts {x : Char} {r : List Char} (hx : x ≠ '|') (h : cs ++ '|' :: ds = x :: r) :
        ∃ r', cs = x :: r' := by
      cases cs with
      | nil => exact absurd (List.cons.inj h).1.symm hx
      | cons y ys => exact ⟨ys, by rw [(List.cons.inj h).1]⟩
    rw [List.cons_append, firstArrow.eq_4, rest]
    · rfl
    · intro r hr h
      obtain ⟨r', hr'⟩ := starts (by decide) h
      exact forward r' hr hr'
    · intro r hr h
      obtain ⟨r', hr'⟩ := starts (by decide) h
      exact backward r' hr hr'

end Arrow

end Swimlane
