import Swimlane.Proofs.Source.Alike

/-!
# Texts and their lines

A text is its lines with newlines between them. A line that is put between others gives the lines
behind it higher numbers, and changes nothing else about them.

## Main definitions

* `Text.lines`, `Text.ofLines`: a text as its lines;
* `Text.insertLine`: a text with one more line;
* `Text.shift`: the numbers of lines after one more line has been put in;
* `Text.Inserted`: how one more line stands between the pieces of a text.

## Main statements

* `Text.lines_ofLines`: the lines of a text that is put together from lines;
* `Text.exists_inserted`: the pieces of a text with one more line.
-/

namespace Swimlane.Text

/-- The lines of a text, at least one. -/
def lines (text : String) : List (List Char) := splitOn '\n' text.toList

/-- The text that has these lines. -/
def ofLines (ls : List (List Char)) : String := String.ofList (List.intercalate ['\n'] ls)

/-- The text with one more line behind its first `i` lines, or at its end if it has fewer. -/
def insertLine (i : Nat) (line : List Char) (text : String) : String :=
  ofLines ((lines text).take i ++ line :: (lines text).drop i)

/-- The number of a line after one more line has been put in behind the first `i` lines. -/
def shift (i number : Nat) : Nat := if number ≤ i then number else number + 1

theorem strictMono_shift (i : Nat) : StrictMono (shift i) := by
  intro m n lt
  unfold shift
  split <;> split <;> omega

/-! ## Lines -/

theorem not_mem_of_mem_splitOn {separator : Char} {cs l : List Char}
    (h : l ∈ splitOn separator cs) : separator ∉ l := by
  induction cs generalizing l with
  | nil => simp_all [splitOn]
  | cons c cs ih =>
    unfold splitOn at h
    split at h
    · rcases List.mem_cons.1 h with rfl | h
      · simp
      · exact ih h
    · next ne =>
      cases split : splitOn separator cs with
      | nil => exact absurd split (splitOn_ne_nil separator cs)
      | cons p ps =>
        rw [split] at h ih
        rcases List.mem_cons.1 h with rfl | h
        · simpa [Ne.symm ne] using ih (List.mem_cons_self ..)
        · exact ih (List.mem_cons_of_mem p h)

/-- Lines that end in a newline each stand in front of the lines of what follows them. -/
theorem splitOn_terminated_append {ls : List (List Char)} (h : ∀ l ∈ ls, '\n' ∉ l)
    (rest : List Char) :
    splitOn '\n' (ls.flatMap (· ++ ['\n']) ++ rest) = ls ++ splitOn '\n' rest := by
  induction ls with
  | nil => rfl
  | cons l ls ih =>
    rw [List.flatMap_cons, List.append_assoc, List.append_assoc, List.singleton_append,
      splitOn_append_cons (h l (by simp)), ih fun m hm => h m (by simp [hm]), List.cons_append]

/-- Behind the last of lines that end in a newline each there is nothing. -/
theorem splitOn_terminated {ls : List (List Char)} (h : ∀ l ∈ ls, '\n' ∉ l) :
    splitOn '\n' (ls.flatMap (· ++ ['\n'])) = ls ++ [[]] := by
  simpa [splitOn] using splitOn_terminated_append h []

theorem intercalate_splitOn (separator : Char) (cs : List Char) :
    List.intercalate [separator] (splitOn separator cs) = cs := by
  induction cs with
  | nil => rfl
  | cons c cs ih =>
    unfold splitOn
    cases split : splitOn separator cs with
    | nil => exact absurd split (splitOn_ne_nil separator cs)
    | cons p ps =>
      rw [split] at ih
      split
      · next eq => rw [List.intercalate_cons_cons, ih, eq]; rfl
      · cases ps with
        | nil => simp_all
        | cons p' ps =>
          simp only [List.intercalate_cons_cons, List.cons_append, List.append_assoc] at ih ⊢
          rw [ih]

theorem lines_ne_nil (text : String) : lines text ≠ [] := splitOn_ne_nil '\n' _

theorem newline_notMem_lines {text : String} {l : List Char} (h : l ∈ lines text) : '\n' ∉ l :=
  not_mem_of_mem_splitOn h

theorem lines_ofLines {ls : List (List Char)} (ne : ls ≠ []) (h : ∀ l ∈ ls, '\n' ∉ l) :
    lines (ofLines ls) = ls := by
  rw [lines, ofLines, String.toList_ofList]
  exact splitOn_intercalate ne h

/-- A number is written on one line. -/
theorem newline_notMem_toString (n : Nat) : '\n' ∉ (toString n).toList := by
  rw [Nat.toString_eq_repr, Nat.toList_repr]
  intro newline
  have digit := Nat.isDigit_of_mem_toDigits (by decide) (by decide) newline
  exact absurd digit (by decide)

/-! ## Pieces -/

theorem numberPieces_append (number offset : Nat) (ls : List (List Char)) :
    ∃ offset', ∀ ls', numberPieces number offset (ls ++ ls') =
      numberPieces number offset ls ++ numberPieces (number + ls.length) offset' ls' := by
  induction ls generalizing number offset with
  | nil => exact ⟨offset, fun _ => rfl⟩
  | cons l ls ih =>
    obtain ⟨offset', split⟩ := ih (number + 1) (offset + byteLength l + 1)
    have next : number + 1 + ls.length = number + (l :: ls).length := by
      rw [List.length_cons]
      omega
    refine ⟨offset', fun ls' => ?_⟩
    rw [List.cons_append, numberPieces, split, next, numberPieces, List.cons_append]

/-- The numbers of pieces are those behind the first one. -/
theorem number_of_mem_numberPieces {number offset : Nat} {ls : List (List Char)} {p : Piece}
    (h : p ∈ numberPieces number offset ls) : ∃ k < ls.length, p.number = number + k := by
  induction ls generalizing number offset with
  | nil => simp [numberPieces] at h
  | cons l ls ih =>
    rcases List.mem_cons.1 h with rfl | h
    · exact ⟨0, by simp, rfl⟩
    · obtain ⟨k, hk, eq⟩ := ih h
      exact ⟨k + 1, by simpa using hk, by omega⟩

/-- The same lines are alike under the numbers that they have. -/
theorem alike_numberPieces {f : Nat → Nat} {number number' : Nat} (offset offset' : Nat)
    (ls : List (List Char)) (h : ∀ k < ls.length, f (number + k) = number' + k) :
    List.Forall₂ (Piece.Alike f) (numberPieces number offset ls)
      (numberPieces number' offset' ls) := by
  induction ls generalizing number number' offset offset' with
  | nil => exact .nil
  | cons l ls ih =>
    refine .cons ⟨h 0 (by simp), rfl, rfl⟩ (ih _ _ fun k hk => ?_)
    have next := h (k + 1) (by simpa using hk)
    rw [Nat.add_assoc, Nat.add_assoc, Nat.add_comm 1 k]
    exact next

variable {line : List Char}

theorem lines_insertLine (newline : '\n' ∉ line) (i : Nat) (text : String) :
    lines (insertLine i line text) = (lines text).take i ++ line :: (lines text).drop i := by
  refine lines_ofLines (by simp) fun l hl => ?_
  rcases List.mem_append.1 hl with first | rest
  · exact newline_notMem_lines (List.mem_of_mem_take first)
  · rcases List.mem_cons.1 rest with rfl | last
    · exact newline
    · exact newline_notMem_lines (List.mem_of_mem_drop last)

/-- How one more line stands between the pieces of a text. Those in front of it stay, and those
behind it get higher numbers. -/
structure Inserted (i : Nat) (line : List Char) (text : String) (before : List Piece) (new : Piece)
    (after after' : List Piece) : Prop where
  whole : pieces text.toList = before ++ after
  inserted : pieces (insertLine i line text).toList = before ++ new :: after'
  chars : new.chars = line
  number : new.number = ((lines text).take i).length + 1
  first : ∀ p ∈ before, p.number ≤ i
  last : ∀ p ∈ after, i < p.number
  alike : List.Forall₂ (Piece.Alike (shift i)) before before
  alike' : List.Forall₂ (Piece.Alike (shift i)) after after'

theorem exists_inserted (newline : '\n' ∉ line) (i : Nat) (text : String) :
    ∃ before new after after', Inserted i line text before new after after' := by
  obtain ⟨offset, split⟩ := numberPieces_append 1 0 ((lines text).take i)
  have whole := split ((lines text).drop i)
  have inserted := split (line :: (lines text).drop i)
  have short := List.length_take_le i (lines text)
  rw [List.take_append_drop] at whole
  rw [← lines_insertLine newline] at inserted
  -- There are lines behind the new one only if there are `i` lines in front of it.
  have behind (k : Nat) (hk : k < ((lines text).drop i).length) :
      ((lines text).take i).length = i := by
    rw [List.length_drop] at hk
    exact List.length_take_of_le (by omega)
  refine ⟨_, _, _, _, whole, inserted, rfl, Nat.add_comm 1 _, ?_, ?_, ?_, ?_⟩
  · intro p hp
    obtain ⟨k, hk, eq⟩ := number_of_mem_numberPieces hp
    omega
  · intro p hp
    obtain ⟨k, hk, eq⟩ := number_of_mem_numberPieces hp
    rw [eq, behind k hk]
    omega
  · refine alike_numberPieces _ _ _ fun k hk => ?_
    exact if_pos (by omega)
  · refine alike_numberPieces _ _ _ fun k hk => ?_
    rw [behind k hk, shift, if_neg (by omega)]
    omega

end Swimlane.Text
