import Swimlane.Source.Line

/-!
# Line numbers

Lines that are read keep the numbers of their pieces, and pieces are numbered upwards.
-/

namespace Swimlane

namespace Text

theorem lt_number_of_mem_numberPieces {number offset : Nat} {ps : List (List Char)} {p : Piece}
    (h : p ∈ numberPieces number offset ps) : number ≤ p.number := by
  induction ps generalizing number offset with
  | nil => simp [numberPieces] at h
  | cons c cs ih =>
    obtain rfl | h := List.mem_cons.1 h
    · exact Nat.le_refl _
    · exact Nat.le_of_succ_le (ih h)

theorem pairwise_numberPieces (number offset : Nat) (ps : List (List Char)) :
    ((numberPieces number offset ps).map (·.number)).Pairwise (· < ·) := by
  induction ps generalizing number offset with
  | nil => exact List.Pairwise.nil
  | cons c cs ih =>
    refine List.Pairwise.cons ?_ (ih _ _)
    intro n hn
    obtain ⟨p, hp, rfl⟩ := List.mem_map.1 hn
    exact lt_number_of_mem_numberPieces hp

theorem map_chars_numberPieces (number offset : Nat) (lines : List (List Char)) :
    (numberPieces number offset lines).map (·.chars) = lines := by
  induction lines generalizing number offset with
  | nil => rfl
  | cons l ls ih => rw [numberPieces, List.map_cons, ih]

end Text

namespace Reader

/-- A line has the number of the piece it is read from. -/
theorem number_of_read {limit : Nat} {r : Reader} {p : Text.Piece} {l : Line}
    (h : (r.read limit p).outcome = .ok (some l)) : l.number = p.number := by
  unfold read at h
  split at h
  · simp at h
  · simp only at h
    split at h
    · simp at h
    · simp only [Except.ok.injEq, Option.some.injEq] at h
      exact h ▸ rfl

theorem numbers_sublist (limit : Nat) (r : Reader) (ps : List Text.Piece) :
    ((r.readAll limit ps).lines.map (·.number)).Sublist (ps.map (·.number)) := by
  induction ps generalizing r with
  | nil => exact List.Sublist.refl _
  | cons p ps ih =>
    unfold readAll
    cases ho : (r.read limit p).outcome with
    | error failure => simp [ho]
    | ok line =>
      cases line with
      | none => simpa [ho] using (ih (r.read limit p).reader).cons p.number
      | some l =>
        simpa [ho, number_of_read ho] using (ih (r.read limit p).reader).cons_cons p.number

theorem exists_number_of_mem_lines {limit : Nat} {r : Reader} {ps : List Text.Piece} {l : Line}
    (h : l ∈ (r.readAll limit ps).lines) : ∃ p ∈ ps, p.number = l.number :=
  List.mem_map.1 ((numbers_sublist limit r ps).subset (List.mem_map_of_mem h))

end Reader

/-- The lines of a text are numbered upwards. -/
theorem scan_numbers_pairwise (limit : Nat) (text : String) :
    ((scan limit text).lines.map (·.number)).Pairwise (· < ·) :=
  (Text.pairwise_numberPieces 1 0 _).sublist (Reader.numbers_sublist limit {} _)

end Swimlane
