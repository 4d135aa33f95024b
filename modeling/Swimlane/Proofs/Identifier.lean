import Mathlib.Data.Finset.Card
import Swimlane.Outline.Identifier
import Swimlane.Process.Element
import Swimlane.Proofs.Slug

/-!
# Free and well-formed identifiers

An identifier that is handed out was free before, and it consists of at least two words joined by
single underscores, whatever lane, label or number it is made from.

## Main definitions

* `Identifier.candidate`: the identifiers for a base in the order in which they are tried.

## Main statements

* `Identifier.le_card_of_taken`: no more candidates can be passed over than identifiers are taken;
* `Identifier.fresh_not_mem`: the number put behind a taken base leads to a free identifier;
* `Identifier.isWellFormed_fresh`: numbering keeps the shape;
* `ElementKind.isWellFormed_idBase`: what an element's id is made from has the shape.
-/

namespace Swimlane

namespace Identifier

/-- Two or more words of lower-case letters and digits, joined by single underscores. -/
structure IsWellFormed (id : String) : Prop where
  snake : Slug.IsSnake id.toList
  underscore : '_' ∈ id.toList

theorem IsWellFormed.join {a b : String} (ha : Slug.IsSnake a.toList) (hb : Slug.IsSnake b.toList) :
    IsWellFormed (a ++ "_" ++ b) where
  snake := by simpa using ha.join hb
  underscore := by simp

theorem isSnake_toString (n : Nat) : Slug.IsSnake (toString n).toList := by
  rw [Nat.toString_eq_repr, Nat.toList_repr]
  refine .of_word Nat.toDigits_ne_nil fun c hc => .inr ?_
  exact Nat.isDigit_of_mem_toDigits (by decide) (by decide) hc

theorem isWellFormed_numbered {base : String} (h : IsWellFormed base) (n : Nat) :
    IsWellFormed (numbered base n) :=
  .join h.snake (isSnake_toString n)

theorem numbered_injective (base : String) : Function.Injective (numbered base) := by
  intro m n h
  have digits : Nat.toDigits 10 m = Nat.toDigits 10 n := by
    simpa [numbered] using congrArg String.toList h
  simpa using congrArg (fun ds => Nat.ofDigitChars 10 ds 0) digits

/-- The search passes over taken numbers only, and stops at a free one or where `fuel` ends. -/
theorem firstFree_eq (used : List String) (base : String) (fuel n : Nat) :
    ∃ k ≤ fuel, firstFree used base fuel n = numbered base (n + k) ∧
      (∀ j < k, numbered base (n + j) ∈ used) ∧ (numbered base (n + k) ∈ used → k = fuel) := by
  induction fuel generalizing n with
  | zero => exact ⟨0, le_rfl, rfl, by simp, fun _ => rfl⟩
  | succ fuel ih =>
    unfold firstFree
    split
    · next taken =>
      obtain ⟨k, hk, heq, passed, stop⟩ := ih (n + 1)
      refine ⟨k + 1, by omega, by rw [heq]; congr 1; omega, ?_, ?_⟩
      · intro j hj
        cases j with
        | zero => exact taken
        | succ j => simpa [Nat.add_assoc, Nat.add_comm 1] using passed j (by omega)
      · intro h
        have := stop (by rwa [Nat.add_assoc, Nat.add_comm 1])
        omega
    · next free => exact ⟨0, by omega, rfl, by simp, fun h => absurd h free⟩

/-! ## Candidates -/

/-- The identifiers for a base in the order in which they are tried. -/
def candidate (base : String) : Nat → String
  | 0 => base
  | k + 1 => numbered base (k + 2)

theorem numbered_ne (base : String) (n : Nat) : numbered base n ≠ base := by
  intro h
  have longer : (numbered base n).length = base.length + 1 + (toString n).length := by
    simp [numbered, show "_".length = 1 from rfl]
  rw [h] at longer
  omega

theorem candidate_injective (base : String) : Function.Injective (candidate base) := by
  intro i j h
  cases i with
  | zero =>
    cases j with
    | zero => rfl
    | succ j => exact absurd h.symm (numbered_ne base _)
  | succ i =>
    cases j with
    | zero => exact absurd h (numbered_ne base _)
    | succ j =>
      have := numbered_injective base h
      omega

/-- The candidates passed over are distinct, so there are at most as many as taken identifiers. -/
theorem le_card_of_taken {used : List String} {base : String} {n : Nat}
    (taken : ∀ j < n, candidate base j ∈ used) : n ≤ used.toFinset.card := by
  have maps : ∀ j ∈ Finset.range n, candidate base j ∈ used.toFinset := fun j hj =>
    List.mem_toFinset.2 (taken j (Finset.mem_range.1 hj))
  simpa using Finset.card_le_card_of_injOn _ maps (candidate_injective base).injOn

/-- The search passes over taken candidates only, and stops at a free one or where its tries end. -/
theorem exists_fresh_eq_candidate (used : List String) (base : String) :
    ∃ n, fresh used base = candidate base n ∧ (∀ j < n, candidate base j ∈ used) ∧
      (candidate base n ∈ used → n = used.length + 1) := by
  unfold fresh
  split
  · next taken =>
    obtain ⟨k, -, eq, passed, stop⟩ := firstFree_eq used base used.length 2
    rw [Nat.add_comm] at eq stop
    refine ⟨k + 1, eq, fun j hj => ?_, fun h => congrArg (· + 1) (stop h)⟩
    cases j with
    | zero => exact taken
    | succ j =>
      rw [candidate, Nat.add_comm]
      exact passed j (by omega)
  · next free => exact ⟨0, rfl, by simp, fun taken => absurd taken free⟩

/-- With more tries than there are taken identifiers, one is left over. -/
theorem fresh_not_mem (used : List String) (base : String) : fresh used base ∉ used := by
  obtain ⟨n, eq, passed, stop⟩ := exists_fresh_eq_candidate used base
  rw [eq]
  intro taken
  have all : ∀ j < n + 1, candidate base j ∈ used := by
    intro j hj
    obtain hj | rfl := Nat.lt_succ_iff_lt_or_eq.1 hj
    · exact passed j hj
    · exact taken
  have bound := (le_card_of_taken all).trans used.toFinset_card_le
  have := stop taken
  omega

/-! ## Shape -/

theorem isWellFormed_fresh {base : String} (h : IsWellFormed base) (used : List String) :
    IsWellFormed (fresh used base) := by
  obtain ⟨n, eq, -⟩ := exists_fresh_eq_candidate used base
  rw [eq]
  cases n with
  | zero => exact h
  | succ n => exact isWellFormed_numbered h _

theorem isWellFormed_laneBase (name : String) : IsWellFormed ("lane_" ++ slug name) := by
  have word : Slug.IsSnake "lane".toList :=
    .of_word (by decide) (by simp [Slug.IsWordChar])
  have split : "lane_" ++ slug name = "lane" ++ "_" ++ slug name := by
    rw [show "lane_" = "lane" ++ "_" by rfl]
  exact split ▸ .join word (isSnake_slug name)

end Identifier

open Identifier

/-- The slug of a label behind a word such as `data_`. -/
theorem isSnake_word_slug {word : String} (h : Slug.IsSnake word.toList) (text : String) :
    Slug.IsSnake (word ++ "_" ++ slug text).toList :=
  (IsWellFormed.join h (isSnake_slug text)).snake

theorem ElementKind.isWellFormed_idBase (kind : ElementKind) (laneName label : String) :
    IsWellFormed (kind.idBase laneName label) := by
  have data : Slug.IsSnake "data".toList :=
    .of_word (by decide) (by simp [Slug.IsWordChar])
  have note : Slug.IsSnake "note".toList :=
    .of_word (by decide) (by simp [Slug.IsWordChar])
  unfold idBase
  refine .join (isSnake_slug laneName) ?_
  split
  · exact isSnake_word_slug data label
  · exact isSnake_word_slug note _
  · exact isSnake_slug _

end Swimlane
