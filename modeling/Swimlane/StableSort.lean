/-!
# Stable sorting

Sorting by insertion. Elements that compare equal keep the order they came in.
-/

namespace Swimlane.StableSort

variable {α : Type}

/-- Inserts an element in front of the first one that is not smaller. -/
def insert (le : α → α → Bool) (a : α) : List α → List α
  | [] => [a]
  | b :: bs => if le a b then a :: b :: bs else b :: insert le a bs

/-- Sorts by a comparison. -/
def sort (le : α → α → Bool) : List α → List α
  | [] => []
  | a :: as => insert le a (sort le as)

/-- Sorts by a number. -/
def byKey (key : α → Nat) (l : List α) : List α := sort (fun a b => key a ≤ key b) l

theorem perm_insert (le : α → α → Bool) (a : α) (l : List α) : (insert le a l).Perm (a :: l) := by
  induction l with
  | nil => exact List.Perm.refl _
  | cons b bs ih =>
    unfold insert
    split
    · exact List.Perm.refl _
    · exact (ih.cons b).trans (List.Perm.swap a b bs)

/-- Sorting loses and adds nothing. -/
theorem perm_sort (le : α → α → Bool) (l : List α) : (sort le l).Perm l := by
  induction l with
  | nil => exact List.Perm.refl _
  | cons a as ih => exact (perm_insert le a _).trans (ih.cons a)

/-- In a sorted list an element is inserted where it belongs. -/
theorem pairwise_insert {le : α → α → Bool} (total : ∀ a b, le a b = true ∨ le b a = true)
    (trans : ∀ a b c, le a b = true → le b c = true → le a c = true) (a : α) {l : List α}
    (h : l.Pairwise fun x y => le x y = true) :
    (insert le a l).Pairwise fun x y => le x y = true := by
  induction h with
  | nil => exact List.pairwise_singleton _ a
  | @cons b l hb hl ih =>
    unfold insert
    split
    · next hab =>
      refine List.Pairwise.cons ?_ (List.Pairwise.cons hb hl)
      intro c hc
      obtain rfl | hc := List.mem_cons.1 hc
      · exact hab
      · exact trans a b c hab (hb c hc)
    · next hab =>
      refine List.Pairwise.cons ?_ ih
      intro c hc
      obtain rfl | hc := List.mem_cons.1 ((perm_insert le a l).mem_iff.1 hc)
      · exact (total c b).resolve_left hab
      · exact hb c hc

/-- Sorting by a total order gives a sorted list. -/
theorem pairwise_sort {le : α → α → Bool} (total : ∀ a b, le a b = true ∨ le b a = true)
    (trans : ∀ a b c, le a b = true → le b c = true → le a c = true) (l : List α) :
    (sort le l).Pairwise fun x y => le x y = true := by
  induction l with
  | nil => exact List.Pairwise.nil
  | cons a l ih => exact pairwise_insert total trans a ih

end Swimlane.StableSort
