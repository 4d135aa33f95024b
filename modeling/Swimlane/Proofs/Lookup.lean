import Mathlib.Data.List.Nodup

/-!
# Looking up keys

Pairs of a key and a value are looked up by their key. Where keys are distinct, looking up finds
every pair; to put a value under a key takes away what was there before.

## Main statements

* `lookup_put`: what is found when a value has been put;
* `lookup_eq_some_iff_mem`: looking up distinct keys.
-/

namespace Swimlane

variable {κ β : Type} [BEq κ] [LawfulBEq κ] [DecidableEq κ]

theorem lookup_filter_ne (l : List (κ × β)) (k k' : κ) :
    (l.filter (·.1 != k)).lookup k' = if k' = k then none else l.lookup k' := by
  induction l with
  | nil => simp
  | cons a l ih => grind

theorem lookup_put (l : List (κ × β)) (k k' : κ) (b : β) :
    ((k, b) :: l.filter (·.1 != k)).lookup k' = if k' = k then some b else l.lookup k' := by
  by_cases h : k' = k
  · simp [h]
  · have apart : (k' == k) = false := by simpa using h
    simp [List.lookup_cons, apart, lookup_filter_ne, h]

omit [DecidableEq κ] in
theorem mem_of_lookup {l : List (κ × β)} {k : κ} {b : β} (h : l.lookup k = some b) :
    (k, b) ∈ l := by
  obtain ⟨before, after, rfl, -⟩ := List.lookup_eq_some_iff.1 h
  simp

omit [DecidableEq κ] in
/-- Where keys are distinct, every pair is found. -/
theorem lookup_eq_some_iff_mem {l : List (κ × β)} (distinct : (l.map (·.1)).Nodup) {k : κ} {b : β} :
    l.lookup k = some b ↔ (k, b) ∈ l := by
  refine ⟨mem_of_lookup, fun h => ?_⟩
  obtain ⟨before, after, rfl⟩ := List.append_of_mem h
  rw [List.map_append, List.map_cons] at distinct
  refine List.lookup_eq_some_iff.2 ⟨before, after, rfl, fun p hp => ?_⟩
  have apart : p.1 ≠ k :=
    (List.nodup_append.1 distinct).2.2 p.1 (List.mem_map_of_mem hp) k (by simp)
  simpa using apart.symm

end Swimlane
