import Mathlib.Order.Bounds.Defs
import Swimlane.Proofs.Identifier

/-!
# The search for a free identifier

A search that tries the base and then the base with the numbers from two on has no bound of its own:
it goes on until an identifier is free. It ends all the same, since the identifiers it tries are
distinct and finitely many are taken, and it ends with the identifier that is allocated.

## Main definitions

* `Identifier.Search`: a stage of the search;
* `Identifier.Search.Ends`: where an unbounded search ends, and how many identifiers it has tried.

## Main statements

* `Identifier.Search.Ends.unique`: a search ends in one way only;
* `Identifier.ends_of_taken`: it passes over what is taken, up to the first free candidate;
* `Identifier.allocate_takes_least`: it ends with the least free identifier, which is what is
  allocated, and has tried one identifier more than are taken at most.
-/

namespace Swimlane.Identifier

/-- A stage of the search: the identifier to try and the number to put behind the base next. -/
structure Search where
  current : String
  number : Nat

namespace Search

/-- The base itself is tried first. -/
def start (base : String) : Search := ⟨base, 2⟩

def next (base : String) (s : Search) : Search := ⟨numbered base s.number, s.number + 1⟩

/-- A search that goes on as long as its current identifier is taken ends with `id`, the last of
`tries` identifiers from stage `s` on. -/
inductive Ends (used : List String) (base : String) : Search → (tries : Nat) → (id : String) → Prop
  | free {s : Search} (h : s.current ∉ used) : Ends used base s 1 s.current
  | taken {s : Search} {tries : Nat} {id : String} (h : s.current ∈ used)
      (rest : Ends used base (s.next base) tries id) : Ends used base s (tries + 1) id

variable {used : List String} {base : String}

/-- A search ends in one way only. -/
theorem Ends.unique {s : Search} {tries tries' : Nat} {id id' : String}
    (h : Ends used base s tries id) (h' : Ends used base s tries' id') :
    tries' = tries ∧ id' = id := by
  induction h generalizing tries' with
  | free free =>
    cases h' with
    | free => exact ⟨rfl, rfl⟩
    | taken taken => exact absurd taken free
  | taken taken _ ih =>
    cases h' with
    | free free => exact absurd taken free
    | taken _ rest =>
      obtain ⟨rfl, rfl⟩ := ih rest
      exact ⟨rfl, rfl⟩

end Search

/-- The stage at which the candidate with index `k` is tried. -/
def Search.stage (base : String) (k : Nat) : Search := ⟨candidate base k, k + 2⟩

theorem Search.stage_zero (base : String) : stage base 0 = start base := rfl

theorem Search.next_stage (base : String) (k : Nat) :
    (stage base k).next base = stage base (k + 1) :=
  rfl

section

variable {used : List String} {base : String}

/-- From any stage on, the search passes over the taken candidates to the first that is free. -/
theorem ends_of_taken {k n : Nat} (taken : ∀ j < n, candidate base (k + j) ∈ used)
    (free : candidate base (k + n) ∉ used) :
    Search.Ends used base (.stage base k) (n + 1) (candidate base (k + n)) := by
  induction n generalizing k with
  | zero => exact .free free
  | succ n ih =>
    -- The stage after the first is a stage too, with one candidate less to pass over.
    have shift (j : Nat) : k + (j + 1) = k + 1 + j := by omega
    refine .taken (taken 0 (by omega)) ?_
    rw [Search.next_stage, shift n]
    refine ih (fun j hj => ?_) (shift n ▸ free)
    exact shift j ▸ taken (j + 1) (by omega)

variable (used base)

theorem fresh_eq_of_mem (taken : base ∈ used) :
    ∃ k, IsLeast {k | 2 ≤ k ∧ numbered base k ∉ used} k ∧ fresh used base = numbered base k := by
  obtain ⟨n, eq, passed, -⟩ := exists_fresh_eq_candidate used base
  have free := fresh_not_mem used base
  rw [eq] at free
  cases n with
  | zero => exact absurd taken free
  | succ n =>
    refine ⟨n + 2, ⟨⟨by omega, free⟩, ?_⟩, eq⟩
    rintro k ⟨two, hk⟩
    by_contra smaller
    obtain ⟨j, rfl⟩ := Nat.exists_eq_add_of_le' two
    exact hk (passed (j + 1) (by omega))

/-- The search for an identifier ends, in one way only, with the identifier that is allocated, and
tries at most one identifier more than are taken. It ends with the base if this is free, and else
with the base and the least number from two on that makes it free. What is allocated was not taken
before, and nothing else is taken by the allocation. -/
theorem allocate_takes_least :
    (∃ tries, Search.Ends used base (.start base) tries (allocate used base).1) ∧
      (∀ tries id, Search.Ends used base (.start base) tries id →
        id = (allocate used base).1 ∧ tries ≤ used.toFinset.card + 1) ∧
      (base ∉ used → (allocate used base).1 = base) ∧
      (base ∈ used → ∃ k, IsLeast {k | 2 ≤ k ∧ numbered base k ∉ used} k ∧
        (allocate used base).1 = numbered base k) ∧
      (allocate used base).1 ∉ used ∧
      ∀ id, id ∈ (allocate used base).2 ↔ id ∈ used ∨ id = (allocate used base).1 := by
  have free := fresh_not_mem used base
  obtain ⟨n, eq, passed, -⟩ := exists_fresh_eq_candidate used base
  have ends : Search.Ends used base (.start base) (n + 1) (fresh used base) := by
    have := ends_of_taken (k := 0) (by simpa using passed) (by simpa [eq] using free)
    rwa [Search.stage_zero, Nat.zero_add, ← eq] at this
  refine ⟨⟨n + 1, ends⟩, ?_, fun h => if_neg h, fresh_eq_of_mem used base, free, ?_⟩
  · intro tries id h
    obtain ⟨rfl, rfl⟩ := ends.unique h
    exact ⟨rfl, Nat.succ_le_succ (le_card_of_taken passed)⟩
  · intro id
    simp [allocate]

end

/-- Three identifiers are tried, and the gap in the numbers is filled. -/
theorem allocate_takes_least_gap :
    let used := ["a_check", "a_check_2", "lane_a", "a_check_4"]
    "a_check" ∈ used ∧ (allocate used "a_check").2 = used ++ ["a_check_3"] ∧
      Search.Ends used "a_check" (.start "a_check") 3 "a_check_3" ∧ 3 ≤ used.toFinset.card + 1 ∧
      ∃ k, IsLeast {k | 2 ≤ k ∧ numbered "a_check" k ∉ used} k ∧
        "a_check_3" = numbered "a_check" k := by
  intro used
  have taken : "a_check" ∈ used := by decide
  have eq : allocate used "a_check" = ("a_check_3", used ++ ["a_check_3"]) := by decide
  have ends : Search.Ends used "a_check" (.start "a_check") 3 "a_check_3" :=
    .taken taken (.taken (by decide) (.free (by decide)))
  obtain ⟨-, bound, -, least, -⟩ := allocate_takes_least used "a_check"
  rw [eq] at least
  exact ⟨taken, by rw [eq], ends, (bound 3 _ ends).2, least taken⟩

end Swimlane.Identifier
