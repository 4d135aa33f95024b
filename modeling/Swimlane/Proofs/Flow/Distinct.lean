import Swimlane.Flow

/-!
# Edges that count

Of several outcomes with the same edge the first counts.

## Main statements

* `Outcome.distinct_sublist`, `Outcome.distinct_prefix`: outcomes that count keep their order, and
  those behind them do not matter;
* `Outcome.filter_distinct_append`: edges that come first all count where their keys differ;
* `Outcome.filter_key_distinct`: the one edge of a key that counts;
* `Flow.filter_connections`: connections and the edges they come from.
-/

namespace Swimlane

namespace Outcome

theorem distinct_sublist (seen : List (ConnectionKind × String × String))
    (outcomes : List Outcome) : (distinct seen outcomes).Sublist outcomes := by
  fun_induction distinct seen outcomes with
  | case1 => exact List.Sublist.refl _
  | case2 seen e rest known ih => exact ih.cons _
  | case3 seen e rest new ih => exact ih.cons_cons _
  | case4 seen o rest _ ih => exact ih.cons_cons _

theorem distinct_prefix (seen : List (ConnectionKind × String × String))
    (outcomes more : List Outcome) :
    distinct seen outcomes <+: distinct seen (outcomes ++ more) := by
  fun_induction distinct seen outcomes with
  | case1 => exact List.nil_prefix
  | case2 seen e rest known ih => simpa [distinct, known] using ih
  | case3 seen e rest new ih => simpa [distinct, new] using ih
  | case4 seen o rest other ih =>
    cases o with
    | edge e => exact absurd rfl (other e)
    | looseData | looseReference => simpa [distinct] using ih

/-- No outcome that counts has an edge that was there before. -/
theorem key_notMem_of_mem_distinct {seen : List (ConnectionKind × String × String)}
    {outcomes : List Outcome} {e : Edge} (h : .edge e ∈ distinct seen outcomes) : e.key ∉ seen := by
  fun_induction distinct seen outcomes with
  | case1 => cases h
  | case2 seen x rest known ih => exact ih h
  | case3 seen x rest new ih =>
    rcases List.mem_cons.1 h with same | later
    · cases same
      exact new
    · exact fun mem => ih later (List.mem_cons_of_mem _ mem)
  | case4 seen o rest other ih =>
    rcases List.mem_cons.1 h with rfl | later
    · exact absurd rfl (other e)
    · exact ih later

/-- Edges that come first all count where their keys differ, and none behind them with a key that
was there before. -/
theorem filter_distinct_append {p : Edge → Bool} (hp : ∀ e e' : Edge, e.key = e'.key → p e = p e')
    (edges : List Edge) (rest : List Outcome) (seen : List (ConnectionKind × String × String))
    (new : ∀ e ∈ edges, p e = true → e.key ∉ seen)
    (nodup : ((edges.filter p).map (·.key)).Nodup)
    (known : ∀ e, .edge e ∈ rest → p e = true →
      e.key ∈ seen ∨ e.key ∈ (edges.filter p).map (·.key)) :
    ((distinct seen (edges.map .edge ++ rest)).filterMap edge?).filter p = edges.filter p := by
  induction edges generalizing seen with
  | nil =>
    refine List.filter_eq_nil_iff.2 fun e he hpe => ?_
    obtain ⟨o, ho, own⟩ := List.mem_filterMap.1 he
    cases o with
    | edge x =>
      obtain rfl := Option.some.inj own
      have mem := known x ((distinct_sublist _ _).subset ho) hpe
      exact key_notMem_of_mem_distinct ho (by simpa using mem)
    | looseData | looseReference => cases own
  | cons e edges ih =>
    have others (x : Edge) (hx : x ∈ edges) := new x (List.mem_cons_of_mem e hx)
    cases hk : p e with
    | true =>
      -- The edge is kept. No later one has its key.
      have kept : e.key ∉ seen := new e List.mem_cons_self hk
      simp only [List.filter_cons, hk, if_true, List.map_cons, List.nodup_cons] at nodup
      have later := ih (e.key :: seen) (fun x hx hxk => ?_) nodup.2 fun x hx hxk => ?_
      · simp [distinct, kept, edge?, hk, later]
      · refine List.not_mem_cons_of_ne_of_not_mem (fun same => nodup.1 ?_) (others x hx hxk)
        exact same ▸ List.mem_map_of_mem (List.mem_filter.2 ⟨hx, hxk⟩)
      · have mem := known x hx hxk
        simp only [List.filter_cons, hk, if_true, List.map_cons, List.mem_cons] at mem
        grind
    | false =>
      -- The edge is none of these, so that its key is not one of those that matter.
      simp only [List.filter_cons, hk, Bool.false_eq_true, if_false] at nodup known
      have skip := ih seen others nodup known
      have later := ih (e.key :: seen) (fun x hx hxk => ?_) nodup fun x hx hxk =>
        (known x hx hxk).imp_left (List.mem_cons_of_mem _)
      · by_cases known : e.key ∈ seen
        · simp [distinct, known, hk, skip]
        · simp [distinct, known, edge?, hk, later]
      · refine List.not_mem_cons_of_ne_of_not_mem (fun same => ?_) (others x hx hxk)
        rw [hp x e same, hk] at hxk
        cases hxk

/-- Edges of one kind whose keys differ all count. -/
theorem filter_distinct {kind : ConnectionKind} (edges : List Edge)
    (seen : List (ConnectionKind × String × String))
    (new : ∀ e ∈ edges, e.kind = kind → e.key ∉ seen)
    (nodup : ((edges.filter (·.kind = kind)).map (·.key)).Nodup) :
    ((distinct seen (edges.map .edge)).filterMap edge?).filter (·.kind = kind) =
      edges.filter (·.kind = kind) := by
  have same (e e' : Edge) (h : e.key = e'.key) :
      decide (e.kind = kind) = decide (e'.kind = kind) := by
    rw [show e.kind = e'.kind from congrArg Prod.fst h]
  simpa using filter_distinct_append same edges [] seen (by simpa using new) nodup (by simp)

/-- The first edge of a key counts, unless there was one before. -/
theorem filter_key_distinct (key : ConnectionKind × String × String)
    (seen : List (ConnectionKind × String × String)) (outcomes : List Outcome) :
    ((distinct seen outcomes).filterMap edge?).filter (·.key = key) =
      if key ∈ seen then [] else ((outcomes.filterMap edge?).find? (·.key = key)).toList := by
  induction outcomes generalizing seen with
  | nil => simp [distinct]
  | cons o outcomes ih =>
    cases o with
    | edge e =>
      by_cases known : e.key ∈ seen
      · by_cases same : e.key = key
        · subst same
          simp [distinct, known, ih]
        · simp [distinct, known, ih, edge?, same]
      · by_cases same : e.key = key
        · subst same
          simp [distinct, known, ih, edge?]
        · simp [distinct, known, ih, edge?, same, Ne.symm same]
    | looseData | looseReference => exact ih seen

end Outcome

/-- The connections of some edges, as edges. -/
theorem Flow.filter_connections {β : Type} {p : Connection → Bool} {q : Edge → Bool}
    (ends : Edge → β) (ends' : Connection → β) (same : ∀ i e, p (Edge.connection i e) = q e)
    (h : ∀ i e, ends' (Edge.connection i e) = ends e) (edges : List Edge) (number : Nat → Nat) :
    ((edges.mapIdx fun i => Edge.connection (number i)).filter p).map ends' =
      (edges.filter q).map ends := by
  induction edges generalizing number with
  | nil => rfl
  | cons e edges ih =>
    have rest := ih fun i => number (i + 1)
    rw [List.mapIdx_cons]
    by_cases hq : q e = true <;> simp [same, hq, h, rest]

end Swimlane
