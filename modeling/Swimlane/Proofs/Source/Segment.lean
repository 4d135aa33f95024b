import Swimlane.Proofs.Source.Layout

/-!
# Reading the first lines of a text

What is read of the first pieces of a text does not depend on those behind them: their lines come
first, and where one of them fails, the whole text fails with it.

## Main statements

* `Reader.failure_append`, `Reader.lines_prefix`: reading pieces in two parts;
* `scan_intercalate`: the pieces of joined lines are the lines;
* `scan_take`: the first lines of a text.
-/

namespace Swimlane

theorem Text.numberPieces_prefix (number offset : Nat) (ps qs : List (List Char)) :
    numberPieces number offset ps <+: numberPieces number offset (ps ++ qs) := by
  induction ps generalizing number offset with
  | nil => exact List.nil_prefix
  | cons p ps ih => exact List.cons_prefix_cons.2 ⟨rfl, ih _ _⟩

namespace Reader

/-- The first failure counts. The reader behind pieces without one goes on with the others. -/
theorem failure_append (limit : Nat) (r : Reader) (ps qs : List Text.Piece) :
    (r.readAll limit (ps ++ qs)).failure =
      (r.readAll limit ps).failure.or ((r.readAll limit ps).reader.readAll limit qs).failure := by
  induction ps generalizing r with
  | nil => rfl
  | cons p ps ih =>
    rw [List.cons_append, readAll, readAll]
    cases (r.read limit p).outcome with
    | error failure => rfl
    | ok line => exact ih _

theorem lines_prefix (limit : Nat) (r : Reader) (ps qs : List Text.Piece) :
    (r.readAll limit ps).lines <+: (r.readAll limit (ps ++ qs)).lines := by
  induction ps generalizing r with
  | nil => exact List.nil_prefix
  | cons p ps ih =>
    rw [List.cons_append, readAll, readAll]
    cases (r.read limit p).outcome with
    | error failure => exact List.prefix_refl _
    | ok line => exact (List.prefix_append_right_inj _).2 (ih _)

end Reader

/-- Lines without newlines that are joined are read one by one. -/
theorem scan_intercalate (limit : Nat) {lines : List String}
    (newline : ∀ l ∈ lines, '\n' ∉ l.toList) :
    scan limit ("\n".intercalate lines) =
      ({} : Reader).readAll limit (Text.numberPieces 1 0 (lines.map String.toList)) := by
  cases lines with
  | nil => rfl
  | cons l ls =>
    have split := Text.splitOn_intercalate (List.cons_ne_nil l.toList (ls.map String.toList))
      (by simpa using newline : ∀ cs ∈ l.toList :: ls.map String.toList, '\n' ∉ cs)
    rw [scan, Text.pieces, String.toList_intercalate]
    exact congrArg (fun ps => ({} : Reader).readAll limit (Text.numberPieces 1 0 ps)) split

/-- The first lines of a text fail only as the whole does, and are read first. -/
theorem scan_take (limit : Nat) {lines : List String} (newline : ∀ l ∈ lines, '\n' ∉ l.toList)
    (n : Nat) :
    (∀ f, (scan limit ("\n".intercalate (lines.take n))).failure = some f →
        (scan limit ("\n".intercalate lines)).failure = some f) ∧
      (scan limit ("\n".intercalate (lines.take n))).lines <+:
        (scan limit ("\n".intercalate lines)).lines := by
  have first : ∀ l ∈ lines.take n, '\n' ∉ l.toList :=
    fun l hl => newline l (List.mem_of_mem_take hl)
  obtain ⟨rest, pieces⟩ := Text.numberPieces_prefix 1 0 ((lines.take n).map String.toList)
    ((lines.drop n).map String.toList)
  rw [← List.map_append, List.take_append_drop] at pieces
  rw [scan_intercalate limit first, scan_intercalate limit newline, ← pieces]
  refine ⟨fun f failed => ?_, Reader.lines_prefix limit {} _ rest⟩
  rw [Reader.failure_append, failed, Option.some_or]

end Swimlane
