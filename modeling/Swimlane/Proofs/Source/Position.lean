import Swimlane.Proofs.Source.Lines

/-!
# Where lines stand in a text

A span is a range of bytes of a text. The span of a line holds what is left of the line when it is
trimmed, and the spans of lines follow each other as the lines do.

## Main definitions

* `Span.Shows`: a span of a text that holds some characters;
* `Text.StandsAt`: a span of a text that holds a line.

## Main statements

* `Text.exists_append_of_mem_pieces`: a piece of a text starts at its offset;
* `Text.standsAt_spanOf`: the span of a piece holds the trimmed piece;
* `Text.spanOf_stop_lt_start`: spans of later lines stand behind.
-/

namespace Swimlane

/-- What holds along a list in strict order holds between members with increasing keys. -/
theorem rel_of_key_lt {α : Type} {key : α → Nat} {R : α → α → Prop} {l : List α}
    (h : l.Pairwise fun x y => key x < key y ∧ R x y) {x y : α} (hx : x ∈ l) (hy : y ∈ l)
    (lt : key x < key y) : R x y := by
  induction h with
  | nil => cases hx
  | @cons a l ha hl ih =>
    rcases List.mem_cons.1 hx with rfl | tail
    · rcases List.mem_cons.1 hy with rfl | tail'
      · exact absurd lt (Nat.lt_irrefl _)
      · exact (ha y tail').2
    · rcases List.mem_cons.1 hy with rfl | tail'
      · exact absurd lt (Nat.lt_asymm (ha x tail).1)
      · exact ih tail tail'

/-! ## Spans -/

/-- A span holds characters of a text: it is not empty, it starts and stops between two characters,
and its bytes are those of the characters. -/
structure Span.Shows (s : Span) (text : String) (cs : List Char) : Prop where
  nonempty : s.start < s.stop
  bounded : s.stop ≤ text.utf8ByteSize
  start_valid : String.Pos.Raw.IsValid text ⟨s.start⟩
  stop_valid : String.Pos.Raw.IsValid text ⟨s.stop⟩
  bytes : text.toByteArray.extract s.start s.stop = (String.ofList cs).toByteArray

namespace Text

theorem utf8ByteSize_ofList (cs : List Char) : (String.ofList cs).utf8ByteSize = byteLength cs := by
  induction cs with
  | nil => rfl
  | cons c cs ih =>
    have split : String.ofList (c :: cs) = String.singleton c ++ String.ofList cs := by simp
    rw [split, String.utf8ByteSize_append, String.utf8ByteSize_singleton, ih, byteLength_cons]

theorem byteLength_pos {cs : List Char} (h : cs ≠ []) : 0 < byteLength cs := by
  cases cs with
  | nil => exact absurd rfl h
  | cons c cs =>
    have := c.utf8Size_pos
    rw [byteLength_cons]
    omega

/-- The span behind the bytes of what stands in front. -/
theorem shows_of_append {text : String} {before cs after : List Char}
    (h : text.toList = before ++ cs ++ after) (ne : cs ≠ []) :
    Span.Shows ⟨byteLength before, byteLength before + byteLength cs⟩ text cs := by
  have whole : text = String.ofList before ++ String.ofList cs ++ String.ofList after := by
    rw [← String.toList_inj, h]
    simp
  have start : (⟨byteLength before⟩ : String.Pos.Raw) = (String.ofList before).rawEndPos := by
    rw [String.Pos.Raw.ext_iff, String.byteIdx_rawEndPos, utf8ByteSize_ofList]
  have stop : (⟨byteLength before + byteLength cs⟩ : String.Pos.Raw) =
      (String.ofList before ++ String.ofList cs).rawEndPos := by
    rw [String.Pos.Raw.ext_iff, String.byteIdx_rawEndPos, String.utf8ByteSize_append,
      utf8ByteSize_ofList, utf8ByteSize_ofList]
  refine ⟨Nat.lt_add_of_pos_right (byteLength_pos ne), ?_, ?_, ?_, ?_⟩
  · rw [whole, String.utf8ByteSize_append, String.utf8ByteSize_append, utf8ByteSize_ofList,
      utf8ByteSize_ofList]
    exact Nat.le_add_right _ _
  · exact String.Pos.Raw.isValid_iff_exists_append.2
      ⟨_, _, whole.trans (String.append_assoc ..), start⟩
  · exact String.Pos.Raw.isValid_iff_exists_append.2 ⟨_, _, whole, stop⟩
  · have size (ds : List Char) : (String.ofList ds).toByteArray.size = byteLength ds :=
      utf8ByteSize_ofList ds
    rw [whole, String.toByteArray_append, String.toByteArray_append, ByteArray.append_assoc]
    have inner := ByteArray.extract_append_size_add (a := (String.ofList before).toByteArray)
      (b := (String.ofList cs).toByteArray ++ (String.ofList after).toByteArray)
      (i := 0) (j := (String.ofList cs).toByteArray.size)
    rw [Nat.add_zero, ByteArray.extract_append_size_left, ByteArray.extract_zero_size, size,
      size] at inner
    exact inner

/-! ## Pieces -/

/-- What stands in front of the trimmed characters of a line is its indentation. -/
theorem exists_append_trim (cs : List Char) :
    ∃ after, cs = indentation cs ++ trim cs ++ after := by
  obtain ⟨after, split, -⟩ := exists_trimRight_append (trimLeft cs)
  refine ⟨after, ?_⟩
  rw [List.append_assoc, trim, ← split, indentation_append_trimLeft]

/-- A numbered piece stands in the joined lines behind as many bytes as its offset says. -/
theorem exists_append_of_mem_numberPieces {number offset : Nat} {ls : List (List Char)} {p : Piece}
    (h : p ∈ numberPieces number offset ls) :
    ∃ k before after, ls[k]? = some p.chars ∧ p.number = number + k ∧
      List.intercalate ['\n'] ls = before ++ p.chars ++ after ∧
        p.offset = offset + byteLength before := by
  induction ls generalizing number offset with
  | nil => simp [numberPieces] at h
  | cons l ls ih =>
    rcases List.mem_cons.1 h with rfl | h
    · cases ls with
      | nil => exact ⟨0, [], [], rfl, rfl, by simp, rfl⟩
      | cons l' ls =>
        exact ⟨0, [], _, rfl, rfl, by rw [List.intercalate_cons_cons, List.append_assoc]; rfl, rfl⟩
    · cases ls with
      | nil => simp [numberPieces] at h
      | cons l' ls =>
        obtain ⟨k, before, after, line, next, split, start⟩ := ih h
        refine ⟨k + 1, l ++ ['\n'] ++ before, after, line, by omega, ?_, ?_⟩
        · rw [List.intercalate_cons_cons, split]
          simp only [List.append_assoc]
        · have newline : byteLength ['\n'] = 1 := rfl
          rw [start, byteLength_append, byteLength_append, newline]
          omega

/-- A piece is a line of its text, and it starts at its offset. -/
theorem exists_append_of_mem_pieces {text : String} {p : Piece} (h : p ∈ pieces text.toList) :
    ∃ k before after, (lines text)[k]? = some p.chars ∧ p.number = k + 1 ∧
      text.toList = before ++ p.chars ++ after ∧ p.offset = byteLength before := by
  obtain ⟨k, before, after, line, number, split, start⟩ := exists_append_of_mem_numberPieces h
  rw [intercalate_splitOn] at split
  exact ⟨k, before, after, line, by omega, split, by omega⟩

/-- A span stands at a line of a text: it holds the trimmed characters of the line. Lines are
counted from one. -/
def StandsAt (text : String) (number : Nat) (s : Span) : Prop :=
  ∃ k cs, (lines text)[k]? = some cs ∧ number = k + 1 ∧ s.Shows text (trim cs)

theorem standsAt_spanOf {text : String} {p : Piece} (h : p ∈ pieces text.toList)
    (written : p.isWritten = true) : StandsAt text p.number (Line.spanOf p) := by
  obtain ⟨k, before, after, line, number, split, start⟩ := exists_append_of_mem_pieces h
  obtain ⟨behind, chars⟩ := exists_append_trim p.chars
  have ne : trim p.chars ≠ [] := by simpa [Piece.isWritten] using written
  have whole : text.toList =
      (before ++ indentation p.chars) ++ trim p.chars ++ (behind ++ after) := by
    rw [split]
    nth_rewrite 1 [chars]
    simp only [List.append_assoc]
  have shows := shows_of_append whole ne
  rw [byteLength_append, ← start] at shows
  exact ⟨k, p.chars, line, number, shows⟩

/-! ## The order of spans -/

theorem offset_le_of_mem_numberPieces {number offset : Nat} {ls : List (List Char)} {p : Piece}
    (h : p ∈ numberPieces number offset ls) : offset ≤ p.offset := by
  obtain ⟨_, before, _, _, _, _, start⟩ := exists_append_of_mem_numberPieces h
  omega

/-- Every piece ends before the later ones start. -/
theorem pairwise_offset_numberPieces (number offset : Nat) (ls : List (List Char)) :
    (numberPieces number offset ls).Pairwise
      fun p q => p.offset + byteLength p.chars < q.offset := by
  induction ls generalizing number offset with
  | nil => exact .nil
  | cons l ls ih =>
    refine .cons (fun q hq => ?_) (ih _ _)
    exact offset_le_of_mem_numberPieces hq

theorem stop_spanOf_le (p : Piece) : (Line.spanOf p).stop ≤ p.offset + byteLength p.chars := by
  obtain ⟨after, chars⟩ := exists_append_trim p.chars
  have length := congrArg byteLength chars
  simp only [byteLength_append] at length
  simp only [Line.spanOf]
  omega

/-- Spans of later lines stand behind. -/
theorem spanOf_stop_lt_start {cs : List Char} {p q : Piece} (hp : p ∈ pieces cs)
    (hq : q ∈ pieces cs) (h : p.number < q.number) :
    (Line.spanOf p).stop < (Line.spanOf q).start := by
  have order : (pieces cs).Pairwise fun p q => p.number < q.number ∧
      p.offset + byteLength p.chars < q.offset :=
    (List.pairwise_map.1 (pairwise_numberPieces 1 0 _)).and (pairwise_offset_numberPieces 1 0 _)
  have before := rel_of_key_lt order hp hq h
  have stop := stop_spanOf_le p
  have start : q.offset ≤ (Line.spanOf q).start := Nat.le_add_right _ _
  omega

end Text

end Swimlane
