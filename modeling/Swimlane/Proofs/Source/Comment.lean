import Swimlane.Proofs.Source.Lines
import Swimlane.Proofs.Source.Numbering
import Swimlane.Proofs.Source.Sigil

/-!
# The indentation of comments

A comment states nothing, but its indentation is measured as that of any line is: it may show the
unit of the text, be indented badly, or lend its depth to a line behind it that is indented badly.
A comment that fits does nothing of the kind, and it leaves the other lines as they are.

## Main definitions

* `Text.Comment`: a line that is a comment;
* `Text.Comment.Fits`: the indentation of a comment fits to the text around it;
* `Text.Unchanged`: one more line does not change how the other ones are read.

## Main statements

* `Text.Inserted.fits_iff`, `Text.Inserted.unchanged_iff`: both told by the readers in front of the
  comment and behind it;
* `Text.Comment.fits_iff_unchanged`: the comments that fit are those that change nothing.
-/

namespace Swimlane

open Text (Piece written unit?)

/-! ## Comments -/

namespace Text

/-- A comment on a line of its own: two slashes behind spaces and tabs, and what follows them. -/
structure Comment where
  indent : List Char
  rest : List Char
  blank : ∀ c ∈ indent, c = ' ' ∨ c = '\t'
  oneLine : '\n' ∉ rest

namespace Comment

variable (c : Comment)

/-- The line of a comment. -/
def chars : List Char := c.indent ++ '/' :: '/' :: c.rest

theorem newline_notMem_chars : '\n' ∉ c.chars := by
  intro newline
  rcases List.mem_append.1 newline with inside | inside
  · rcases c.blank _ inside with eq | eq
    · exact absurd eq (by decide)
    · exact absurd eq (by decide)
  · exact c.oneLine (by simpa using inside)

theorem isBlank_of_mem_indent {x : Char} (hx : x ∈ c.indent) : isBlank x = true := by
  rcases c.blank x hx with rfl | rfl <;> decide

theorem indentation_chars : indentation c.chars = c.indent := by
  rw [chars, indentation, List.takeWhile_append_of_pos fun x => c.isBlank_of_mem_indent]
  simp [show isBlank '/' = false from by decide]

/-- What is left of a comment when it is trimmed is a comment. -/
theorem isComment_trim : ['/', '/'] <+: trim c.chars := by
  have left : trimLeft c.chars = '/' :: '/' :: c.rest := by
    rw [chars, trimLeft, List.dropWhile_append_of_pos fun x => c.isBlank_of_mem_indent]
    exact List.dropWhile_cons_of_neg (by decide)
  rw [trim, left, trimRight, List.reverse_cons, List.reverse_cons, List.append_assoc,
    List.dropWhile_append]
  split
  · exact List.prefix_refl _
  · simp

section Piece

variable {c} {p : Piece} (hp : p.chars = c.chars)

include hp

theorem isWritten : p.isWritten = true := by
  obtain ⟨rest, eq⟩ := c.isComment_trim
  simp [Piece.isWritten, hp, ← eq]

theorem kind_ofPiece (depth : Nat) : (Line.ofPiece p depth).kind = .comment := by
  rw [Line.kind_ofPiece _ _ (by decide) (by decide), Sigil.split_eq_comment, hp]
  exact c.isComment_trim

theorem sigilWarning_eq_nil : Line.sigilWarning p = [] := by
  have kind : (Sigil.split (trim p.chars)).1 = .comment := by
    rw [Sigil.split_eq_comment, hp]
    exact c.isComment_trim
  unfold Line.sigilWarning
  split
  · next eq =>
    rw [eq] at kind
    cases kind
  · rfl

/-- A comment that is indented well is one more line. -/
theorem readAll_of_some {limit depth : Nat} {r : Reader}
    (measured : p.depth? (r.unitAfter p) = some depth) (shallow : depth ≤ limit) (ps : List Piece) :
    r.readAll limit (p :: ps) =
      let rest := Reader.readAll limit ⟨r.unitAfter p, depth⟩ ps
      ⟨rest.reader, Line.ofPiece p depth :: rest.lines, rest.warnings, rest.failure⟩ := by
  rw [Reader.readAll, Reader.read_of_written (isWritten hp), Reader.measure_of_some measured]
  simp only [Nat.not_lt.2 shallow, if_false, sigilWarning_eq_nil hp]
  rfl

theorem failure_of_some {limit depth : Nat} {r : Reader}
    (measured : p.depth? (r.unitAfter p) = some depth) (deep : limit < depth) (ps : List Piece) :
    (r.readAll limit (p :: ps)).failure ≠ none := by
  rw [Reader.readAll, Reader.read_of_written (isWritten hp), Reader.measure_of_some measured]
  simp [deep]

/-- A comment that is indented badly is warned about, and nothing else comes of it. -/
theorem readAll_of_none {limit : Nat} {r : Reader} (measured : p.depth? (r.unitAfter p) = none)
    (hr : r.depth ≤ limit) (ps : List Piece) :
    ∃ x, (r.readAll limit (p :: ps)).warnings = x :: (r.readAll limit ps).warnings := by
  have unit : r.unitAfter p = r.unit := by
    rw [Reader.unitAfter] at measured ⊢
    cases known : r.unit with
    | some unit => rfl
    | none =>
      cases shown : IndentUnit.shownBy? (indentation p.chars) with
      | none => rfl
      | some unit =>
        rw [known, shown, Option.none_or] at measured
        exact absurd measured (IndentUnit.depth?_ne_none_of_shownBy? shown)
  obtain ⟨x, -, -, -, misfit⟩ := Reader.measure_of_none measured
  refine ⟨x, ?_⟩
  rw [Reader.readAll, Reader.read_of_written (isWritten hp), misfit]
  simp only [Nat.not_lt.2 hr, if_false, sigilWarning_eq_nil hp, unit]
  rfl

end Piece

end Comment

/-! ## Comments that fit -/

/-- The unit of a text. -/
def unitOf (text : String) : Option IndentUnit := unit? (written (pieces text.toList))

/-- The depth of the last line among the first `i` ones, without regard to blank lines. -/
def depthAt (limit i : Nat) (text : String) : Nat :=
  (((scan limit text).lines.filter (·.number ≤ i)).getLast?.map (·.depth)).getD 0

/-- A comment behind the first `i` lines whose indentation fits to the other lines of the text: it
is indented well, not too deeply, and it shows no other unit than they do. A line that follows it
and is indented badly finds the depth that it finds without the comment. -/
structure Comment.Fits (limit i : Nat) (text : String) (c : Comment) (depth : Nat) : Prop where
  indented : IndentUnit.depth? (unitOf (insertLine i c.chars text)) c.indent = some depth
  shallow : depth ≤ limit
  unit : unitOf text = none ∨ unitOf (insertLine i c.chars text) = unitOf text
  next : depthAt limit i text = depth ∨
    ∀ p, (written (pieces text.toList)).find? (i < ·.number) = some p →
      p.depth? (unitOf text) ≠ none

/-- One more line behind the first `i` ones changes nothing about how the other ones are read: their
kinds, depths and contents, and the warnings about them. -/
structure Unchanged (limit i : Nat) (line : List Char) (text : String) : Prop where
  failure : (scan limit (insertLine i line text)).failure = none
  lines : (scan limit text).lines.map (·.renumber (shift i)) =
    ((scan limit (insertLine i line text)).lines.filter (·.number ≠ i + 1)).map (·.renumber id)
  warnings : (scan limit text).warnings.map (·.renumber (shift i)) =
    (scan limit (insertLine i line text)).warnings.map (·.renumber id)

end Text

/-- The reader stands at the depth of the last line. -/
theorem Reader.depth_readAll {limit : Nat} {r : Reader} {ps : List Piece}
    (h : (r.readAll limit ps).failure = none) :
    (r.readAll limit ps).reader.depth =
      ((r.readAll limit ps).lines.getLast?.map (·.depth)).getD r.depth := by
  induction ps generalizing r with
  | nil => rfl
  | cons p ps ih =>
    rw [readAll] at h ⊢
    cases outcome : (r.read limit p).outcome with
    | error failure => simp [outcome] at h
    | ok line =>
      rw [outcome] at h
      have stands : (r.read limit p).reader.depth = (line.map (·.depth)).getD r.depth := by
        cases written' : p.isWritten with
        | false =>
          rw [read_of_blank written'] at outcome ⊢
          obtain rfl := Except.ok.inj outcome
          rfl
        | true =>
          rw [read_of_written written'] at outcome ⊢
          simp only at outcome ⊢
          split at outcome
          · cases outcome
          · next shallow =>
            obtain rfl := Except.ok.inj outcome
            rw [if_neg shallow]
            rfl
      simp only
      rw [ih h, stands]
      cases line with
      | none => rfl
      | some l =>
        cases last : ((r.read limit p).reader.readAll limit ps).lines.getLast? <;>
          simp [List.getLast?_cons, last]

namespace Text.Inserted

variable {limit i : Nat} {text : String} {c : Comment} {before after after' : List Piece}
  {new : Piece} (h : Inserted i c.chars text before new after after')
  (read : (scan limit text).failure = none)

include h read

/-- The lines in front of the comment are read without failure. -/
theorem failure_before : (({} : Reader).readAll limit before).failure = none := by
  rw [scan, h.whole, Reader.failure_append] at read
  exact (Option.or_eq_none_iff.1 read).1

theorem scan_eq :
    scan limit text = (({} : Reader).readAll limit before).followedBy
      ((({} : Reader).readAll limit before).reader.readAll limit after) := by
  rw [scan, h.whole, Reader.readAll_append (h.failure_before read)]

theorem scan_insertLine :
    scan limit (insertLine i c.chars text) = (({} : Reader).readAll limit before).followedBy
      ((({} : Reader).readAll limit before).reader.readAll limit (new :: after')) := by
  rw [scan, h.inserted, Reader.readAll_append (h.failure_before read)]

omit read in
/-- The next written line is the first one behind the comment. -/
theorem find?_eq_head? :
    (written (pieces text.toList)).find? (i < ·.number) = (written after).head? := by
  have first : (written before).find? (i < ·.number) = none := by
    refine List.find?_eq_none.2 fun p hp => ?_
    have := h.first p (List.mem_of_mem_filter hp)
    simpa using this
  rw [h.whole, written_append, List.find?_append, first, Option.none_or]
  cases rest : written after with
  | nil => rfl
  | cons p ps =>
    have mem : p ∈ written after := rest ▸ List.mem_cons_self ..
    rw [List.find?_cons_of_pos (by simpa using h.last p (List.mem_of_mem_filter mem))]
    rfl

section Reader

variable {r : Reader} (hr : (({} : Reader).readAll limit before).reader = r)

include hr

theorem unitOf_eq : unitOf text = r.unit.or (unit? (written after)) := by
  rw [← hr, Reader.unit_readAll (h.failure_before read), unitOf, h.whole, written_append,
    unit?_append]
  rfl

theorem unitOf_insertLine :
    unitOf (insertLine i c.chars text) = r.unit.or (unit? (new :: written after)) := by
  have keep : written (new :: after') = new :: written after' :=
    List.filter_cons_of_pos (Comment.isWritten h.chars)
  rw [← hr, Reader.unit_readAll (h.failure_before read), unitOf, h.inserted, written_append,
    unit?_append, keep, unit?_cons, unit?_cons, unit?_of_alike (alike_written h.alike')]
  rfl

theorem depthAt_eq : depthAt limit i text = r.depth := by
  have first : (({} : Reader).readAll limit before).lines.filter (·.number ≤ i) =
      (({} : Reader).readAll limit before).lines := by
    refine List.filter_eq_self.2 fun l hl => ?_
    obtain ⟨p, hp, eq⟩ := Reader.exists_number_of_mem_lines hl
    simpa [← eq] using h.first p hp
  have rest : ((({} : Reader).readAll limit before).reader.readAll limit after).lines.filter
      (·.number ≤ i) = [] := by
    refine List.filter_eq_nil_iff.2 fun l hl => ?_
    obtain ⟨p, hp, eq⟩ := Reader.exists_number_of_mem_lines hl
    simpa [← eq] using h.last p hp
  rw [depthAt, h.scan_eq read, ← hr]
  simp only [Scan.followedBy, List.filter_append, first, rest, List.append_nil]
  exact (Reader.depth_readAll (h.failure_before read)).symm

/-- A comment fits when the reader behind it and the one in front of it agree on what follows. -/
theorem fits_iff (depth : Nat) :
    c.Fits limit i text depth ↔
      new.depth? (r.unitAfter new) = some depth ∧ depth ≤ limit ∧
        r.Agree ⟨r.unitAfter new, depth⟩ (written after) := by
  have own : IndentUnit.depth? (unitOf (insertLine i c.chars text)) c.indent =
      new.depth? (r.unitAfter new) := by
    rw [h.unitOf_insertLine read hr, ← (r.depth?_unitAfter new (written after)).1, Piece.depth?,
      h.chars, c.indentation_chars]
  have units : (unitOf text = none ∨ unitOf (insertLine i c.chars text) = unitOf text) ↔
      (r.unit = r.unitAfter new ∨ r.unit = none ∧
        (unit? (written after) = none ∨ unit? (written after) = r.unitAfter new)) := by
    rw [h.unitOf_insertLine read hr, h.unitOf_eq read hr, unit?_cons, Reader.unitAfter]
    cases r.unit <;> cases IndentUnit.shownBy? (indentation new.chars) <;>
      cases unit? (written after) <;> simp [eq_comm]
  have next : (∀ p, (written (pieces text.toList)).find? (i < ·.number) = some p →
        p.depth? (unitOf text) ≠ none) ↔
      ∀ p, (written after).head? = some p → p.depth? (r.unitAfter p) ≠ none := by
    rw [h.find?_eq_head?, h.unitOf_eq read hr]
    cases rest : written after with
    | nil => simp
    | cons p ps => simp [(r.depth?_unitAfter p ps).1]
  constructor
  · intro fits
    refine ⟨own ▸ fits.indented, fits.shallow, units.1 fits.unit, ?_⟩
    rw [← h.depthAt_eq read hr, ← next]
    exact fits.next
  · rintro ⟨indented, shallow, agree⟩
    refine ⟨own ▸ indented, shallow, units.2 agree.unit, ?_⟩
    rw [h.depthAt_eq read hr, next]
    exact agree.depth

/-- The lines in front of the comment are read as they were. -/
theorem unchanged_iff_rest :
    Unchanged limit i c.chars text ↔
      (r.readAll limit (new :: after')).failure = none ∧
      (r.readAll limit after).lines.map (·.renumber (shift i)) =
        ((r.readAll limit (new :: after')).lines.filter (·.number ≠ i + 1)).map (·.renumber id) ∧
      (r.readAll limit after).warnings.map (·.renumber (shift i)) =
        (r.readAll limit (new :: after')).warnings.map (·.renumber id) := by
  have same : Scan.Alike (shift i) limit (({} : Reader).readAll limit before)
      (({} : Reader).readAll limit before) := by
    rw [← Reader.readAll_written]
    exact Reader.alike_readAll (alike_written h.alike) (fun p => isWritten_of_mem_written)
      (.refl _ _)
  have others : (({} : Reader).readAll limit before).lines.filter (·.number ≠ i + 1) =
      (({} : Reader).readAll limit before).lines := by
    refine List.filter_eq_self.2 fun l hl => ?_
    obtain ⟨p, hp, eq⟩ := Reader.exists_number_of_mem_lines hl
    have low := h.first p hp
    exact decide_eq_true (by omega)
  have scanned := h.scan_eq read
  have scanned' := h.scan_insertLine read
  rw [hr] at scanned scanned'
  constructor
  · rintro ⟨failure, lines, warnings⟩
    rw [scanned'] at failure lines warnings
    rw [scanned] at lines warnings
    simp only [Scan.followedBy, List.map_append, List.filter_append, others, same.lines,
      same.warnings, List.append_cancel_left_eq] at failure lines warnings
    exact ⟨failure, lines, warnings⟩
  · rintro ⟨failure, lines, warnings⟩
    constructor
    · rw [scanned']
      exact failure
    · rw [scanned, scanned']
      simp only [Scan.followedBy, List.map_append, List.filter_append, others, same.lines, lines]
    · rw [scanned, scanned']
      simp only [Scan.followedBy, List.map_append, same.warnings, warnings]

/-- The comment leaves the others as they are when they are read alike behind it. -/
theorem unchanged_iff (hi : i ≤ (lines text).length) (bound : r.depth ≤ limit) :
    Unchanged limit i c.chars text ↔
      ∃ depth ≤ limit, new.depth? (r.unitAfter new) = some depth ∧
        (r.readAll limit (written after)).Alike (shift i) limit
          (Reader.readAll limit ⟨r.unitAfter new, depth⟩ (written after')) := by
  have failure : (r.readAll limit after).failure = none := by
    rwa [h.scan_eq read, hr] at read
  have others (r' : Reader) :
      (r'.readAll limit after').lines.filter (·.number ≠ i + 1) =
        (r'.readAll limit after').lines := by
    refine List.filter_eq_self.2 fun l hl => ?_
    obtain ⟨q, hq, eq⟩ := Reader.exists_number_of_mem_lines hl
    obtain ⟨p, hp, shifted⟩ := List.mem_map.1
      (map_number_of_alike h.alike' ▸ List.mem_map_of_mem hq)
    have high := h.last p hp
    rw [shift, if_neg (by omega)] at shifted
    exact decide_eq_true (by omega)
  have drop (depth : Nat) (ls : List Line) :
      (Line.ofPiece new depth :: ls).filter (·.number ≠ i + 1) = ls.filter (·.number ≠ i + 1) := by
    have number : (Line.ofPiece new depth).number = i + 1 := by
      rw [← List.length_take_of_le hi]
      exact h.number
    exact List.filter_cons_of_neg (by simp [number])
  rw [h.unchanged_iff_rest read hr]
  constructor
  · rintro ⟨failure', lines, warnings⟩
    cases measured : new.depth? (r.unitAfter new) with
    | none =>
      obtain ⟨x, warned⟩ := Comment.readAll_of_none h.chars measured bound after'
      have alike : Scan.Alike (shift i) limit (r.readAll limit (written after))
          (r.readAll limit (written after')) :=
        Reader.alike_readAll (alike_written h.alike') (fun p => isWritten_of_mem_written)
          (.refl r _)
      rw [Reader.readAll_written, Reader.readAll_written] at alike
      have length := congrArg List.length warnings
      rw [alike.warnings, warned] at length
      simp at length
    | some depth =>
      have shallow : depth ≤ limit := Nat.not_lt.1 fun deep =>
        Comment.failure_of_some h.chars measured deep after' failure'
      rw [Comment.readAll_of_some h.chars measured shallow] at failure' lines warnings
      rw [drop, others] at lines
      refine ⟨depth, shallow, rfl, ?_⟩
      rw [Reader.readAll_written, Reader.readAll_written]
      refine ⟨lines, warnings, ?_⟩
      rw [failure, failure']
      exact .none
  · rintro ⟨depth, shallow, measured, alike⟩
    rw [Reader.readAll_written, Reader.readAll_written] at alike
    rw [Comment.readAll_of_some h.chars measured shallow]
    refine ⟨alike.failure_eq_none.1 failure, ?_, alike.warnings⟩
    rw [drop, others]
    exact alike.lines

end Reader

end Text.Inserted

/-! ## Comments that change nothing -/

/-- The comments that fit are those that leave the other lines as they are. -/
theorem Text.Comment.fits_iff_unchanged {limit i : Nat} {text : String}
    (read : (scan limit text).failure = none) (hi : i ≤ (lines text).length) (c : Comment) :
    (∃ depth, c.Fits limit i text depth) ↔ Unchanged limit i c.chars text := by
  obtain ⟨before, new, after, after', h⟩ := exists_inserted c.newline_notMem_chars i text
  obtain ⟨r, hr⟩ : ∃ r, (({} : Reader).readAll limit before).reader = r := ⟨_, rfl⟩
  have bound : r.depth ≤ limit := by
    rw [← hr, Reader.depth_readAll (h.failure_before read)]
    cases last : (({} : Reader).readAll limit before).lines.getLast? with
    | none => exact Nat.zero_le limit
    | some l =>
      exact (Reader.isTwoPass_readAll before {} (Nat.zero_le limit)).bounded l
        (List.mem_of_getLast? last)
  have failure : (r.readAll limit (written after)).failure = none := by
    rw [h.scan_eq read, hr] at read
    rwa [Reader.readAll_written]
  have numbers : ((written after).map (·.number)).Nodup := by
    have all : ((pieces text.toList).map (·.number)).Pairwise (· < ·) :=
      pairwise_numberPieces 1 0 _
    rw [h.whole, List.map_append] at all
    have rest := (List.pairwise_append.1 all).2.1
    exact (rest.sublist (List.filter_sublist.map _)).imp Nat.ne_of_lt
  have twice (ps : List Piece) : written (written ps) = written ps :=
    List.filter_eq_self.2 fun p => isWritten_of_mem_written
  have known : r.unit = r.unitAfter new ∨ r.unit = none := by
    rw [Reader.unitAfter]
    cases r.unit <;> simp
  rw [h.unchanged_iff read hr hi bound]
  refine exists_congr fun depth => ?_
  rw [h.fits_iff read hr, and_left_comm]
  refine and_congr_right fun shallow => and_congr_right fun _ => ?_
  exact Reader.agree_iff_alike (strictMono_shift i).injective numbers (twice after) (twice after')
    bound shallow (alike_written h.alike') failure known

/-- The line that stands where the comment has been put in is the comment. -/
theorem Text.Comment.kind_of_number {limit i : Nat} {text : String} (c : Comment)
    (hi : i ≤ (lines text).length) (read : (scan limit (insertLine i c.chars text)).failure = none)
    {l : Line} (hl : l ∈ (scan limit (insertLine i c.chars text)).lines)
    (number : l.number = i + 1) : l.kind = .comment := by
  obtain ⟨before, new, after, after', h⟩ := exists_inserted c.newline_notMem_chars i text
  obtain ⟨p, hp, eq⟩ := (scan_isTwoPass limit _).exists_piece read hl
  have numbers : ((pieces (insertLine i c.chars text).toList).map (·.number)).Nodup :=
    (pairwise_numberPieces 1 0 _).imp Nat.ne_of_lt
  have own : p.number = new.number := by
    rw [h.number, List.length_take_of_le hi, ← number, eq]
    rfl
  obtain rfl : p = new := by
    refine List.inj_on_of_nodup_map numbers (List.mem_of_mem_filter hp) ?_ own
    simp [h.inserted]
  rw [eq]
  exact c.kind_ofPiece h.chars _

end Swimlane
