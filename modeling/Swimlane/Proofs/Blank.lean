import Swimlane.Proofs.Indentation
import Swimlane.Proofs.Source.Lines

/-!
# Blank space around lines

Blank characters at the end of a line and blank lines say nothing. A text that is laid out with more
of them is read as the same graph, under the numbers that its lines have then.

## Main definitions

* `Text.Edit`: blank characters behind a line, or a blank line;
* `Text.edited`, `Text.renumbering`: a text after some edits, and the numbers of its lines then;
* `ProcessGraph.SameResult`: results that are the same but for positions.

## Main statements

* `Text.Edit.alike_apply`: an edit leaves the written lines as they are;
* `ProcessGraph.ofText_edited`: a text and the edited one are read alike.
-/

namespace Swimlane

namespace Text

/-! ## Blank characters at the end of a line -/

/-- Only a blank line is indented by what stands at its end. -/
theorem indentation_append_blank {cs bs : List Char} (h : trim cs ≠ []) :
    indentation (cs ++ bs) = indentation cs := by
  unfold indentation
  rw [List.takeWhile_append]
  refine if_neg fun whole => h ?_
  have all : cs.takeWhile isBlank = cs :=
    (List.takeWhile_prefix isBlank).eq_of_length whole
  have dropped : cs.dropWhile isBlank = [] :=
    List.dropWhile_eq_nil_iff.2 (List.takeWhile_eq_self_iff.1 all)
  rw [trim, trimLeft, dropped]
  rfl

/-! ## Texts with the same written lines -/

/-- Texts with the same written lines, under other numbers. -/
def SameLines (f : Nat → Nat) (text text' : String) : Prop :=
  List.Forall₂ (Piece.Alike f) (written (pieces text.toList)) (written (pieces text'.toList))

theorem Piece.Alike.trans {f g : Nat → Nat} {p q r : Piece} (h : p.Alike f q) (h' : q.Alike g r) :
    p.Alike (g ∘ f) r where
  number := by rw [Function.comp_apply, h.number, h'.number]
  indentation := h.indentation.trans h'.indentation
  text := h.text.trans h'.text

theorem SameLines.refl (text : String) : SameLines id text text :=
  List.forall₂_same.2 fun _ _ => ⟨rfl, rfl, rfl⟩

theorem SameLines.trans {f g : Nat → Nat} {text text' text'' : String}
    (h : SameLines f text text') (h' : SameLines g text' text'') :
    SameLines (g ∘ f) text text'' := by
  unfold SameLines at *
  generalize written (pieces text.toList) = ps at *
  generalize written (pieces text'.toList) = qs at *
  generalize written (pieces text''.toList) = rs at *
  induction h generalizing rs with
  | nil =>
    cases h'
    exact .nil
  | cons first _ ih =>
    cases h' with
    | cons second rest => exact .cons (first.trans second) (ih _ rest)

/-! ## Edits -/

/-- Blank characters within one line. -/
structure Blanks where
  chars : List Char
  blank : ∀ c ∈ chars, isBlank c = true
  oneLine : '\n' ∉ chars

/-- A change in the layout of a text. -/
inductive Edit where
  /-- Blank characters are put behind the line that follows the first `line` ones. -/
  | pad (line : Nat) (blanks : Blanks)
  /-- A blank line is put behind the first `line` ones. -/
  | insert (line : Nat) (blanks : Blanks)

namespace Edit

def apply : Edit → String → String
  | .pad line blanks, text => ofLines ((lines text).modify line (· ++ blanks.chars))
  | .insert line blanks, text => insertLine line blanks.chars text

/-- The number of a line after the edit. -/
def renumber : Edit → Nat → Nat
  | .pad .. => id
  | .insert line _ => shift line

theorem strictMono_renumber (e : Edit) : StrictMono e.renumber := by
  cases e with
  | pad line blanks => exact strictMono_id
  | insert line blanks => exact strictMono_shift line

theorem alike_pad (blanks : Blanks) (number offset offset' line : Nat) (ls : List (List Char)) :
    List.Forall₂ (fun p q => p.isWritten = q.isWritten ∧ (p.isWritten = true → p.Alike id q))
      (numberPieces number offset ls)
      (numberPieces number offset' (ls.modify line (· ++ blanks.chars))) := by
  induction ls generalizing number offset offset' line with
  | nil => simp [numberPieces]
  | cons l ls ih =>
    cases line with
    | zero =>
      have text := trim_append_blank blanks.blank l
      refine .cons ⟨by simp [Piece.isWritten, text], fun hl => ⟨rfl, ?_, text.symm⟩⟩ ?_
      · have filled : trim l ≠ [] := by simpa [Piece.isWritten] using hl
        exact (indentation_append_blank filled).symm
      · exact (alike_numberPieces _ _ ls fun _ _ => rfl).imp fun p q alike =>
          ⟨alike.isWritten, fun _ => alike⟩
    | succ line => exact .cons ⟨rfl, fun _ => ⟨rfl, rfl, rfl⟩⟩ (ih _ _ _ line)

/-- An edit leaves the written lines as they are. -/
theorem alike_apply (e : Edit) (text : String) : SameLines e.renumber text (e.apply text) := by
  cases e with
  | pad line blanks =>
    have padded : lines (apply (.pad line blanks) text) =
        (lines text).modify line (· ++ blanks.chars) := by
      refine lines_ofLines (by simp [lines_ne_nil]) fun l hl => ?_
      obtain ⟨k, hk, rfl⟩ := List.mem_iff_getElem.1 hl
      rw [List.getElem_modify]
      have oneLine := newline_notMem_lines (List.getElem_mem (l := lines text) (by simpa using hk))
      split
      · exact fun newline => (List.mem_append.1 newline).elim oneLine blanks.oneLine
      · exact oneLine
    refine alike_written_of_isWritten ?_
    have alike := alike_pad blanks 1 0 0 line (lines text)
    rw [← padded] at alike
    exact alike
  | insert line blanks =>
    obtain ⟨before, new, after, after', h⟩ := exists_inserted blanks.oneLine line text
    have blank : trim new.chars = [] := h.chars ▸ trim_append_blank blanks.blank []
    have skip : written (new :: after') = written after' :=
      List.filter_cons_of_neg (by simp [Piece.isWritten, blank])
    show List.Forall₂ _ (written (pieces _)) (written (pieces (insertLine _ _ _).toList))
    rw [h.whole, h.inserted, written_append, written_append, skip]
    exact List.rel_append (alike_written h.alike) (alike_written h.alike')

end Edit

/-- A text after some edits, each of which finds the text that the ones before it have left. -/
def edited (edits : List Edit) (text : String) : String :=
  edits.foldl (fun text e => e.apply text) text

/-- The number of a line after some edits. -/
def renumbering (edits : List Edit) (number : Nat) : Nat :=
  edits.foldl (fun number e => e.renumber number) number

theorem strictMono_renumbering (edits : List Edit) : StrictMono (renumbering edits) := by
  induction edits with
  | nil => exact strictMono_id
  | cons e edits ih => exact ih.comp e.strictMono_renumber

theorem sameLines_edited (edits : List Edit) (text : String) :
    SameLines (renumbering edits) text (edited edits text) := by
  induction edits generalizing text with
  | nil => exact .refl text
  | cons e edits ih => exact (e.alike_apply text).trans (ih (e.apply text))

end Text

/-! ## Graphs -/

namespace ProcessGraph

/-- Results that are the same but for positions: graphs that are equal when the lines of the first
one get their new numbers and spans are forgotten, or failures at the same line. -/
inductive SameResult (f : Nat → Nat) (limit : Nat) :
    Except Failure ProcessGraph → Except Failure ProcessGraph → Prop
  | graph {g g' : ProcessGraph} (same : g.renumber f = g'.renumber id) :
      SameResult f limit (.ok g) (.ok g')
  | failure {x y : Failure} (alike : x.Alike f limit y) : SameResult f limit (.error x) (.error y)

/-- Scans that are alike lead to the same result. -/
theorem sameResult_of_alike {f : Nat → Nat} (hf : StrictMono f) {options : ReadOptions}
    {text text' : String}
    (h : (scan options.maxDepth text).Alike f options.maxDepth (scan options.maxDepth text')) :
    SameResult f options.maxDepth (ofText options text) (ofText options text') := by
  cases result : ofText options text with
  | ok g =>
    have read := exists_ofText_eq_ok.1 ⟨g, result⟩
    obtain ⟨g', result'⟩ := exists_ofText_eq_ok.2 (h.failure_eq_none.1 read)
    rw [result']
    exact .graph (ofText_renumber hf result result' h.lines h.warnings)
  | error x =>
    have fails := h.failure
    rw [ofText_eq_error.1 result] at fails
    obtain ⟨y, failed, alike⟩ : ∃ y, (scan options.maxDepth text').failure = some y ∧
        x.Alike f options.maxDepth y := by
      cases failed : (scan options.maxDepth text').failure <;> simp_all
    rw [ofText_eq_error.2 failed]
    exact .failure alike

/-- A text that is edited any number of times, by blank characters at the ends of its lines (such as
the carriage returns of another line ending) or by blank lines anywhere, is read exactly when the
text itself is. The two graphs are the same, but that lines have the numbers which they got by the
edits. These keep their order. -/
theorem ofText_edited (options : ReadOptions) (text : String) (edits : List Text.Edit) :
    StrictMono (Text.renumbering edits) ∧
      SameResult (Text.renumbering edits) options.maxDepth (ofText options text)
        (ofText options (Text.edited edits text)) :=
  ⟨Text.strictMono_renumbering edits, sameResult_of_alike (Text.strictMono_renumbering edits)
    (Text.alike_scan (Text.sameLines_edited edits text) options.maxDepth)⟩

/-- A carriage return behind the first line, and then a blank line behind it. -/
example :
    let edits := [.pad 0 ⟨['\r'], List.all_eq_true.1 rfl, by decide⟩,
      .insert 1 ⟨[' '], List.all_eq_true.1 rfl, by decide⟩]
    Text.edited edits "a\nb" = "a\r\n \nb" ∧ Text.renumbering edits 2 = 3 := by
  decide +kernel

end ProcessGraph

end Swimlane
