import Swimlane.Diagram
import Swimlane.Proofs.Identifier
import Swimlane.Proofs.Outline.OneLine

/-!
# The lines of a diagram

A line of a diagram can be read back. Ids consist of other characters than the marks behind them,
and they are no keywords, since there is an underscore in each of them. Labels stand between quotes,
and no quote is left in them. So no label can be taken for the end of itself, nor for a line of
another form.

## Main definitions

* `DiagramLine.Fits`: ids are well-formed and texts have no newlines;
* `DiagramLine.shown`: what can be seen of a line;
* `DiagramLine.read`: reads a line.

## Main statements

* `DiagramLine.oneLine_text`: a line that fits is one line;
* `DiagramLine.read_text`: it is read as what it shows.
-/

namespace Swimlane

open Text (OneLine)
open Identifier (IsWellFormed)

/-! ## Labels -/

theorem quote_notMem_escapeLabel (text : String) : '"' ∉ (escapeLabel text).toList := by
  simp only [escapeLabel, String.toList_ofList, List.mem_flatMap, not_exists, not_and]
  intro c _ quote
  split at quote
  · exact absurd quote (by decide)
  · next ne => exact ne (List.mem_singleton.1 quote).symm

theorem Text.OneLine.escapeLabel {text : String} (h : OneLine text) :
    OneLine (escapeLabel text) := by
  simp only [OneLine, Swimlane.escapeLabel, String.toList_ofList, List.mem_flatMap, not_exists,
    not_and]
  intro c hc newline
  split at newline
  · exact absurd newline (by decide)
  · exact h (List.mem_singleton.1 newline ▸ hc)

/-! ## Titles -/

theorem Text.OneLine.titleScalar {text : String} (h : OneLine text) :
    OneLine (titleScalar text) := by
  unfold OneLine at h ⊢
  rw [Swimlane.titleScalar, String.toList_ofList, Title.write]
  split
  · exact h
  · simp only [Title.quote, List.mem_append, List.mem_cons, List.mem_flatMap]
    grind [Title.escape]

namespace Title

theorem quote_notMem_of_isPlain {cs : List Char} (h : isPlain cs = true) : '"' ∉ cs := by
  intro quote
  have plain : isPlainChar '"' = true := by
    simp only [isPlain, Bool.and_eq_true, List.all_eq_true] at h
    exact h.1.1.1 _ quote
  exact absurd plain (by decide +kernel)

theorem flatMap_escape_injective : Function.Injective (List.flatMap escape) := by
  intro cs ds h
  induction cs generalizing ds with
  | nil => cases ds <;> grind [escape]
  | cons c cs ih => cases ds <;> grind [escape]

/-- Titles can be told apart as they are written. -/
theorem write_injective : Function.Injective write := by
  have ne {cs ds : List Char} (plain : isPlain cs = true) : cs ≠ quote ds := by
    rintro rfl
    exact quote_notMem_of_isPlain plain (by simp [quote])
  intro cs ds h
  unfold write at h
  split at h <;> split at h
  · exact h
  · next plain _ => exact absurd h (ne plain)
  · next plain => exact absurd h.symm (ne plain)
  · exact flatMap_escape_injective (by simpa [quote] using h)

end Title

theorem titleScalar_injective : Function.Injective titleScalar := by
  intro a b h
  exact String.toList_injective (Title.write_injective (String.ofList_injective h))

namespace DiagramLine

/-! ## Lines that fit -/

/-- The ids of a line are well-formed, and its texts have no newlines. -/
def Fits : DiagramLine → Prop
  | .fence | .flowchart _ | .laneEnd => True
  | .title name => OneLine name
  | .classDef name body => OneLine name ∧ OneLine body
  | .laneStart id name => IsWellFormed id ∧ OneLine name
  | .node id _ label className =>
    IsWellFormed id ∧ OneLine label ∧ ∀ name, className = some name → OneLine name
  | .edge _ source target label =>
    IsWellFormed source ∧ IsWellFormed target ∧ ∀ name, label = some name → OneLine name
  | .noteLink target note => IsWellFormed target ∧ IsWellFormed note
  | .laneStyle id body => IsWellFormed id ∧ OneLine body

/-- The characters of ids. -/
def isIdChar (c : Char) : Bool := c.isLower || c.isDigit || c == '_'

theorem isIdChar_of_mem {id : String} (h : IsWellFormed id) {c : Char} (hc : c ∈ id.toList) :
    isIdChar c = true := by
  rcases h.snake.chars c hc with (lower | digit) | rfl
  · simp [isIdChar, lower]
  · simp [isIdChar, digit]
  · rfl

theorem notMem_id {id : String} (h : IsWellFormed id) {c : Char} (hc : isIdChar c = false) :
    c ∉ id.toList :=
  fun mem => absurd (isIdChar_of_mem h mem) (by simp [hc])

theorem oneLine_id {id : String} (h : IsWellFormed id) : OneLine id := notMem_id h rfl

theorem oneLine_link {kind : ConnectionKind} {label : Option String}
    (h : ∀ name, label = some name → OneLine name) : OneLine (link kind label) := by
  cases label with
  | none => cases kind <;> decide
  | some name => cases kind <;> simp +decide [link, quoted, (h name rfl).escapeLabel]

theorem oneLine_className {className : Option String}
    (h : ∀ name, className = some name → OneLine name) :
    OneLine ((className.map (":::" ++ ·)).getD "") := by
  cases className with
  | none => decide
  | some name => simp +decide [h name rfl]

/-- A line that fits is one line. -/
theorem oneLine_text {l : DiagramLine} (h : l.Fits) : OneLine l.text := by
  cases l with
  | fence | laneEnd => decide
  | flowchart direction => cases direction <;> decide
  | title name =>
    have scalar := Text.OneLine.titleScalar h
    exact Text.oneLine_append.2 ⟨by decide, scalar⟩
  | classDef name body => simp +decide [text, h.1, h.2]
  | laneStart id name => simp +decide [text, quoted, oneLine_id h.1, h.2.escapeLabel]
  | node id shape label className =>
    have marks : OneLine shape.opening ∧ OneLine shape.closing := by cases shape <;> decide
    simp +decide only [text, quoted, Text.oneLine_append, oneLine_id h.1, h.2.1.escapeLabel,
      oneLine_className h.2.2, marks, and_self]
  | edge kind source target label =>
    simp +decide [text, oneLine_id h.1, oneLine_id h.2.1, oneLine_link h.2.2]
  | noteLink target note => simp +decide [text, oneLine_id h.1, oneLine_id h.2]
  | laneStyle id body => simp +decide [text, oneLine_id h.1, h.2]

/-! ## Reading lines -/

/-- The shape with an opening. -/
def shape? (opening : List Char) : Option Shape :=
  [.box, .diamond, .flag, .circle, .doubleCircle, .slanted].find? fun shape =>
    shape.opening.toList = opening

@[simp] theorem shape?_opening (shape : Shape) : shape? shape.opening.toList = some shape := by
  cases shape <;> rfl

theorem quote_notMem_opening (shape : Shape) : '"' ∉ shape.opening.toList := by
  cases shape <;> decide

def readClass : List Char → Option String
  | ':' :: ':' :: ':' :: name => some (String.ofList name)
  | _ => none

/-- Reads what stands behind the margin of a node. -/
def readNode (cs : List Char) : Option DiagramLine :=
  let (id, cs) := cs.span isIdChar
  let (opening, cs) := cs.span (· != '"')
  let (label, cs) := cs.tail.span (· != '"')
  (shape? opening).map fun shape =>
    .node (.ofList id) shape (.ofList label)
      (readClass (cs.tail.drop shape.closing.toList.length))

/-- Reads what stands behind the keyword of a lane. -/
def readLane (cs : List Char) : DiagramLine :=
  let (id, cs) := cs.span isIdChar
  .laneStart (.ofList id) (.ofList ((cs.drop 2).span (· != '"')).1)

def readStyle (cs : List Char) : DiagramLine :=
  let (id, cs) := cs.span isIdChar
  .laneStyle (.ofList id) (.ofList cs.tail)

/-- Reads the label and the target of an edge. -/
def readTarget (kind : ConnectionKind) (source : List Char) : List Char → DiagramLine
  | '|' :: '"' :: cs =>
    let (label, cs) := cs.span (· != '"')
    .edge kind (.ofList source) (.ofList (cs.drop 3)) (some (.ofList label))
  | cs => .edge kind (.ofList source) (.ofList cs.tail) none

/-- Reads what stands behind the source of an edge. -/
def readEdge (source : List Char) : List Char → Option DiagramLine
  | '-' :: '-' :: '>' :: cs => some (readTarget .sequenceFlow source cs)
  | '-' :: '.' :: '-' :: '>' :: cs => some (readTarget .messageFlow source cs)
  | '-' :: '.' :: '-' :: cs => some (readTarget .dataAssociation source cs)
  | _ => none

/-- Reads what stands behind the margin of a line that is no node. -/
def readWord (cs : List Char) : Option DiagramLine :=
  let (word, cs) := cs.span (· != ' ')
  if word = "end".toList then some .laneEnd
  else if word = "subgraph".toList then some (readLane cs.tail)
  else if word = "style".toList then some (readStyle cs.tail)
  else readEdge word cs.tail

/-- Reads a line behind the style classes. -/
def read (cs : List Char) : Option DiagramLine :=
  let (margin, cs) := cs.span (· == ' ')
  if margin.length = 4 then readNode cs else readWord cs

/-- What can be seen of a line: labels are escaped, data associations have none, and the links of
notes are drawn in the same way as data associations. -/
def shown : DiagramLine → DiagramLine
  | .laneStart id name => .laneStart id (escapeLabel name)
  | .node id shape label className => .node id shape (escapeLabel label) className
  | .edge .dataAssociation source target _ => .edge .dataAssociation source target none
  | .edge kind source target label => .edge kind source target (label.map escapeLabel)
  | .noteLink target note => .edge .dataAssociation target note none
  | l => l

/-- A part is cut off where the rest cannot extend it. -/
theorem span_append {α : Type} {p : α → Bool} {w rest : List α} (hw : ∀ c ∈ w, p c = true)
    (hr : ∀ c ∈ rest.head?, p c = false) : (w ++ rest).span p = (w, rest) := by
  rw [List.span_eq_takeWhile_dropWhile, List.takeWhile_append_of_pos hw,
    List.dropWhile_append_of_pos hw]
  cases rest with
  | nil => simp
  | cons c rest => simp [hr c rfl]

/-- A part without a mark is cut off at the mark. -/
theorem span_mark {α : Type} [DecidableEq α] {w : List α} {mark : α} (hw : mark ∉ w)
    (rest : List α) : (w ++ mark :: rest).span (· != mark) = (w, mark :: rest) := by
  refine span_append (fun c hc => ?_) (by simp)
  grind

theorem span_id {id : String} (h : IsWellFormed id) {rest : List Char}
    (hr : ∀ c ∈ rest.head?, isIdChar c = false) :
    (id.toList ++ rest).span isIdChar = (id.toList, rest) :=
  span_append (fun _ hc => isIdChar_of_mem h hc) hr

theorem span_id_cons {id : String} (h : IsWellFormed id) {c : Char} (hc : isIdChar c = false)
    (rest : List Char) : (id.toList ++ c :: rest).span isIdChar = (id.toList, c :: rest) :=
  span_id h (by rintro d ⟨⟩; exact hc)

theorem span_label (label : String) (rest : List Char) :
    ((escapeLabel label).toList ++ '"' :: rest).span (· != '"') =
      ((escapeLabel label).toList, '"' :: rest) :=
  span_mark (quote_notMem_escapeLabel label) rest

theorem readClass_className (className : Option String) :
    readClass ((className.map (":::" ++ ·)).getD "").toList = className := by
  cases className <;> simp [readClass]

theorem readNode_node {id : String} (h : IsWellFormed id) (shape : Shape) (label : String)
    (className : Option String) :
    readNode (id.toList ++ (shape.opening.toList ++ '"' :: ((escapeLabel label).toList ++
      '"' :: (shape.closing.toList ++ ((className.map (":::" ++ ·)).getD "").toList)))) =
      some (.node id shape (escapeLabel label) className) := by
  have behind (rest) : ∀ c ∈ (shape.opening.toList ++ '"' :: rest).head?, isIdChar c = false := by
    cases shape <;> simp [Shape.opening, isIdChar]
  simp only [readNode, span_id h (behind _), span_mark (quote_notMem_opening shape),
    List.tail_cons, span_label, shape?_opening, Option.map_some, List.drop_left,
    readClass_className, String.ofList_toList]

theorem readLane_laneStart {id : String} (h : IsWellFormed id) (name : String) :
    readLane (id.toList ++ '[' :: '"' :: ((escapeLabel name).toList ++ ['"', ']'])) =
      .laneStart id (escapeLabel name) := by
  simp only [readLane, span_id_cons h (c := '[') rfl, List.drop_succ_cons, List.drop_zero,
    span_label, String.ofList_toList]

theorem readStyle_laneStyle {id : String} (h : IsWellFormed id) (body : String) :
    readStyle (id.toList ++ ' ' :: body.toList) = .laneStyle id body := by
  simp only [readStyle, span_id_cons h (c := ' ') rfl, List.tail_cons, String.ofList_toList]

theorem readTarget_label (kind : ConnectionKind) (source target label : String) :
    readTarget kind source.toList
      ('|' :: '"' :: ((escapeLabel label).toList ++ '"' :: '|' :: ' ' :: target.toList)) =
      .edge kind source target (some (escapeLabel label)) := by
  simp only [readTarget, span_label, List.drop_succ_cons, List.drop_zero, String.ofList_toList]

theorem readEdge_edge (kind : ConnectionKind) (source target : String) (label : Option String) :
    readEdge source.toList ((link kind label).toList ++ ' ' :: target.toList) =
      some (edge kind source target label).shown := by
  cases kind <;> cases label <;>
    simp [link, quoted, readEdge, shown, readTarget_label] <;> simp [readTarget]

theorem readWord_id {id : String} (h : IsWellFormed id) (rest : List Char) :
    readWord (id.toList ++ ' ' :: rest) = readEdge id.toList rest := by
  have word := span_mark (notMem_id h (c := ' ') rfl) rest
  -- there is an underscore in `id`, and none in a keyword
  have ne (keyword : String) (hk : '_' ∉ keyword.toList) : id.toList ≠ keyword.toList :=
    fun eq => hk (eq ▸ h.underscore)
  simp only [readWord, word, if_neg (ne "end" (by decide)), if_neg (ne "subgraph" (by decide)),
    if_neg (ne "style" (by decide)), List.tail_cons]

theorem read_margin {id : String} (h : IsWellFormed id) (rest : List Char) {margin : List Char}
    (hm : ∀ c ∈ margin, c = ' ') :
    read (margin ++ (id.toList ++ rest)) =
      if margin.length = 4 then readNode (id.toList ++ rest) else readWord (id.toList ++ rest) := by
  have behind : ∀ c ∈ (id.toList ++ rest).head?, (c == ' ') = false := by
    intro c hc
    have hc : c ∈ id.toList := by
      cases chars : id.toList with
      | nil => exact absurd h.underscore (by simp [chars])
      | cons d more => simp_all
    have := notMem_id h (c := ' ') rfl
    grind
  simp only [read, span_append (p := (· == ' ')) (by simpa using hm) behind]

theorem read_node {id : String} (h : IsWellFormed id) (rest : List Char) :
    read (' ' :: ' ' :: ' ' :: ' ' :: (id.toList ++ rest)) = readNode (id.toList ++ rest) := by
  simpa using read_margin h rest (by simp : ∀ c ∈ [' ', ' ', ' ', ' '], c = ' ')

theorem read_edge {id : String} (h : IsWellFormed id) (rest : List Char) :
    read (' ' :: ' ' :: (id.toList ++ ' ' :: rest)) = readEdge id.toList rest := by
  rw [← readWord_id h]
  simpa using read_margin h (' ' :: rest) (by simp : ∀ c ∈ [' ', ' '], c = ' ')

/-- The lines behind the style classes. -/
def IsBody : DiagramLine → Prop
  | .laneStart .. | .node .. | .laneEnd | .edge .. | .noteLink .. | .laneStyle .. => True
  | _ => False

/-- A line that fits is read as what it shows. -/
theorem read_text {l : DiagramLine} (h : l.Fits) (body : l.IsBody) :
    read l.text.toList = some l.shown := by
  cases l with
  | fence | title | flowchart | classDef => exact body.elim
  | laneEnd => rfl
  | laneStart id name =>
    calc read (laneStart id name).text.toList
      _ = some (readLane
          (id.toList ++ '[' :: '"' :: ((escapeLabel name).toList ++ ['"', ']']))) := by
        simp [text, quoted, read, readWord]
      _ = some (laneStart id name).shown := by rw [readLane_laneStart h.1]; rfl
  | laneStyle id style =>
    calc read (laneStyle id style).text.toList
      _ = some (readStyle (id.toList ++ ' ' :: style.toList)) := by
        simp [text, read, readWord]
      _ = some (laneStyle id style).shown := by rw [readStyle_laneStyle h.1]; rfl
  | node id shape label className =>
    have := readNode_node h.1 shape label className
    simpa [text, quoted, shown, read_node h.1] using this
  | edge kind source target label =>
    have := readEdge_edge kind source target label
    simpa [text, quoted, read_edge h.1] using this
  | noteLink target note =>
    have := readEdge_edge .dataAssociation target note none
    simpa [text, link, shown, read_edge h.1] using this

end DiagramLine

end Swimlane
