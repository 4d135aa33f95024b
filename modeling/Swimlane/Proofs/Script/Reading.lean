import Swimlane.Proofs.Script.Basic
import Swimlane.Proofs.Source.Layout
import Swimlane.Proofs.Source.Sigil

/-!
# Reading scripts

A script that is written down is read as it was meant: each row becomes one line, of its depth, that
states what the row says. This asks for plain labels and for a unit of indentation that is not
empty. The unit itself need not be told to the reader, since the first row that is indented is
indented by one unit.

## Main statements

* `Row.ReadAs`: a line that says what a row says;
* `Script.scan_print`: the lines of a script that is written down.
-/

namespace Swimlane.Script

/-- The kind of line that an entry becomes. -/
def Entry.sigil : Entry → Sigil
  | .lane _ => .lane
  | .flowBreak => .connectionBreak
  | .leaf (.task _) => .task
  | .leaf (.message side _) => .message side
  | .leaf (.start _) => .startEvent
  | .leaf (.finish _) => .endEvent
  | .gateway _ => .gateway
  | .branch sign _ _ => .branch sign

/-- What an entry states. -/
def Entry.statement : Entry → Statement
  | .lane name => .lane name
  | .flowBreak => .flowBreak
  | .leaf l => .node l.kind l.label
  | .gateway label => .node (.gateway []) label
  | .branch sign label task => .branch sign label task

/-- A line that says what a row says, where the row says it. -/
structure Row.ReadAs (row : Row) (l : Line) : Prop where
  kind : l.kind = row.entry.sigil
  depth : l.depth = row.depth
  arrow : l.arrow = none
  statement : Statement.ofLine l = row.entry.statement

/-! ## Labels -/

section

variable {label : String}

theorem IsName.isTrimmed (h : IsName label) : Text.IsTrimmed label.toList :=
  Text.isTrimmed_iff.2 h.trimmed

theorem IsName.toList_ne_nil (h : IsName label) : label.toList ≠ [] := by
  intro nil
  exact h.ne_empty (String.toList_eq_nil_iff.1 nil)

theorem trim_space (h : IsName label) : Text.trim ([' '] ++ label.toList) = label.toList :=
  Text.trim_append (fun _ hc => List.mem_singleton.1 hc ▸ rfl) h.isTrimmed

theorem IsPlain.firstArrow (h : IsPlain label) : Arrow.firstArrow label.toList = none :=
  Arrow.firstArrow_eq_none h.forward h.backward

/-- A plain label starts with a character that is no sigil. -/
theorem IsPlain.exists_cons (h : IsPlain label) :
    ∃ c cs, label.toList = c :: cs ∧ Sigil.isPunctuation c = false := by
  obtain ⟨c, cs, hcs⟩ := List.exists_cons_of_ne_nil h.toList_ne_nil
  exact ⟨c, cs, hcs, h.punctuation c (by rw [hcs]; rfl)⟩

end

theorem ne_of_isPunctuation {c p : Char} (h : Sigil.isPunctuation c = false)
    (hp : Sigil.isPunctuation p = true) : c ≠ p := by
  rintro rfl
  simp [h] at hp

theorem ofChar?_eq_none {c : Char} (h : Sigil.isPunctuation c = false) :
    Sigil.ofChar? c = none := by
  unfold Sigil.ofChar?
  split
  all_goals first | rfl | exact absurd h (by decide)

/-! ## Entries -/

/-- What stands behind the sigil of an entry. -/
def Entry.payload : Entry → List Char
  | .lane name => name.toList
  | .flowBreak => []
  | .leaf l => l.label.toList
  | .gateway label => label.toList
  | .branch _ none task => task.toList
  | .branch _ (some label) task => '|' :: (label.toList ++ '|' :: ' ' :: task.toList)

/-- The kind of line before start events are told from end events. -/
def Entry.splitSigil : Entry → Sigil
  | .leaf (.start _) => .endEvent
  | e => e.sigil

theorem isTrimmed_barred {label task : String} (h : IsPlain task) :
    Text.IsTrimmed ('|' :: (label.toList ++ '|' :: ' ' :: task.toList)) := by
  have barred : Text.IsTrimmed (('|' :: (label.toList ++ ['|', ' '])) ++ task.toList) :=
    h.isTrimmed.append h.toList_ne_nil fun c hc => by cases hc; decide
  simpa using barred

theorem Entry.isTrimmed_chars {e : Entry} (h : e.IsPlain) : Text.IsTrimmed e.chars := by
  have behind {c : Char} {label : String} (hl : IsName label) (hc : Text.isBlank c = false) :
      Text.IsTrimmed ([c] ++ label.toList) :=
    hl.isTrimmed.append hl.toList_ne_nil fun c' hc' => by cases hc'; exact hc
  match e, h with
  | .lane name, h => exact behind h (by decide)
  | .flowBreak, _ => exact Text.isTrimmed_iff.2 (by decide)
  | .leaf (.task label), h => exact (IsPlain.toIsName h).isTrimmed
  | .leaf (.message side text), h =>
    have named : Text.IsTrimmed ((side.word ++ ": ").toList ++ text.toList) :=
      (IsPlain.toIsName h).isTrimmed.append (IsPlain.toIsName h).toList_ne_nil
        fun c hc => by cases side <;> cases hc <;> decide
    simpa [Entry.chars, Leaf.chars, Side.display] using named
  | .leaf (.start label), h => exact behind h.1.toIsName (by decide)
  | .leaf (.finish label), h => exact behind h.1.toIsName (by decide)
  | .gateway label, h => exact behind h.toIsName (by decide)
  | .branch sign none task, h => exact behind h.1.toIsName (by cases sign <;> decide)
  | .branch sign (some label) task, h =>
    have signed : Text.IsTrimmed
        ([signChar sign] ++ '|' :: (label.toList ++ '|' :: ' ' :: task.toList)) :=
      (isTrimmed_barred h.1).append (by simp) fun c hc => by
        cases hc
        cases sign <;> decide
    exact signed

theorem Entry.chars_ne_nil {e : Entry} (h : e.IsPlain) : e.chars ≠ [] := by
  match e, h with
  | .leaf (.task label), h => exact (IsPlain.toIsName h).toList_ne_nil
  | .leaf (.message side text), h =>
    cases side <;> simp [Entry.chars, Leaf.chars, Side.display, Side.word]
  | .lane name, _ | .flowBreak, _ | .leaf (.start label), _ | .leaf (.finish label), _
  | .gateway label, _ | .branch sign none task, _ | .branch sign (some label) task, _ =>
    exact List.cons_ne_nil _ _

theorem Entry.newline_not_mem {e : Entry} (h : e.IsPlain) : '\n' ∉ e.chars := by
  match e, h with
  | .lane name, h => simpa [Entry.chars] using h.oneLine
  | .flowBreak, _ => decide
  | .leaf (.task label), h => exact (IsPlain.toIsName h).oneLine
  | .leaf (.message side text), h =>
    cases side <;>
      simpa [Entry.chars, Leaf.chars, Side.display, Side.word] using (IsPlain.toIsName h).oneLine
  | .leaf (.start label), h => simpa [Entry.chars, Leaf.chars] using h.1.oneLine
  | .leaf (.finish label), h => simpa [Entry.chars, Leaf.chars] using h.1.oneLine
  | .gateway label, h => simpa [Entry.chars] using h.oneLine
  | .branch sign none task, h => cases sign <;> simpa [Entry.chars, signChar] using h.1.oneLine
  | .branch sign (some label) task, h =>
    have oneLine := (h.2 label rfl).1.oneLine
    cases sign <;> simpa [Entry.chars, signChar, oneLine] using h.1.oneLine

theorem split_task {label : String} (h : IsPlain label) :
    Sigil.split label.toList = (.task, label.toList) := by
  obtain ⟨c, cs, hcs, hc⟩ := h.exists_cons
  have send : "send:".toList.isPrefixOf label.toList = false := by
    simpa [← Bool.not_eq_true, List.isPrefixOf_iff_prefix] using h.send
  have receive : "receive:".toList.isPrefixOf label.toList = false := by
    simpa [← Bool.not_eq_true, List.isPrefixOf_iff_prefix] using h.receive
  have slash : "//".toList.isPrefixOf label.toList = false := by
    have := ne_of_isPunctuation hc (p := '/') (by decide)
    simp [hcs, List.isPrefixOf, this.symm]
  have rule : Sigil.isRule label.toList = false := by
    have := ne_of_isPunctuation hc (p := '-') (by decide)
    simp [Sigil.isRule, hcs, this]
  have quote := ne_of_isPunctuation hc (p := '"') (by decide)
  have first : Sigil.splitFirst label.toList = (.task, label.toList) := by
    rw [hcs, Sigil.splitFirst.eq_3 _ _ quote, ofChar?_eq_none hc]
  simp only [Sigil.split, rule, Sigil.afterWord?, send, receive, slash, first]
  rfl

/-- A character that is a sigil by itself, with a trimmed text behind it. -/
theorem split_cons {c : Char} {cs : List Char} {kind : Sigil} (hk : Sigil.ofChar? c = some kind)
    (rule : Sigil.isRule (c :: cs) = false) (h : Text.IsTrimmed cs) :
    Sigil.split (c :: cs) = (kind, cs) := by
  rw [Sigil.split_cons_of_ofChar? hk rule, Text.isTrimmed_iff.1 h]

theorem Entry.split_chars {e : Entry} (h : e.IsPlain) :
    Sigil.split e.chars = (e.splitSigil, e.payload) := by
  match e, h with
  | .lane name, h => exact split_cons rfl (Sigil.isRule_cons_of_ne (by decide) _) h.isTrimmed
  | .flowBreak, _ => rfl
  | .leaf (.task label), h => exact split_task h
  | .leaf (.message side text), h =>
    have trimmed : Text.trim (' ' :: text.toList) = text.toList := trim_space h.toIsName
    cases side with
    | send =>
      have chars : (Entry.leaf (.message .send text)).chars = "send: ".toList ++ text.toList := by
        simp [Entry.chars, Leaf.chars, Side.display, Side.word]
      have split : Sigil.split ("send: ".toList ++ text.toList) =
          (.message .send, Text.trim (' ' :: text.toList)) := rfl
      rw [chars, split, trimmed]
      rfl
    | receive =>
      have chars : (Entry.leaf (.message .receive text)).chars =
          "receive: ".toList ++ text.toList := by
        simp [Entry.chars, Leaf.chars, Side.display, Side.word]
      have split : Sigil.split ("receive: ".toList ++ text.toList) =
          (.message .receive, Text.trim (' ' :: text.toList)) := rfl
      rw [chars, split, trimmed]
      rfl
  | .leaf (.start label), h =>
    exact split_cons rfl (Sigil.isRule_cons_of_ne (by decide) _) h.1.isTrimmed
  | .leaf (.finish label), h =>
    exact split_cons rfl (Sigil.isRule_cons_of_ne (by decide) _) h.1.isTrimmed
  | .gateway label, h => exact split_cons rfl (Sigil.isRule_cons_of_ne (by decide) _) h.isTrimmed
  | .branch sign none task, h =>
    obtain ⟨c, cs, hcs, hc⟩ := h.1.exists_cons
    have dash := ne_of_isPunctuation hc (p := '-') (by decide)
    have rule : Sigil.isRule (signChar sign :: task.toList) = false := by
      simp [Sigil.isRule, hcs, dash]
    cases sign with
    | positive => exact split_cons rfl rule h.1.isTrimmed
    | negative => exact split_cons rfl rule h.1.isTrimmed
  | .branch sign (some label) task, h =>
    have rule : Sigil.isRule (Entry.branch sign (some label) task).chars = false := by
      simp [Sigil.isRule, Entry.chars]
    have trimmed : Text.IsTrimmed (Entry.branch sign (some label) task).payload :=
      isTrimmed_barred h.1
    cases sign with
    | positive => exact split_cons rfl rule trimmed
    | negative => exact split_cons rfl rule trimmed

/-- No payload has an arrow in it, as far as one would be looked for. -/
theorem Entry.payload_text {e : Entry} (h : e.IsPlain) :
    (if e.splitSigil.acceptsArrow then Arrow.splitInline e.payload
      else (String.ofList e.payload, none)) = (String.ofList e.payload, none) := by
  have inline {cs : List Char} (hc : Arrow.firstArrow cs = none) :
      Arrow.splitInline cs = (String.ofList cs, none) := by
    simp [Arrow.splitInline, hc]
  match e, h with
  | .lane name, _ | .flowBreak, _ | .gateway label, _ => rfl
  | .leaf (.task label), h => exact inline (IsPlain.firstArrow h)
  | .leaf (.message side text), h => exact inline (IsPlain.firstArrow h)
  | .leaf (.start label), h => exact inline h.1.firstArrow
  | .leaf (.finish label), h => exact inline h.1.firstArrow
  | .branch sign none task, h => exact inline h.1.firstArrow
  | .branch sign (some label) task, h =>
    have space : Arrow.firstArrow (' ' :: task.toList) = none := by
      rw [Arrow.firstArrow.eq_4 _ _ (by simp) (by simp), h.1.firstArrow]
      rfl
    have barred : Arrow.firstArrow ([] ++ '|' :: (label.toList ++ '|' :: ' ' :: task.toList)) =
        none :=
      Arrow.firstArrow_append rfl (Arrow.firstArrow_append (h.2 label rfl).1.firstArrow space)
    exact inline barred

theorem Entry.finalKind_splitSigil {e : Entry} (h : e.IsPlain) :
    Line.finalKind e.splitSigil (String.ofList e.payload) = e.sigil := by
  match e, h with
  | .leaf (.start label), h =>
    simp [Line.finalKind, Entry.splitSigil, Entry.payload, Leaf.label, Entry.sigil, h.2]
  | .leaf (.finish label), h =>
    simp [Line.finalKind, Entry.splitSigil, Entry.payload, Leaf.label, Entry.sigil, h.2]
  | .lane name, _ | .flowBreak, _ | .leaf (.task label), _ | .leaf (.message side text), _
  | .gateway label, _ | .branch sign label task, _ =>
    simp [Line.finalKind, Entry.splitSigil, Entry.sigil]

/-- The label of a branch is found again between its bars. -/
theorem ofBranch_payload {sign : Sign} {label : Option String} {task : String}
    (h : (Entry.branch sign label task).IsPlain) :
    Statement.ofBranch sign (String.ofList (Entry.branch sign label task).payload) =
      .branch sign label task := by
  match label, h with
  | none, h =>
    obtain ⟨c, cs, hcs, hc⟩ := h.1.exists_cons
    have bar := ne_of_isPunctuation hc (p := '|') (by decide)
    have unlabelled : Statement.branchLabel? task.toList = none := by
      rw [hcs]
      unfold Statement.branchLabel?
      split
      · next heq => exact absurd (List.cons.inj heq).1 bar
      · rfl
    simp [Statement.ofBranch, Entry.payload, unlabelled]
  | some label, h =>
    obtain ⟨plain, bar⟩ := h.2 label rfl
    have behind : Text.trim (' ' :: task.toList) = task.toList := trim_space h.1.toIsName
    have labelled : Statement.branchLabel? (Entry.branch sign (some label) task).payload =
        some (label.toList, task.toList) :=
      Statement.branchLabel?_eq_some.2
        ⟨label.toList, ' ' :: task.toList, by simp [Entry.payload], bar, plain.trimmed, behind⟩
    simp [Statement.ofBranch, labelled, Statement.nonempty?, h.1.ne_empty, plain.ne_empty]

theorem Entry.ofLine_eq {e : Entry} (h : e.IsPlain) {l : Line} (kind : l.kind = e.sigil)
    (text : l.text = String.ofList e.payload) : Statement.ofLine l = e.statement := by
  match e, h with
  | .flowBreak, _ => simp [Statement.ofLine, kind, Entry.sigil, Entry.statement]
  | .lane name, h =>
    simp [Statement.ofLine, kind, text, Entry.sigil, Entry.payload, Entry.statement,
      Statement.ofPayload, h.ne_empty]
  | .gateway label, h =>
    simp [Statement.ofLine, kind, text, Entry.sigil, Entry.payload, Entry.statement,
      Statement.ofPayload, h.ne_empty]
  | .leaf (.task label), h =>
    simp [Statement.ofLine, kind, text, Entry.sigil, Entry.payload, Entry.statement,
      Statement.ofPayload, Leaf.label, Leaf.kind, (IsPlain.toIsName h).ne_empty]
  | .leaf (.message side label), h =>
    simp [Statement.ofLine, kind, text, Entry.sigil, Entry.payload, Entry.statement,
      Statement.ofPayload, Leaf.label, Leaf.kind, (IsPlain.toIsName h).ne_empty]
  | .leaf (.start label), h =>
    simp [Statement.ofLine, kind, text, Entry.sigil, Entry.payload, Entry.statement,
      Statement.ofPayload, Leaf.label, Leaf.kind, h.1.ne_empty]
  | .leaf (.finish label), h =>
    simp [Statement.ofLine, kind, text, Entry.sigil, Entry.payload, Entry.statement,
      Statement.ofPayload, Leaf.label, Leaf.kind, h.1.ne_empty]
  | .branch sign label task, h =>
    have ne : String.ofList (Entry.branch sign label task).payload ≠ "" := by
      cases label with
      | none => simpa [Entry.payload] using h.1.ne_empty
      | some label => simp [Entry.payload]
    simp only [Statement.ofLine, kind, text, Entry.sigil, if_neg ne, Statement.ofPayload]
    exact ofBranch_payload h

/-- The line that an entry becomes at a depth, wherever it stands in the text. -/
theorem Entry.readAs_ofPiece {e : Entry} (h : e.IsPlain) {indent : List Char}
    (hi : ∀ c ∈ indent, Text.isBlank c = true) (number offset depth : Nat) :
    Row.ReadAs ⟨depth, e⟩ (Line.ofPiece ⟨number, offset, indent ++ e.chars⟩ depth) := by
  have split : Sigil.split (Text.trim (indent ++ e.chars)) = (e.splitSigil, e.payload) := by
    rw [Text.trim_append hi (isTrimmed_chars h), split_chars h]
  have kind := finalKind_splitSigil h
  simp only [Line.ofPiece, split, payload_text h, kind]
  exact ⟨rfl, rfl, rfl, ofLine_eq h rfl rfl⟩

/-! ## Indentation -/

/-- The characters in front of a row. -/
def indent (unit : IndentUnit) (depth : Nat) : List Char :=
  (List.replicate depth (unitChars unit)).flatten

theorem eq_of_mem_indent {unit : IndentUnit} {depth : Nat} {c : Char}
    (hc : c ∈ indent unit depth) : c = ' ' ∨ c = '\t' := by
  obtain ⟨cs, hcs, hc⟩ := List.mem_flatten.1 hc
  rw [List.eq_of_mem_replicate hcs] at hc
  cases unit with
  | spaces width => exact .inl (List.eq_of_mem_replicate hc)
  | tab => exact .inr (List.mem_singleton.1 hc)

theorem isBlank_of_mem_indent {unit : IndentUnit} {depth : Nat} :
    ∀ c ∈ indent unit depth, Text.isBlank c = true := by
  intro c hc
  obtain rfl | rfl := eq_of_mem_indent hc
  · decide
  · decide

/-- How a number of units indents. -/
def indentation (unit : IndentUnit) (depth : Nat) : Indentation :=
  if depth = 0 then .none
  else match unit with
    | .spaces width => .spaces (depth * width)
    | .tab => .tabs depth

theorem ofChars_indent {unit : IndentUnit} (hu : unit ≠ .spaces 0) (depth : Nat) :
    Indentation.ofChars (indent unit depth) = indentation unit depth := by
  obtain rfl | hd := Nat.eq_zero_or_pos depth
  · rfl
  · cases unit with
    | spaces width =>
      have pos : 0 < width := Nat.pos_of_ne_zero fun zero => hu (zero ▸ rfl)
      have chars : indent (.spaces width) depth = List.replicate (depth * width) ' ' := by
        simp [indent, unitChars]
      have ne : depth * width ≠ 0 := Nat.ne_of_gt (Nat.mul_pos hd pos)
      simp [chars, Indentation.ofChars, indentation, hd.ne', ne]
    | tab =>
      have chars : indent .tab depth = List.replicate depth '\t' := by
        simp [indent, unitChars]
      simp [chars, Indentation.ofChars, indentation, hd.ne']

/-- The reader knows the unit, or has seen no indentation yet. -/
def Knows (unit : IndentUnit) (r : Reader) : Prop :=
  r.unit = some unit ∨ r.unit = none ∧ r.depth = 0

/-- A row at most one deeper than the line before it is read at its depth. -/
theorem depth_indentation {unit : IndentUnit} (hu : unit ≠ .spaces 0) {r : Reader}
    (hr : Knows unit r) {depth : Nat} (hd : depth ≤ r.depth + 1) :
    (indentation unit depth).depth r.unit = .ok depth := by
  by_cases zero : depth = 0
  · simp [indentation, zero, Indentation.depth]
  · -- Where the unit is not known yet, this row is one unit deep and tells it.
    have getD (u : IndentUnit) (one : depth = 1 → u = unit) : r.unit.getD u = unit := by
      obtain known | ⟨unknown, start⟩ := hr
      · simp [known]
      · rw [unknown]
        exact one (by omega)
    cases unit with
    | spaces width =>
      have pos : 0 < width := Nat.pos_of_ne_zero fun zero => hu (zero ▸ rfl)
      have unit := getD (.spaces (depth * width)) fun one => by simp [one]
      simp [indentation, zero, Indentation.depth, unit, Nat.mul_div_cancel _ pos]
    | tab =>
      have unit := getD .tab fun _ => rfl
      simp [indentation, zero, Indentation.depth, unit]

theorem knows_after {unit : IndentUnit} {r : Reader} (hr : Knows unit r) {depth : Nat}
    (hd : depth ≤ r.depth + 1) :
    Knows unit ⟨r.unit.or (indentation unit depth).unit?, depth⟩ := by
  obtain known | ⟨unknown, start⟩ := hr
  · exact .inl (by simp [known])
  · by_cases zero : depth = 0
    · exact .inr (by simp [unknown, zero, indentation, Indentation.unit?])
    · obtain rfl : depth = 1 := by omega
      cases unit with
      | spaces width => exact .inl (by simp [unknown, indentation, Indentation.unit?])
      | tab => exact .inl (by simp [unknown, indentation, Indentation.unit?])

/-! ## Whole scripts -/

/-- No row is more than one deeper than the row before it. -/
def Steady (depth : Nat) : List Row → Prop
  | [] => True
  | row :: rows => row.depth ≤ depth + 1 ∧ Steady row.depth rows

/-- Rows that get deeper one by one are read as they are meant. -/
theorem readAll_rows {unit : IndentUnit} (hu : unit ≠ .spaces 0) {limit : Nat} {rows : List Row}
    (plain : ∀ row ∈ rows, row.entry.IsPlain) (deep : ∀ row ∈ rows, row.depth ≤ limit)
    {r : Reader} (hr : Knows unit r) (steady : Steady r.depth rows) (number offset : Nat) :
    let s := r.readAll limit (Text.numberPieces number offset (rows.map (Row.chars unit)))
    s.failure = none ∧ List.Forall₂ Row.ReadAs rows s.lines := by
  induction rows generalizing r number offset with
  | nil => exact ⟨rfl, .nil⟩
  | cons row rows ih =>
    obtain ⟨next, steady⟩ := steady
    have entry := plain row (by simp)
    have trimmed := Entry.isTrimmed_chars entry
    have chars : row.chars unit = indent unit row.depth ++ row.entry.chars := rfl
    have content : Text.trim (row.chars unit) = row.entry.chars := by
      rw [chars, Text.trim_append isBlank_of_mem_indent trimmed]
    have front : Indentation.ofChars (Text.indentation (row.chars unit)) =
        indentation unit row.depth := by
      rw [chars, Text.indentation_append isBlank_of_mem_indent trimmed, ofChars_indent hu]
    have bound : ¬ limit < row.depth := Nat.not_lt.2 (deep row (by simp))
    let p : Text.Piece := ⟨number, offset, row.chars unit⟩
    have outcome : (r.read limit p).outcome = .ok (some (Line.ofPiece p row.depth)) := by
      simp [Reader.read, Reader.measure, p, content, front, Entry.chars_ne_nil entry,
        depth_indentation hu hr next, bound]
    have reader : (r.read limit p).reader =
        ⟨r.unit.or (indentation unit row.depth).unit?, row.depth⟩ := by
      simp [Reader.read, Reader.measure, p, content, front, Entry.chars_ne_nil entry,
        depth_indentation hu hr next, bound]
    have rest := ih (fun row hrow => plain row (by simp [hrow]))
      (fun row hrow => deep row (by simp [hrow])) (r := (r.read limit p).reader)
      (by rw [reader]; exact knows_after hr next) (by rw [reader]; exact steady) (number + 1)
      (offset + Text.byteLength (row.chars unit) + 1)
    simp only [List.map_cons, Text.numberPieces, Reader.readAll]
    rw [outcome]
    refine ⟨rest.1, .cons ?_ rest.2⟩
    exact Entry.readAs_ofPiece entry isBlank_of_mem_indent number offset row.depth

mutual

/-- The rows of a statement are steady, if what follows them is. -/
theorem Step.steady_rows (s : Step) {m : Nat} {rest : List Row}
    (h : ∀ d, m ≤ d + 1 → Steady d rest) {d : Nat} (hd : m ≤ d + 1) :
    Steady d (s.rows m ++ rest) := by
  match s with
  | .leaf l =>
    simp only [Step.rows, List.cons_append, List.nil_append]
    exact ⟨hd, h m (by omega)⟩
  | .gateway label arms =>
    simp only [Step.rows, List.cons_append]
    exact ⟨hd, steady_armsRows arms h (Nat.le_refl m)⟩

theorem steady_armsRows (arms : List Arm) {m : Nat} {rest : List Row}
    (h : ∀ d, m ≤ d + 1 → Steady d rest) {d : Nat} (hd : m ≤ d) :
    Steady d (armsRows m arms ++ rest) := by
  match arms with
  | [] => exact h d (by omega)
  | .mk sign label task body :: arms =>
    simp only [armsRows, List.cons_append, List.append_assoc]
    refine ⟨by simpa using hd, steady_bodyRows body (fun d hd => ?_) (by simp)⟩
    exact steady_armsRows arms h (by omega)

theorem steady_bodyRows (steps : List Step) {m : Nat} {rest : List Row}
    (h : ∀ d, m ≤ d + 1 → Steady d rest) {d : Nat} (hd : m ≤ d + 1) :
    Steady d (bodyRows m steps ++ rest) := by
  match steps with
  | [] => exact h d hd
  | s :: steps =>
    simp only [bodyRows, List.append_assoc]
    exact s.steady_rows (fun d hd => steady_bodyRows steps h hd) hd

end

theorem steady_rows (script : List Item) (d : Nat) : Steady d (rows script) := by
  induction script generalizing d with
  | nil => trivial
  | cons item items ih =>
    cases item with
    | lane name => exact ⟨by simp, ih 0⟩
    | flowBreak => exact ⟨by simp, ih 0⟩
    | step s => exact s.steady_rows (fun d _ => ih d) (by simp)

/-- A script that is written down is read row by row. -/
theorem scan_print {unit : IndentUnit} (hu : unit ≠ .spaces 0) {limit : Nat} {script : List Item}
    (plain : ∀ row ∈ rows script, row.entry.IsPlain)
    (deep : ∀ row ∈ rows script, row.depth ≤ limit) :
    (scan limit (print unit script)).failure = none ∧
      List.Forall₂ Row.ReadAs (rows script) (scan limit (print unit script)).lines := by
  unfold scan Text.pieces
  by_cases empty : rows script = []
  · simp [print, empty, List.intercalate, Text.splitOn, Text.numberPieces, Reader.readAll,
      Reader.read]
  · have apart : Text.splitOn '\n' (print unit script).toList =
        (rows script).map (Row.chars unit) := by
      rw [print, String.toList_ofList, Text.splitOn_intercalate (by simpa using empty)]
      intro line hline
      obtain ⟨row, hrow, rfl⟩ := List.mem_map.1 hline
      refine fun newline => ?_
      obtain blank | entry := List.mem_append.1 newline
      · simpa using eq_of_mem_indent blank
      · exact Entry.newline_not_mem (plain row hrow) entry
    rw [apart]
    exact readAll_rows hu plain deep (.inr ⟨rfl, rfl⟩) (steady_rows script 0) 1 0

end Swimlane.Script
