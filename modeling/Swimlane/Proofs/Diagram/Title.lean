import Swimlane.Compile
import Swimlane.Proofs.Diagram.Line
import Swimlane.Proofs.Outline.Account
import Swimlane.Proofs.Prefix
import Swimlane.Proofs.Source.Layout
import Swimlane.Proofs.Yaml.Core

/-!
# Titles are read back

A title is a YAML scalar in front of the diagram. Its characters are always read back. A plain title
may be taken for a number, a truth value or nothing, though, since only its characters decide
whether it is put between quotes. Control characters stand between the quotes as they are, and
cannot be read there.

## Main definitions

* `Title.unescape?`: what stands between two quotes, without its escapes;
* `Title.IsName`: the names that a process can have;
* `Title.ReadsBack`: what is read of the title with a name.

## Main statements

* `Title.isPlain_core`: a plain title is a plain scalar;
* `Title.readDouble_escape`: a title between quotes is read as it was written;
* `Outline.processName_eq`: the name of a process is what its text says first;
* `compile_title_readsBack`: what is read of the title of every diagram;
* `compile_title_bool`: a title that is not read as a text.
-/

namespace Swimlane

namespace Title

variable {c d : Char} {cs : List Char}

/-! ## Plain titles -/

/-- Stretches of code points that hold all letters and digits, and no character that means something
in a plain scalar. -/
def wordCodes : List (Nat × Nat) :=
  [(0x30, 0x39), (0x41, 0x5A), (0x61, 0x7A), (0xA0, 0xD7FF), (0xE000, 0xFEFE), (0xFF00, 0xFFFD),
   (0x10000, 0x10FFFF)]

def isWordCode (n : Nat) : Bool := wordCodes.any fun r => r.1 ≤ n && n ≤ r.2

theorem isWordCode_of_isAlphanumeric (h : Text.isAlphanumeric c = true) :
    isWordCode c.toNat = true := by
  have inside : Text.alphanumericRanges.all
      (fun r => wordCodes.any fun w => w.1 ≤ r.1 && r.2 ≤ w.2) = true := by decide +kernel
  obtain ⟨r, hr, own⟩ := List.any_eq_true.1 h
  obtain ⟨w, hw, wide⟩ := List.any_eq_true.1 (List.all_eq_true.1 inside r hr)
  refine List.any_eq_true.2 ⟨w, hw, ?_⟩
  simp only [Bool.and_eq_true, decide_eq_true_eq] at own wide ⊢
  omega

/-- The characters of a plain title that are no letters and no digits. -/
def marks : List Char := [' ', '-', '_', '.', '(', ')']

/-- The characters of plain titles, and some others. -/
def isHarmless (c : Char) : Bool := isWordCode c.toNat || marks.contains c

theorem isHarmless_of_isPlainChar (h : isPlainChar c = true) : isHarmless c = true := by
  simp only [isPlainChar, Bool.or_eq_true, decide_eq_true_eq] at h
  simp only [isHarmless, marks, Bool.or_eq_true, List.contains_eq_mem, List.mem_cons,
    List.not_mem_nil, or_false, decide_eq_true_eq]
  grind [isWordCode_of_isAlphanumeric]

/-- Other characters do not stand in a plain title. -/
theorem ne_of_isPlainChar (h : isPlainChar c = true) (harm : isHarmless d = false) : c ≠ d := by
  rintro rfl
  rw [isHarmless_of_isPlainChar h] at harm
  cases harm

theorem isWordChar_of_isPlainChar (h : isPlainChar c = true) (space : c ≠ ' ') :
    Yaml.Core.isWordChar c = true := by
  have tab : c ≠ '\t' := ne_of_isPlainChar h rfl
  have newline : c ≠ '\n' := ne_of_isPlainChar h rfl
  have carriage : c ≠ '\r' := ne_of_isPlainChar h rfl
  rcases Bool.or_eq_true _ _ ▸ isHarmless_of_isPlainChar h with code | mark
  · have bounds : Yaml.isPrintable c = true ∧ c.toNat ≠ 0xFEFF := by
      simp only [isWordCode, wordCodes, List.any_cons, List.any_nil, Bool.or_false, Bool.or_eq_true,
        Bool.and_eq_true, decide_eq_true_eq] at code
      simp only [Yaml.isPrintable, Bool.or_eq_true, Bool.and_eq_true, decide_eq_true_eq]
      omega
    simp [Yaml.Core.isWordChar, Yaml.isSpace, bounds, space, tab, newline, carriage]
  · have all : (marks.tail).all Yaml.Core.isWordChar = true := rfl
    exact List.all_eq_true.1 all c
      ((List.mem_cons.1 (List.contains_iff_mem.1 mark)).resolve_left space)

theorem isPlainRest_of_all (b : Bool) (h : cs.all isPlainChar = true)
    (last : cs.getLast? ≠ some ' ') (more : b = true → cs ≠ []) :
    Yaml.Core.isPlainRest b cs = true := by
  induction cs generalizing b with
  | nil =>
    cases b with
    | true => exact absurd rfl (more rfl)
    | false => rfl
  | cons c cs ih =>
    rw [List.all_cons, Bool.and_eq_true] at h
    have last' : cs.getLast? ≠ some ' ' := by
      cases cs with
      | nil => simp
      | cons d ds => simpa [List.getLast?_cons_cons] using last
    by_cases space : c = ' '
    · subst space
      have ne : cs ≠ [] := by
        rintro rfl
        exact last rfl
      exact ih true h.2 last' fun _ => ne
    · have word := isWordChar_of_isPlainChar h.1 space
      have tab : c ≠ '\t' := ne_of_isPlainChar h.1 rfl
      have comment : c ≠ '#' := ne_of_isPlainChar h.1 rfl
      have key : c ≠ ':' := ne_of_isPlainChar h.1 rfl
      have rest := ih false h.2 last' (by simp)
      simp [Yaml.Core.isPlainRest, Yaml.isSpace, space, tab, word, comment, key, rest]

theorem notMem_indicators (h : isPlainChar c = true) (dash : c ≠ '-') :
    c ∉ Yaml.Core.indicators := by
  have harm : Yaml.Core.indicators.all (fun d => d = '-' || !isHarmless d) = true := rfl
  intro mem
  have own := List.all_eq_true.1 harm c mem
  simp [dash, isHarmless_of_isPlainChar h] at own

/-- A plain title is a plain scalar. -/
theorem isPlain_core (ne : cs ≠ []) (h : isPlain cs = true) : Yaml.Core.isPlain cs = true := by
  obtain ⟨c, cs, rfl⟩ := List.exists_cons_of_ne_nil ne
  simp only [isPlain, Bool.and_eq_true, bne_iff_ne, List.head?_cons] at h
  obtain ⟨⟨⟨all, dash⟩, space⟩, last⟩ := h
  have first : isPlainChar c = true := List.all_eq_true.1 all c List.mem_cons_self
  have dash : c ≠ '-' := fun same => dash (congrArg some same)
  have space : c ≠ ' ' := fun same => space (congrArg some same)
  have rest : Yaml.Core.isPlainRest false cs = true := by
    refine isPlainRest_of_all false (by simpa [first] using all) ?_ (by simp)
    cases cs with
    | nil => simp
    | cons d ds => simpa [List.getLast?_cons_cons] using last
  have word := isWordChar_of_isPlainChar first space
  have plain := notMem_indicators first dash
  simp [Yaml.Core.isPlain, word, plain, rest]

/-! ## Titles between quotes -/

/-- What stands between two quotes, without its escapes. No quote may stand there that is not
escaped. -/
def unescape? : List Char → Option (List Char)
  | [] => some []
  | '\\' :: c :: cs => if c = '\\' ∨ c = '"' then (unescape? cs).map (c :: ·) else none
  | c :: cs => if c = '\\' ∨ c = '"' then none else (unescape? cs).map (c :: ·)

theorem unescape?_escape (cs : List Char) : unescape? (cs.flatMap escape) = some cs := by
  induction cs with
  | nil => rfl
  | cons c cs ih =>
    by_cases backslash : c = '\\'
    · subst backslash
      simp [escape, unescape?, ih]
    · by_cases mark : c = '"'
      · subst mark
        simp [escape, unescape?, ih]
      · simp [escape, unescape?, backslash, mark, ih]

/-- A title between quotes is read as it was written, unless it has characters that may not stand
there. -/
theorem readDouble_escape (cs : List Char) {fuel : Nat} (h : (cs.flatMap escape).length < fuel) :
    Yaml.Core.readDouble fuel (cs.flatMap escape ++ ['"']) =
      if cs.all Yaml.Core.isQuotable then some cs else none := by
  induction cs generalizing fuel with
  | nil =>
    obtain ⟨fuel, rfl⟩ := Nat.exists_eq_succ_of_ne_zero (Nat.ne_zero_of_lt h)
    rfl
  | cons c cs ih =>
    obtain ⟨fuel, rfl⟩ := Nat.exists_eq_succ_of_ne_zero (Nat.ne_zero_of_lt h)
    rw [List.flatMap_cons, List.length_append] at h
    rw [List.flatMap_cons, List.append_assoc, List.all_cons]
    have shorter : (cs.flatMap escape).length < fuel := by
      have : 0 < (escape c).length := by
        unfold escape
        split <;> simp
      omega
    have rest := ih shorter
    have whole : Yaml.Core.readDouble (fuel + 1) (escape c ++ (cs.flatMap escape ++ ['"'])) =
        if Yaml.Core.isQuotable c then
          (Yaml.Core.readDouble fuel (cs.flatMap escape ++ ['"'])).map (c :: ·)
        else none := by
      by_cases backslash : c = '\\'
      · subst backslash
        rfl
      · by_cases mark : c = '"'
        · subst mark
          rfl
        · simp [escape, Yaml.Core.readDouble, backslash, mark]
    rw [whole, rest]
    cases Yaml.Core.isQuotable c <;> cases cs.all Yaml.Core.isQuotable <;> rfl

/-! ## Scalars -/

/-- What is read of a title, as it is written. -/
theorem read_write (ne : cs ≠ []) :
    Yaml.Core.read (write cs) =
      if isPlain cs then some ⟨Yaml.Core.kindOf cs, cs⟩
      else if cs.all Yaml.Core.isQuotable then some ⟨.str, cs⟩ else none := by
  unfold write
  split
  · next plain =>
    have core := isPlain_core ne plain
    unfold Yaml.Core.read
    split
    · next rest => exact absurd List.mem_cons_self (quote_notMem_of_isPlain plain)
    · rw [if_pos core]
  · have length : (cs.flatMap escape).length < (cs.flatMap escape ++ ['"']).length := by simp
    simp only [quote, List.cons_append, Yaml.Core.read, readDouble_escape cs length]
    split <;> rfl

/-- The names that a process can have: something without blanks around it, on one line. -/
structure IsName (name : String) : Prop where
  nonempty : name ≠ ""
  trimmed : Text.IsTrimmed name.toList
  oneLine : Text.OneLine name

/-- What is read of the title with a name. A plain title is the name itself, and it is read as what
the name looks like. A title between quotes is the name, with some characters escaped, and it is
read as a text when all of its characters may stand there. -/
structure ReadsBack (name : String) : Prop where
  plain : isPlain name.toList = true → titleScalar name = name ∧
    Yaml.Core.read name.toList = some ⟨Yaml.Core.kindOf name.toList, name.toList⟩
  quoted : isPlain name.toList = false → ∃ body, unescape? body = some name.toList ∧
    (titleScalar name).toList = '"' :: body ++ ['"']
  read_iff : Yaml.Core.read (titleScalar name).toList = some ⟨.str, name.toList⟩ ↔
    if isPlain name.toList then Yaml.Core.kindOf name.toList = .str
    else ∀ c ∈ name.toList, Yaml.Core.isQuotable c = true

theorem IsName.readsBack {name : String} (h : IsName name) : ReadsBack name := by
  have ne : name.toList ≠ [] := by simpa using h.nonempty
  have written : (titleScalar name).toList = write name.toList := by
    rw [titleScalar, String.toList_ofList]
  have read := read_write ne
  refine ⟨fun plain => ?_, fun quoted => ⟨name.toList.flatMap escape, unescape?_escape _, ?_⟩, ?_⟩
  · have same : write name.toList = name.toList := if_pos plain
    refine ⟨String.toList_injective (written.trans same), ?_⟩
    rw [← same, read, if_pos plain, same]
  · rw [written, write, if_neg (by simpa using quoted), quote]
  · rw [written, read]
    cases isPlain name.toList with
    | true => simp
    | false => simp

end Title

/-! ## The name of a process -/

/-- The name of a process is what stands behind the first colon that starts a line. -/
theorem Outline.processName_eq {options : ReadOptions} {text : String} {o : Outline}
    (h : ofText options text = .ok o) :
    o.document.processName = (Text.pieces text.toList).findSome? (·.named? ':') := by
  have read := exists_ofText_eq_ok.1 ⟨o, h⟩
  have lines := filterMap_scan_of_named? read (c := ':') (g := fun _ name => name)
    (f := fun l => (Statement.ofLine l).processName?) fun p depth => by
      rw [Option.map_id']
      refine Option.ext fun name => ?_
      rw [Text.Piece.named?_process_iff depth]
      cases Statement.ofLine (Line.ofPiece p depth) <;> simp [Statement.processName?]
  rw [(ofText_eq_ok h).1]
  calc (finished options.defaultLane (scan options.maxDepth text).lines).processName
    _ = (scan options.maxDepth text).lines.findSome? fun l =>
        (Statement.ofLine l).processName? := by
      rw [finished, Draft.closeGateways_processName]
      exact Draft.run_processName {} options.defaultLane _
    _ = (Text.pieces text.toList).findSome? (·.named? ':') := by
      rw [← List.head?_filterMap, lines, List.head?_filterMap]
      simp

theorem Text.Piece.isName_of_named? {text : String} {p : Piece} (hp : p ∈ pieces text.toList)
    {c : Char} {name : String} (h : p.named? c = some name) : Title.IsName name := by
  obtain ⟨rest, starts, ne, rfl⟩ := named?_eq_some.1 h
  refine ⟨by simpa using ne, by simpa using isTrimmed_trim rest, fun newline => ?_⟩
  rw [String.toList_ofList] at newline
  have inside : '\n' ∈ trim p.chars :=
    starts ▸ List.mem_cons_of_mem c ((trim_sublist _).mem newline)
  exact newline_notMem_chars hp ((trim_sublist _).mem inside)

/-- The front of a diagram. -/
theorem Diagram.exists_draw_eq {options : DrawOptions} {doc : Document} {name : String}
    (shown : options.title = true) (named : doc.processName = some name)
    (connections : List Connection) :
    ∃ rest, draw options doc connections =
      "---\ntitle: " ++ titleScalar name ++ "\n---\n" ++ rest := by
  have front : titleLines options doc = [.fence, .title name, .fence] := by
    simp only [titleLines, shown, named]
  obtain ⟨more, split⟩ : ∃ more,
      lines options doc connections = .fence :: .title name :: .fence :: more :=
    ⟨_, by rw [lines, front]; rfl⟩
  refine ⟨String.join (more.map fun l => l.text ++ "\n"), String.toList_injective ?_⟩
  simp [draw, split, DiagramLine.text, String.toList_join]

/-- What is read of the title of every diagram. -/
theorem compile_title_readsBack (options : Options) (text : String) (c : Compiled) (name : String)
    (h : compile options text = .ok c) (shown : options.draw.title = true)
    (named : c.graph.document.processName = some name) :
    Title.IsName name ∧ Title.ReadsBack name ∧
      ∃ rest, c.diagram = "---\ntitle: " ++ titleScalar name ++ "\n---\n" ++ rest := by
  unfold compile at h
  cases read : ProcessGraph.ofText options.read text with
  | error failure => simp [read, Except.map] at h
  | ok g =>
    obtain rfl : (⟨g, Diagram.draw options.draw g.document g.connections⟩ : Compiled) = c := by
      simpa [read, Except.map] using h
    obtain ⟨o, ho, rfl⟩ := ProcessGraph.ofText_eq_ok read
    have stated : (Text.pieces text.toList).findSome? (·.named? ':') = some name :=
      (Outline.processName_eq ho).symm.trans named
    obtain ⟨p, hp, own⟩ := List.exists_of_findSome?_eq_some stated
    have isName := Text.Piece.isName_of_named? hp own
    exact ⟨isName, isName.readsBack, Diagram.exists_draw_eq shown named _⟩

/-- A title with a colon, a quote and a backslash is read as the text it was. -/
theorem compile_title_readsBack_quoted :
    ∃ c, compile {} ":Order: \"v2\" \\" = .ok c ∧
      c.graph.document.processName = some "Order: \"v2\" \\" ∧
      titleScalar "Order: \"v2\" \\" = "\"Order: \\\"v2\\\" \\\\\"" ∧
      Title.ReadsBack "Order: \"v2\" \\" := by
  have read : compile {} ":Order: \"v2\" \\" = .ok _ := rfl
  exact ⟨_, read, rfl, by decide +kernel, (compile_title_readsBack _ _ _ _ read rfl rfl).2.1⟩

/-- A process that is called `true` has a title that is read as a truth value, and not as a text. -/
theorem compile_title_bool :
    ∃ c, compile {} ":true" = .ok c ∧ c.graph.document.processName = some "true" ∧
      titleScalar "true" = "true" ∧
      Yaml.Core.read (titleScalar "true").toList = some ⟨.bool, "true".toList⟩ := by
  have read : compile {} ":true" = .ok _ := rfl
  exact ⟨_, read, rfl, by decide +kernel, by decide +kernel⟩

end Swimlane
