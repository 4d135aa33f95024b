import Mathlib.Data.List.TakeWhile
import Swimlane.Proofs.Outline.Change
import Swimlane.Proofs.Source.TwoPass

/-!
# What the first characters of a line make of it

The kind of a line and what it states, told by its characters.

## Main definitions

* `Sigil.Splits`: how a trimmed line comes apart;
* `Text.Piece.IsComment`, `Text.Piece.IsBreak`, `Text.Piece.Names`, `Text.Piece.Opens`: lines that
  can be told by their first characters;
* `Text.Piece.named?`: what a line names;
* `Branch.IsLabelled`: the label of a branch, told by the text of its line.

## Main statements

* `Sigil.splits_split`: every line comes apart in one of these ways;
* `Text.Piece.isComment_iff`, `Text.Piece.isBreak_iff`, `Text.Piece.names_lane_iff`,
  `Text.Piece.names_process_iff`: lines that only comment, cut or name;
* `Statement.opens_of_ofLine_branch`, `Statement.ofLine_of_opens`: lines of branches.
-/

namespace Swimlane

namespace Sigil

/-- How a trimmed line comes apart: its kind and its payload. -/
inductive Splits : List Char → Sigil → List Char → Prop
  | rule {cs : List Char} (h : isRule cs = true) : Splits cs .connectionBreak []
  | comment (rest : List Char) : Splits ('/' :: '/' :: rest) .comment (Text.trim rest)
  | send (rest : List Char) :
      Splits ('s' :: 'e' :: 'n' :: 'd' :: ':' :: rest) (.message .send) (Text.trim rest)
  | receive (rest : List Char) :
      Splits ('r' :: 'e' :: 'c' :: 'e' :: 'i' :: 'v' :: 'e' :: ':' :: rest) (.message .receive)
        (Text.trim rest)
  | note (rest : List Char) :
      Splits ('"' :: rest) .note (Text.trim (dropClosingQuote (Text.trim rest)))
  | char {c : Char} {rest : List Char} {kind : Sigil} (h : ofChar? c = some kind)
      (rule : isRule (c :: rest) = false) : Splits (c :: rest) kind (Text.trim rest)
  | task {cs : List Char} (h : ∀ c, cs.head? = some c → ofChar? c = none) : Splits cs .task cs

theorem splits_splitFirst {cs : List Char} (rule : isRule cs = false) :
    Splits cs (splitFirst cs).1 (splitFirst cs).2 := by
  fun_cases splitFirst cs with
  | case1 => exact .task (by simp)
  | case2 rest => exact .note rest
  | case3 c rest _ kind h => exact .char h rule
  | case4 c rest _ h => exact .task (by simpa using h)

theorem afterWord?_eq_some {word : String} {cs rest : List Char}
    (h : afterWord? word cs = some rest) :
    cs = word.toList ++ rest := by
  unfold afterWord? at h
  split at h
  · next starts =>
    obtain ⟨tail, rfl⟩ := List.isPrefixOf_iff_prefix.1 starts
    rw [← String.length_toList, List.drop_left] at h
    rw [Option.some.inj h]
  · cases h

/-- Every line comes apart in one of these ways. -/
theorem splits_split (cs : List Char) : Splits cs (split cs).1 (split cs).2 := by
  unfold split
  split
  · next rule => exact .rule rule
  · next rule =>
    cases comment : afterWord? "//" cs with
    | some rest =>
      obtain rfl := afterWord?_eq_some comment
      exact .comment rest
    | none =>
      cases send : afterWord? "send:" cs with
      | some rest =>
        obtain rfl := afterWord?_eq_some send
        exact .send rest
      | none =>
        cases receive : afterWord? "receive:" cs with
        | some rest =>
          obtain rfl := afterWord?_eq_some receive
          exact .receive rest
        | none => exact splits_splitFirst (by simpa using rule)

/-- The character that tells a kind of line. -/
def char? : Sigil → Option Char
  | .processName => some ':'
  | .lane => some '@'
  | .gateway => some '?'
  | .branch .positive => some '+'
  | .branch .negative => some '-'
  | .connection => some '^'
  | .dataObject => some '#'
  | .endEvent => some '!'
  | _ => none

theorem char?_of_ofChar? {c : Char} {kind : Sigil} (h : ofChar? c = some kind) :
    kind.char? = some c := by
  unfold ofChar? at h
  split at h
  all_goals cases h
  all_goals rfl

section

variable {c : Char} {cs rest : List Char} {kind : Sigil}

theorem isRule_cons_of_ne (h : c ≠ '-') (rest : List Char) : isRule (c :: rest) = false := by
  simp [isRule, h]

/-- A line of a kind that one character tells starts with this character. -/
theorem exists_cons_of_split (hc : kind.char? = some c) (h : (split cs).1 = kind) :
    isRule cs = false ∧ ∃ rest, cs = c :: rest := by
  have splits := splits_split cs
  rw [h] at splits
  generalize (split cs).2 = payload at splits
  cases splits with
  | @char c' rest _ h' rule =>
    obtain rfl : c' = c := Option.some.inj ((char?_of_ofChar? h').symm.trans hc)
    exact ⟨rule, rest, rfl⟩
  | rule | comment | send | receive | note | task => cases hc

/-- A character that is a sigil by itself, and what stands behind it. -/
theorem split_cons_of_ofChar? (hc : ofChar? c = some kind) (rule : isRule (c :: rest) = false) :
    split (c :: rest) = (kind, Text.trim rest) := by
  have ne : c ≠ '/' ∧ c ≠ 's' ∧ c ≠ 'r' ∧ c ≠ '"' := by
    unfold ofChar? at hc
    split at hc
    all_goals first | decide | cases hc
  obtain ⟨slash, send, receive, quote⟩ := ne
  have first : splitFirst (c :: rest) = (kind, Text.trim rest) := by
    rw [splitFirst.eq_3 _ _ quote, hc]
  simp only [split, rule]
  simp [afterWord?, List.isPrefixOf, slash.symm, send.symm, receive.symm, first]

theorem split_eq_comment : (split cs).1 = .comment ↔ ['/', '/'] <+: cs := by
  constructor
  · intro h
    have splits := splits_split cs
    rw [h] at splits
    generalize (split cs).2 = payload at splits
    cases splits with
    | comment rest => exact ⟨rest, rfl⟩
    | char h => cases char?_of_ofChar? h
  · rintro ⟨rest, rfl⟩
    simp [split, isRule, afterWord?, List.isPrefixOf]

theorem split_eq_connectionBreak : (split cs).1 = .connectionBreak ↔ isRule cs = true := by
  constructor
  · intro h
    have splits := splits_split cs
    rw [h] at splits
    generalize (split cs).2 = payload at splits
    cases splits with
    | rule h => exact h
    | char h => cases char?_of_ofChar? h
  · intro h
    simp [split, h]

end

end Sigil

/-! ## Lines -/

namespace Line

variable (p : Text.Piece) (depth : Nat)

/-- Events are the only lines whose payload decides on their kind. -/
theorem kind_ofPiece {kind : Sigil} (finish : kind ≠ .endEvent) (start : kind ≠ .startEvent) :
    (ofPiece p depth).kind = kind ↔ (Sigil.split (Text.trim p.chars)).1 = kind := by
  simp only [ofPiece, finalKind]
  grind

theorem text_ofPiece (h : (Sigil.split (Text.trim p.chars)).1.acceptsArrow = false) :
    (ofPiece p depth).text = String.ofList (Sigil.split (Text.trim p.chars)).2 := by
  simp [ofPiece, h]

theorem acceptsArrow_finalKind (kind : Sigil) (text : String) :
    (finalKind kind text).acceptsArrow = kind.acceptsArrow := by
  unfold finalKind
  split
  · next h => rw [h.1]; rfl
  · rfl

theorem acceptsArrow_of_arrow {arrow : Arrow} (h : (ofPiece p depth).arrow = some arrow) :
    (ofPiece p depth).kind.acceptsArrow = true := by
  have own : (Sigil.split (Text.trim p.chars)).1.acceptsArrow = true := by
    cases accepts : (Sigil.split (Text.trim p.chars)).1.acceptsArrow with
    | true => rfl
    | false => simp [ofPiece, accepts] at h
  exact (acceptsArrow_finalKind _ _).trans own

end Line

/-! ## Pieces -/

namespace Text.Piece

variable (p : Piece)

/-- A comment starts with two slashes. -/
def IsComment : Prop := ['/', '/'] <+: trim p.chars

/-- A break is made of three dashes or more. -/
def IsBreak : Prop := 3 ≤ (trim p.chars).length ∧ ∀ c ∈ trim p.chars, c = '-'

/-- A piece that starts with a character and has a name behind it. -/
def Names (c : Char) : Prop := ∃ rest, trim p.chars = c :: rest ∧ trim rest ≠ []

instance : Decidable p.IsComment := inferInstanceAs (Decidable (_ <+: _))

instance : Decidable p.IsBreak :=
  decidable_of_iff (3 ≤ (trim p.chars).length ∧ (trim p.chars).all (· == '-') = true) <| by
    simp [IsBreak]

instance (c : Char) : Decidable (p.Names c) :=
  decidable_of_iff ((trim p.chars).head? = some c ∧ trim (trim p.chars).tail ≠ []) <| by
    unfold Names
    cases trim p.chars <;> simp [and_assoc]

variable {p} (depth : Nat)

theorem isComment_iff : p.IsComment ↔ Statement.ofLine (Line.ofPiece p depth) = .comment := by
  rw [Statement.ofLine_eq_comment, Line.kind_ofPiece _ _ (by decide) (by decide),
    Sigil.split_eq_comment]
  rfl

theorem isBreak_iff : p.IsBreak ↔ Statement.ofLine (Line.ofPiece p depth) = .flowBreak := by
  rw [Statement.ofLine_eq_flowBreak, Line.kind_ofPiece _ _ (by decide) (by decide),
    Sigil.split_eq_connectionBreak]
  simp [IsBreak, Sigil.isRule]

/-- What a piece names behind a character, without the blanks around it. -/
def named? (c : Char) (p : Piece) : Option String :=
  match trim p.chars with
  | [] => none
  | first :: rest =>
    if first = c ∧ trim rest ≠ [] then some (String.ofList (trim rest)) else none

theorem named?_eq_some {c : Char} {name : String} :
    p.named? c = some name ↔
      ∃ rest, trim p.chars = c :: rest ∧ trim rest ≠ [] ∧ name = String.ofList (trim rest) := by
  unfold named?
  cases trim p.chars with
  | nil => simp
  | cons first rest => grind

theorem named?_of_blank (blank : p.isWritten = false) (c : Char) : p.named? c = none := by
  have empty : trim p.chars = [] := by simpa [isWritten] using blank
  rw [named?, empty]

section

variable {c : Char} {kind : Sigil} (hc : Sigil.ofChar? c = some kind) (dash : c ≠ '-')
  (finish : kind ≠ .endEvent) (start : kind ≠ .startEvent) (arrow : kind.acceptsArrow = false)

include hc dash finish start arrow

/-- The text of a line of one of the kinds that only name something is what it names. -/
theorem named?_iff {name : String} :
    p.named? c = some name ↔
      (Line.ofPiece p depth).kind = kind ∧ (Line.ofPiece p depth).text ≠ "" ∧
        (Line.ofPiece p depth).text = name := by
  rw [Line.kind_ofPiece _ _ finish start, named?_eq_some]
  have behind {rest : List Char} (starts : trim p.chars = c :: rest) :
      Sigil.split (trim p.chars) = (kind, trim rest) := by
    rw [starts]
    exact Sigil.split_cons_of_ofChar? hc (Sigil.isRule_cons_of_ne dash rest)
  have text {rest : List Char} (starts : trim p.chars = c :: rest) :
      (Line.ofPiece p depth).text = String.ofList (trim rest) := by
    rw [Line.text_ofPiece _ _ (by rw [behind starts]; exact arrow), behind starts]
  constructor
  · rintro ⟨rest, starts, ne, rfl⟩
    exact ⟨by rw [behind starts], by simpa [text starts] using ne, text starts⟩
  · rintro ⟨own, ne, rfl⟩
    obtain ⟨-, rest, starts⟩ := Sigil.exists_cons_of_split (Sigil.char?_of_ofChar? hc) own
    exact ⟨rest, starts, by simpa [text starts] using ne, text starts⟩

theorem names_iff :
    p.Names c ↔ (Line.ofPiece p depth).kind = kind ∧ (Line.ofPiece p depth).text ≠ "" := by
  have named : p.Names c ↔ ∃ name, p.named? c = some name := by simp [Names, named?_eq_some]
  rw [named]
  simp [named?_iff depth hc dash finish start arrow]

end

theorem names_lane_iff :
    p.Names '@' ↔ ∃ name, Statement.ofLine (Line.ofPiece p depth) = .lane name :=
  (names_iff depth rfl (by decide) (by decide) (by decide) rfl).trans
    Statement.ofLine_eq_lane.symm

theorem names_process_iff :
    p.Names ':' ↔ ∃ name, Statement.ofLine (Line.ofPiece p depth) = .process name :=
  (names_iff depth rfl (by decide) (by decide) (by decide) rfl).trans
    Statement.ofLine_eq_process.symm

theorem named?_lane_iff {name : String} :
    p.named? '@' = some name ↔ Statement.ofLine (Line.ofPiece p depth) = .lane name := by
  rw [named?_iff depth rfl (by decide) (by decide) (by decide) rfl]
  constructor
  · rintro ⟨kind, ne, rfl⟩
    simp [Statement.ofLine, kind, ne, Statement.ofPayload]
  · intro h
    unfold Statement.ofLine Statement.ofPayload Statement.ofBranch Statement.ofData
      Statement.ofConnection at h
    grind

theorem named?_process_iff {name : String} :
    p.named? ':' = some name ↔ Statement.ofLine (Line.ofPiece p depth) = .process name := by
  rw [named?_iff depth rfl (by decide) (by decide) (by decide) rfl]
  constructor
  · rintro ⟨kind, ne, rfl⟩
    simp [Statement.ofLine, kind, ne, Statement.ofPayload]
  · intro h
    unfold Statement.ofLine Statement.ofPayload Statement.ofBranch Statement.ofData
      Statement.ofConnection at h
    grind

end Text.Piece

/-- The lines of a text that name something behind a character, in the words of its pieces. -/
theorem filterMap_scan_of_named? {limit : Nat} {text : String}
    (read : (scan limit text).failure = none) {β : Type} {f : Line → Option β} {c : Char}
    {g : Text.Piece → String → β}
    (same : ∀ p depth, f (Line.ofPiece p depth) = (p.named? c).map (g p)) :
    (scan limit text).lines.filterMap f =
      (Text.pieces text.toList).filterMap fun p => (p.named? c).map (g p) := by
  rw [(scan_isTwoPass limit text).filterMap_lines read same, Text.written, List.filterMap_filter]
  refine congrArg (List.filterMap · _) (funext fun p => ?_)
  cases blank : p.isWritten with
  | true => rfl
  | false => simp [Text.Piece.named?_of_blank blank]

/-! ## Branches -/

namespace Branch

/-- No bars stand at the start of a text, or nothing but blanks stands between them. -/
def IsBare (text : List Char) : Prop :=
  ∀ inner rest, text = '|' :: (inner ++ '|' :: rest) → '|' ∉ inner → Text.trim inner = []

/-- The label of a branch with a sign and a text: what stands between bars at the start of the text,
trimmed, and otherwise the answer that the sign gives. -/
inductive IsLabelled (text : List Char) : Sign → String → Prop
  | between {sign : Sign} {inner rest : List Char} (h : text = '|' :: (inner ++ '|' :: rest))
      (first : '|' ∉ inner) (ne : Text.trim inner ≠ []) :
      IsLabelled text sign (String.ofList (Text.trim inner))
  | positive (h : IsBare text) : IsLabelled text .positive "Yes"
  | negative (h : IsBare text) : IsLabelled text .negative "No"

theorem isLabelled_defaultLabel {text : List Char} (h : IsBare text) (sign : Sign) :
    IsLabelled text sign sign.defaultLabel := by
  cases sign with
  | positive => exact .positive h
  | negative => exact .negative h

end Branch

/-- A piece starts with the sign of a branch. The text of the branch ends where an arrow starts. -/
inductive Text.Piece.Opens (p : Piece) : Sign → String → Prop
  | positive {rest : List Char} (h : trim p.chars = '+' :: rest) :
      Opens p .positive (Arrow.splitInline (trim rest)).1
  | negative {rest : List Char} (h : trim p.chars = '-' :: rest) :
      Opens p .negative (Arrow.splitInline (trim rest)).1

theorem Text.Piece.opens_iff {p : Piece} {sign : Sign} {payload : String} :
    p.Opens sign payload ↔ ∃ c rest, Sigil.ofChar? c = some (.branch sign) ∧
      trim p.chars = c :: rest ∧ (Arrow.splitInline (trim rest)).1 = payload := by
  constructor
  · intro h
    cases h with
    | @positive rest starts => exact ⟨'+', rest, rfl, starts, rfl⟩
    | @negative rest starts => exact ⟨'-', rest, rfl, starts, rfl⟩
  · rintro ⟨c, rest, sigil, starts, rfl⟩
    have char := Sigil.char?_of_ofChar? sigil
    cases sign with
    | positive =>
      obtain rfl : '+' = c := Option.some.inj char
      exact .positive starts
    | negative =>
      obtain rfl : '-' = c := Option.some.inj char
      exact .negative starts

namespace Statement

theorem branchLabel?_eq_some {cs label behind : List Char} :
    branchLabel? cs = some (label, behind) ↔ ∃ inner rest, cs = '|' :: (inner ++ '|' :: rest) ∧
      '|' ∉ inner ∧ Text.trim inner = label ∧ Text.trim rest = behind := by
  constructor
  · intro h
    unfold branchLabel? at h
    split at h
    · next rest =>
      split at h
      · cases h
      · next c text found =>
        obtain ⟨rfl, rfl⟩ := Prod.mk.inj (Option.some.inj h)
        have bar : c = '|' := by
          have stop := List.head?_dropWhile_not (· != '|') rest
          simpa [found] using stop
        refine ⟨_, text, ?_, fun mem => ?_, rfl, rfl⟩
        · rw [← bar] at found ⊢
          rw [← found, List.takeWhile_append_dropWhile]
        · simpa using List.mem_takeWhile_imp mem
    · cases h
  · rintro ⟨inner, rest, rfl, first, rfl, rfl⟩
    have inside (c : Char) (hc : c ∈ inner) : (c != '|') = true := by
      simpa using fun same : c = '|' => first (same ▸ hc)
    simp [branchLabel?, List.dropWhile_append_of_pos inside, List.takeWhile_append_of_pos inside]

/-- The label of a branch is the one that its text says. -/
theorem isLabelled_of_ofBranch {sign sign' : Sign} {label : Option String} {payload text : String}
    (h : ofBranch sign payload = .branch sign' label text) :
    Branch.IsLabelled payload.toList sign (label.getD sign.defaultLabel) := by
  unfold ofBranch at h
  cases found : branchLabel? payload.toList with
  | none =>
    rw [found] at h
    cases h
    refine Branch.isLabelled_defaultLabel (fun inner rest bars first => ?_) sign
    rw [branchLabel?_eq_some.2 ⟨inner, rest, bars, first, rfl, rfl⟩] at found
    cases found
  | some parts =>
    obtain ⟨between, behind⟩ := parts
    obtain ⟨inner, rest, bars, first, trimmed, -⟩ := branchLabel?_eq_some.1 found
    simp only [found] at h
    split at h
    · cases h
    · cases h
      by_cases empty : between = []
      · rw [empty]
        refine Branch.isLabelled_defaultLabel (fun inner' rest' bars' first' => ?_) sign
        have same := branchLabel?_eq_some.2 ⟨inner', rest', bars', first', rfl, rfl⟩
        rw [found] at same
        simp only [Option.some.injEq, Prod.mk.injEq] at same
        rw [← same.1, empty]
      · rw [nonempty?, if_neg (by simpa using empty), ← trimmed]
        exact .between bars first (trimmed ▸ empty)

theorem ofLine_of_kind {l : Line} {sign : Sign} (kind : l.kind = .branch sign) :
    ofLine l = if l.text = "" then .empty else ofBranch sign l.text := by
  simp [ofLine, kind, ofPayload]

variable {p : Text.Piece} {sign : Sign}

/-- The line of a branch, told by its characters. -/
theorem opens_of_ofLine_branch {depth : Nat} {label : Option String} {text : String}
    (h : ofLine (Line.ofPiece p depth) = .branch sign label text) :
    ∃ payload, p.Opens sign payload ∧
      Branch.IsLabelled payload.toList sign (label.getD sign.defaultLabel) := by
  have kind := kind_of_ofLine_branch h
  rw [ofLine_of_kind kind] at h
  split at h
  · cases h
  · refine ⟨_, Text.Piece.opens_iff.2 ?_, isLabelled_of_ofBranch h⟩
    rw [Line.kind_ofPiece _ _ (by simp) (by simp)] at kind
    obtain ⟨c, char, sigil⟩ : ∃ c, (Sigil.branch sign).char? = some c ∧
        Sigil.ofChar? c = some (.branch sign) := by
      cases sign with
      | positive => exact ⟨'+', rfl, rfl⟩
      | negative => exact ⟨'-', rfl, rfl⟩
    obtain ⟨rule, rest, starts⟩ := Sigil.exists_cons_of_split char kind
    have split := Sigil.split_cons_of_ofChar? sigil (starts ▸ rule)
    refine ⟨c, rest, sigil, starts, ?_⟩
    simp [Line.ofPiece, starts, split, Sigil.acceptsArrow]

/-- What a line can state that starts with the sign of a branch. -/
theorem ofLine_of_opens {payload : String} (h : p.Opens sign payload) (depth : Nat) :
    ofLine (Line.ofPiece p depth) = .flowBreak ∨ ofLine (Line.ofPiece p depth) = .empty ∨
      ∃ label text, ofLine (Line.ofPiece p depth) = .branch sign label text := by
  obtain ⟨c, rest, sigil, starts, -⟩ := Text.Piece.opens_iff.1 h
  cases rule : Sigil.isRule (c :: rest) with
  | true =>
    rw [ofLine_eq_flowBreak, Line.kind_ofPiece _ _ (by simp) (by simp),
      Sigil.split_eq_connectionBreak, starts]
    exact .inl rule
  | false =>
    have kind : (Line.ofPiece p depth).kind = .branch sign := by
      rw [Line.kind_ofPiece _ _ (by simp) (by simp), starts, Sigil.split_cons_of_ofChar? sigil rule]
    rw [ofLine_of_kind kind]
    refine .inr ?_
    split
    · exact .inl rfl
    · unfold ofBranch
      split
      · exact .inr ⟨none, _, rfl⟩
      · split
        · exact .inl rfl
        · exact .inr ⟨_, _, rfl⟩

end Statement

end Swimlane
