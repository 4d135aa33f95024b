import Swimlane.Source.Line

/-!
# Depths in two passes

The reader finds out the unit of indentation on the way. Its lines can be told in two passes, too:
the first one looks for the unit of the whole text, the second one measures every line by it. An
indentation is well-formed when it is a number of units; a line with another indentation takes over
the depth of the line before it. Only a well-formed line can be too deep.

## Main definitions

* `IndentUnit.shownBy?`, `IndentUnit.depth?`: the unit that an indentation shows, and its depth
  under the unit of a text;
* `Text.unit?`: the unit of a text;
* `Line.inherit`: the depths of lines of which some are well-formed;
* `Scan.IsTwoPass`: a scan as it is told in two passes.

## Main statements

* `Indentation.toOption_depth`: what the reader measures under the unit it knows;
* `Reader.isTwoPass_readAll`: the reader and the two passes agree;
* `Reader.unit_readAll_ne`: the reader never measures by a unit of no spaces.
-/

namespace Swimlane

namespace IndentUnit

/-- The unit that an indentation shows by itself: its width, when it is all spaces, and a tab, when
it is all tabs. -/
def shownBy? (cs : List Char) : Option IndentUnit :=
  if cs = [] then none
  else if cs.all (· == ' ') then some (.spaces cs.length)
  else if cs.all (· == '\t') then some .tab
  else none

/-- The depth of a well-formed indentation. It is empty, or it consists of what the unit of the text
consists of, and its width is a multiple of the unit. -/
def depth? (unit : Option IndentUnit) (cs : List Char) : Option Nat :=
  if cs = [] then some 0
  else match unit with
    | none => none
    | some (.spaces width) =>
      if cs.all (· == ' ') ∧ width ∣ cs.length then some (cs.length / width) else none
    | some .tab => if cs.all (· == '\t') then some cs.length else none

/-- A unit that is found out later does not matter for an indentation that shows none. -/
theorem depth?_or {known : Option IndentUnit} {cs : List Char}
    (h : known = none → shownBy? cs = none) (more : Option IndentUnit) :
    depth? (known.or more) cs = depth? known cs := by
  cases known with
  | some unit => rfl
  | none =>
    by_cases empty : cs = []
    · simp [depth?, empty]
    · have shows := h rfl
      rw [shownBy?, if_neg empty] at shows
      have spaces : ¬ cs.all (· == ' ') = true := by
        intro all
        rw [if_pos all] at shows
        cases shows
      have tabs : ¬ cs.all (· == '\t') = true := by
        intro all
        rw [if_neg spaces, if_pos all] at shows
        cases shows
      simp only [Option.none_or, depth?, if_neg empty]
      rcases more with _ | ⟨width⟩ | _
      · rfl
      · exact if_neg fun fits => spaces fits.1
      · exact if_neg tabs

end IndentUnit

namespace Indentation

/-- The four shapes of an indentation, and the unit that each of them shows. -/
theorem ofChars_cases (cs : List Char) :
    (cs = [] ∧ ofChars cs = .none ∧ IndentUnit.shownBy? cs = Option.none) ∨
      (cs ≠ [] ∧ (∀ c ∈ cs, c = ' ') ∧ (¬ ∀ c ∈ cs, c = '\t') ∧ ofChars cs = .spaces cs.length ∧
        IndentUnit.shownBy? cs = some (.spaces cs.length)) ∨
      (cs ≠ [] ∧ (¬ ∀ c ∈ cs, c = ' ') ∧ (∀ c ∈ cs, c = '\t') ∧ ofChars cs = .tabs cs.length ∧
        IndentUnit.shownBy? cs = some .tab) ∨
      (cs ≠ [] ∧ (¬ ∀ c ∈ cs, c = ' ') ∧ (¬ ∀ c ∈ cs, c = '\t') ∧ ofChars cs = .mixed ∧
        IndentUnit.shownBy? cs = Option.none) := by
  unfold ofChars IndentUnit.shownBy?
  simp only [List.all_eq_true, beq_iff_eq, List.isEmpty_iff]
  by_cases empty : cs = []
  · exact .inl (by simp [empty])
  by_cases spaces : ∀ c ∈ cs, c = ' '
  · obtain ⟨c, hc⟩ := List.exists_mem_of_ne_nil cs empty
    have tabs : ¬ ∀ c ∈ cs, c = '\t' := fun tabs => by
      have := (spaces c hc).symm.trans (tabs c hc)
      contradiction
    simp only [empty, if_pos spaces]
    exact .inr (.inl ⟨empty, spaces, tabs, rfl, rfl⟩)
  by_cases tabs : ∀ c ∈ cs, c = '\t'
  · simp only [empty, if_neg spaces, if_pos tabs]
    exact .inr (.inr (.inl ⟨empty, spaces, tabs, rfl, rfl⟩))
  · simp only [empty, if_neg spaces, if_neg tabs]
    exact .inr (.inr (.inr ⟨empty, spaces, tabs, rfl, rfl⟩))

theorem unit?_ofChars (cs : List Char) : (ofChars cs).unit? = IndentUnit.shownBy? cs := by
  rcases ofChars_cases cs with ⟨-, read, shown⟩ | ⟨-, -, -, read, shown⟩ |
    ⟨-, -, -, read, shown⟩ | ⟨-, -, -, read, shown⟩ <;> rw [read, shown] <;> rfl

/-- Where no unit is known, an indentation is measured by the one that it shows. -/
theorem depth_or_unit? (unit : Option IndentUnit) (i : Indentation) :
    i.depth (unit.or i.unit?) = i.depth unit := by
  cases unit <;> cases i <;> rfl

/-- An indentation has the depth that it has under the unit known behind it. -/
theorem toOption_depth (unit : Option IndentUnit) (cs : List Char) :
    ((ofChars cs).depth unit).toOption =
      IndentUnit.depth? (unit.or (IndentUnit.shownBy? cs)) cs := by
  have or_some (u : IndentUnit) : unit.or (some u) = some (unit.getD u) := by cases unit <;> rfl
  rw [← depth_or_unit?, unit?_ofChars]
  rcases ofChars_cases cs with ⟨empty, read, shown⟩ | ⟨ne, spaces, tabs, read, shown⟩ |
    ⟨ne, spaces, tabs, read, shown⟩ | ⟨ne, spaces, tabs, read, shown⟩ <;> rw [read, shown]
  · simp [depth, IndentUnit.depth?, empty, Except.toOption]
  · rw [or_some]
    cases unit.getD (.spaces cs.length) with
    | spaces width =>
      simp only [depth, IndentUnit.depth?, if_neg ne, List.all_eq_true, beq_iff_eq,
        Nat.dvd_iff_mod_eq_zero, Option.getD_some]
      by_cases multiple : cs.length % width = 0
      · rw [if_pos multiple, if_pos ⟨spaces, multiple⟩]
        rfl
      · rw [if_neg multiple, if_neg fun h => multiple h.2]
        rfl
    | tab =>
      simp only [IndentUnit.depth?, if_neg ne, List.all_eq_true, beq_iff_eq, if_neg tabs]
      rfl
  · rw [or_some]
    cases unit.getD .tab with
    | spaces width =>
      simp only [IndentUnit.depth?, if_neg ne, List.all_eq_true, beq_iff_eq, spaces, false_and,
        if_false]
      rfl
    | tab =>
      simp only [IndentUnit.depth?, if_neg ne, List.all_eq_true, beq_iff_eq, if_pos tabs]
      rfl
  · rw [Option.or_none]
    rcases unit with _ | ⟨width⟩ | _
    · simp only [IndentUnit.depth?, if_neg ne]
      rfl
    · simp only [IndentUnit.depth?, if_neg ne, List.all_eq_true, beq_iff_eq, spaces, false_and,
        if_false]
      rfl
    · simp only [IndentUnit.depth?, if_neg ne, List.all_eq_true, beq_iff_eq, if_neg tabs]
      rfl

end Indentation

/-! ## Texts -/

namespace Text

/-- A piece that is not blank. -/
def Piece.isWritten (p : Piece) : Bool := !(trim p.chars).isEmpty

/-- The pieces that are not blank. -/
def written (ps : List Piece) : List Piece := ps.filter (·.isWritten)

/-- The unit of a text, told by the first of its written pieces that shows one. -/
def unit? (ps : List Piece) : Option IndentUnit :=
  ps.findSome? fun p => IndentUnit.shownBy? (indentation p.chars)

theorem unit?_cons (p : Piece) (ps : List Piece) :
    unit? (p :: ps) = (IndentUnit.shownBy? (indentation p.chars)).or (unit? ps) := by
  rw [unit?, List.findSome?_cons]
  cases IndentUnit.shownBy? (indentation p.chars) <;> rfl

/-- The depth of a piece, if it is indented well. -/
def Piece.depth? (unit : Option IndentUnit) (p : Piece) : Option Nat :=
  IndentUnit.depth? unit (indentation p.chars)

/-- The failure of a piece that is nested too deeply. -/
def Piece.tooDeep (limit : Nat) (p : Piece) (depth : Nat) : Failure :=
  { kind := .structural
    message := "line " ++ toString p.number ++ " is nested " ++ toString depth ++
      " levels deep, the limit is " ++ toString limit
    line := some p.number
    span := some (Line.spanOf p) }

/-- The failure of a piece, if it is indented well and too deeply. -/
def Piece.failure? (limit : Nat) (unit : Option IndentUnit) (p : Piece) : Option Failure :=
  ((p.depth? unit).filter (limit < ·)).map (p.tooDeep limit)

theorem Piece.failure?_eq_some {limit : Nat} {unit : Option IndentUnit} {p : Piece} {f : Failure} :
    p.failure? limit unit = some f ↔
      ∃ depth, p.depth? unit = some depth ∧ limit < depth ∧ p.tooDeep limit depth = f := by
  simp [failure?, Option.filter_eq_some_iff, and_assoc]

theorem Piece.failure?_eq_none {limit : Nat} {unit : Option IndentUnit} {p : Piece} :
    p.failure? limit unit = none ↔ ∀ depth, p.depth? unit = some depth → depth ≤ limit := by
  simp [failure?, Option.filter_eq_none_iff]

end Text

/-- The depths of lines: a line without a depth of its own takes over the one before it. -/
def Line.inherit (before : Nat) : List (Option Nat) → List Nat
  | [] => []
  | depth :: depths => depth.getD before :: inherit (depth.getD before) depths

theorem Line.length_inherit (before : Nat) (depths : List (Option Nat)) :
    (inherit before depths).length = depths.length := by
  induction depths generalizing before with
  | nil => rfl
  | cons depth depths ih => rw [inherit, List.length_cons, ih, List.length_cons]

theorem Line.map_depth_zipWith {ps : List Text.Piece} {depths : List Nat}
    (h : depths.length ≤ ps.length) :
    (List.zipWith ofPiece ps depths).map (·.depth) = depths := by
  rw [List.map_zipWith, ← List.map_uncurry_zip_eq_zipWith]
  exact List.map_snd_zip h

open Text (written unit?)

/-- A scan of written pieces as it is told in two passes: it fails at the first piece that is
indented well and too deeply. Where it does not fail, every piece is a line, and those that are
indented badly have a warning each. -/
structure Scan.IsTwoPass (s : Scan) (limit : Nat) (unit : Option IndentUnit) (before : Nat)
    (ps : List Text.Piece) : Prop where
  failure : s.failure = ps.findSome? (Text.Piece.failure? limit unit)
  lines : s.failure = none →
    s.lines = List.zipWith Line.ofPiece ps (Line.inherit before (ps.map (·.depth? unit)))
  misfits : s.failure = none →
    (s.warnings.filter (·.kind = .malformedIndentation)).map (fun x => (x.line, x.span)) =
      (ps.filter fun p => p.depth? unit = none).map fun p => (p.number, Line.spanOf p)
  others : s.failure = none →
    s.warnings.filter (·.kind ≠ .malformedIndentation) = ps.flatMap Line.sigilWarning
  bounded : ∀ l ∈ s.lines, l.depth ≤ limit

namespace Scan.IsTwoPass

variable {s : Scan} {limit before : Nat} {unit : Option IndentUnit} {ps : List Text.Piece}
  (h : s.IsTwoPass limit unit before ps) (read : s.failure = none)

include h read

/-- The depths that lines are read at. -/
theorem map_depth_lines :
    s.lines.map (·.depth) = Line.inherit before (ps.map (·.depth? unit)) := by
  rw [h.lines read]
  exact Line.map_depth_zipWith (by simp [Line.length_inherit])

/-- Every line is read from a piece. -/
theorem exists_piece {l : Line} (hl : l ∈ s.lines) : ∃ p ∈ ps, l = Line.ofPiece p l.depth := by
  rw [h.lines read, ← List.map_uncurry_zip_eq_zipWith] at hl
  obtain ⟨⟨p, depth⟩, hp, rfl⟩ := List.mem_map.1 hl
  exact ⟨p, (List.of_mem_zip hp).1, rfl⟩

/-- Every piece becomes a line. -/
theorem exists_line {p : Text.Piece} (hp : p ∈ ps) : ∃ l ∈ s.lines, l = Line.ofPiece p l.depth := by
  let depths := Line.inherit before (ps.map (·.depth? unit))
  have length : ps.length ≤ depths.length := by simp [depths, Line.length_inherit]
  rw [← List.map_fst_zip length] at hp
  obtain ⟨⟨p, depth⟩, mem, rfl⟩ := List.mem_map.1 hp
  refine ⟨Line.ofPiece p depth, ?_, rfl⟩
  rw [h.lines read, ← List.map_uncurry_zip_eq_zipWith]
  exact List.mem_map.2 ⟨(p, depth), mem, rfl⟩

/-- What is told of lines by their pieces alone. -/
theorem filterMap_lines {β : Type} {f : Line → Option β} {g : Text.Piece → Option β}
    (same : ∀ p depth, f (Line.ofPiece p depth) = g p) : s.lines.filterMap f = ps.filterMap g := by
  let depths := Line.inherit before (ps.map (·.depth? unit))
  have length : ps.length ≤ depths.length := by simp [depths, Line.length_inherit]
  calc s.lines.filterMap f
    _ = (ps.zip depths).filterMap (g ·.1) := by
      rw [h.lines read, ← List.map_uncurry_zip_eq_zipWith, List.filterMap_map]
      exact congrArg (List.filterMap · _) (funext fun ⟨p, depth⟩ => same p depth)
    _ = ps.filterMap g := by
      rw [← Function.comp_def g Prod.fst, ← List.filterMap_map, List.map_fst_zip length]

end Scan.IsTwoPass

theorem Line.kind_of_mem_sigilWarning {p : Text.Piece} {x : Diagnostic}
    (h : x ∈ sigilWarning p) : x.kind = .unknownSigil := by
  unfold sigilWarning at h
  split at h
  · split at h
    · exact List.mem_singleton.1 h ▸ rfl
    · cases h
  · cases h

/-- Only two kinds of warnings come from reading lines. -/
theorem Scan.IsTwoPass.kind_of_mem_warnings {s : Scan} {limit before : Nat}
    {unit : Option IndentUnit} {ps : List Text.Piece} (h : s.IsTwoPass limit unit before ps)
    (read : s.failure = none) {x : Diagnostic} (hx : x ∈ s.warnings) :
    x.kind = .malformedIndentation ∨ x.kind = .unknownSigil := by
  by_cases misfit : x.kind = .malformedIndentation
  · exact .inl misfit
  · have sigil : x ∈ s.warnings.filter (·.kind ≠ .malformedIndentation) :=
      List.mem_filter.2 ⟨hx, by simpa using misfit⟩
    rw [h.others read] at sigil
    obtain ⟨p, -, own⟩ := List.mem_flatMap.1 sigil
    exact .inr (Line.kind_of_mem_sigilWarning own)

/-- A piece in front of others that is not too deep. It has a warning of its own exactly when it is
indented badly. -/
theorem Scan.IsTwoPass.cons {s : Scan} {limit before depth : Nat} {unit : Option IndentUnit}
    {p : Text.Piece} {ps : List Text.Piece} (h : s.IsTwoPass limit unit depth ps)
    (own : depth = (p.depth? unit).getD before) (bound : depth ≤ limit) (misfits : List Diagnostic)
    (kinds : ∀ x ∈ misfits, x.kind = .malformedIndentation)
    (places : misfits.map (fun x => (x.line, x.span)) =
      ([p].filter fun p => p.depth? unit = none).map fun p => (p.number, Line.spanOf p)) :
    Scan.IsTwoPass ⟨s.reader, Line.ofPiece p depth :: s.lines,
      misfits ++ Line.sigilWarning p ++ s.warnings, s.failure⟩ limit unit before (p :: ps) where
  failure := by
    have passes : p.failure? limit unit = none := by
      refine Text.Piece.failure?_eq_none.2 fun d measured => ?_
      obtain rfl : depth = d := by simpa [measured] using own
      exact bound
    rw [List.findSome?_cons, passes]
    exact h.failure
  lines := by
    intro read
    rw [List.map_cons, Line.inherit, ← own, List.zipWith_cons_cons, ← h.lines read]
  misfits := by
    intro read
    have sigil : (Line.sigilWarning p).filter (·.kind = .malformedIndentation) = [] :=
      List.filter_eq_nil_iff.2 fun x hx => by simp [Line.kind_of_mem_sigilWarning hx]
    have all : misfits.filter (·.kind = .malformedIndentation) = misfits :=
      List.filter_eq_self.2 fun x hx => by simp [kinds x hx]
    rw [List.filter_append, List.filter_append, sigil, all, List.append_nil, List.map_append,
      places, h.misfits read, ← List.map_append, ← List.filter_append]
    rfl
  others := by
    intro read
    have sigil : (Line.sigilWarning p).filter (·.kind ≠ .malformedIndentation) =
        Line.sigilWarning p :=
      List.filter_eq_self.2 fun x hx => by simp [Line.kind_of_mem_sigilWarning hx]
    have others : misfits.filter (·.kind ≠ .malformedIndentation) = [] :=
      List.filter_eq_nil_iff.2 fun x hx => by simp [kinds x hx]
    rw [List.filter_append, List.filter_append, sigil, others, h.others read]
    rfl
  bounded := by
    intro l hl
    rcases List.mem_cons.1 hl with rfl | hl
    · exact bound
    · exact h.bounded l hl

namespace Reader

variable {limit : Nat} {r : Reader} {p : Text.Piece} {depth : Nat}

/-- The unit that is known behind a piece. -/
def unitAfter (r : Reader) (p : Text.Piece) : Option IndentUnit :=
  r.unit.or (IndentUnit.shownBy? (Text.indentation p.chars))

theorem read_of_blank (blank : p.isWritten = false) : r.read limit p = ⟨r, [], .ok none⟩ := by
  have blank : (Text.trim p.chars).isEmpty = true := by simpa [Text.Piece.isWritten] using blank
  simp [read, blank]

/-- What is read of a written piece, by what is measured of it. -/
theorem read_of_written (h : p.isWritten = true) :
    r.read limit p =
      let m := r.measure (.ofChars (Text.indentation p.chars)) p.number (Line.spanOf p)
      if limit < m.1 then ⟨⟨r.unitAfter p, r.depth⟩, m.2, .error (p.tooDeep limit m.1)⟩
      else ⟨⟨r.unitAfter p, m.1⟩, m.2 ++ Line.sigilWarning p, .ok (some (Line.ofPiece p m.1))⟩ := by
  have h : (Text.trim p.chars).isEmpty = false := by simpa [Text.Piece.isWritten] using h
  simp only [read, h, Indentation.unit?_ofChars]
  rfl

theorem unit_read (limit : Nat) (h : p.isWritten = true) :
    (r.read limit p).reader.unit = r.unitAfter p := by
  rw [read_of_written h]
  simp only
  split <;> rfl

theorem measure_of_some (h : p.depth? (r.unitAfter p) = some depth) :
    r.measure (.ofChars (Text.indentation p.chars)) p.number (Line.spanOf p) = (depth, []) := by
  rw [Text.Piece.depth?, unitAfter, ← Indentation.toOption_depth] at h
  unfold measure
  cases measured : (Indentation.ofChars (Text.indentation p.chars)).depth r.unit with
  | ok d =>
    rw [measured] at h
    exact congrArg (·, []) (Option.some.inj h)
  | error misfit =>
    rw [measured] at h
    cases h

theorem measure_of_none (h : p.depth? (r.unitAfter p) = none) :
    ∃ x : Diagnostic, x.kind = .malformedIndentation ∧ x.line = p.number ∧ x.span = Line.spanOf p ∧
      r.measure (.ofChars (Text.indentation p.chars)) p.number (Line.spanOf p) =
        (r.depth, [x]) := by
  rw [Text.Piece.depth?, unitAfter, ← Indentation.toOption_depth] at h
  unfold measure
  cases measured : (Indentation.ofChars (Text.indentation p.chars)).depth r.unit with
  | ok d =>
    rw [measured] at h
    cases h
  | error misfit => exact ⟨_, rfl, rfl, rfl, rfl⟩

/-- A piece has the same depth whether it is measured by the unit known behind it or by that of the
whole text. -/
theorem depth?_unitAfter (r : Reader) (p : Text.Piece) (ps : List Text.Piece) :
    p.depth? (r.unit.or (unit? (p :: ps))) = p.depth? (r.unitAfter p) ∧
      r.unit.or (unit? (p :: ps)) = (r.unitAfter p).or (unit? ps) := by
  have same : r.unit.or (unit? (p :: ps)) = (r.unitAfter p).or (unit? ps) := by
    rw [Text.unit?_cons, ← Option.or_assoc, unitAfter]
  refine ⟨?_, same⟩
  rw [same, Text.Piece.depth?, Text.Piece.depth?]
  exact IndentUnit.depth?_or (fun unknown => (Option.or_eq_none_iff.1 unknown).2) _

/-- The reader and the two passes agree. -/
theorem isTwoPass_readAll (ps : List Text.Piece) (r : Reader) (hr : r.depth ≤ limit) :
    (r.readAll limit ps).IsTwoPass limit (r.unit.or (unit? (written ps))) r.depth (written ps) := by
  -- The induction is on the pieces; the unit of the whole text is what the reader knows already,
  -- or else what the pieces still to come show.
  induction ps generalizing r with
  | nil => exact ⟨rfl, fun _ => rfl, fun _ => rfl, fun _ => rfl, by simp [readAll]⟩
  | cons p ps ih =>
    rw [readAll]
    cases written' : p.isWritten with
    | false =>
      have skip : written (p :: ps) = written ps := by simp [written, written']
      rw [read_of_blank written', skip]
      simpa using ih r hr
    | true =>
      have keep : written (p :: ps) = p :: written ps := by simp [written, written']
      obtain ⟨depths, units⟩ := depth?_unitAfter r p (written ps)
      rw [keep, read_of_written written']
      cases measured : p.depth? (r.unitAfter p) with
      | none =>
        obtain ⟨x, kind, line, span, misfit⟩ := measure_of_none measured
        have rest := ih ⟨r.unitAfter p, r.depth⟩ hr
        rw [← units] at rest
        rw [misfit]
        simp only [Nat.not_lt.2 hr, if_false]
        refine rest.cons ?_ hr [x] ?_ ?_
        · rw [depths, measured]
          rfl
        · simpa using kind
        · simp [depths, measured, line, span]
      | some depth =>
        rw [measure_of_some measured]
        by_cases deep : limit < depth
        · have fails : p.failure? limit (r.unit.or (unit? (p :: written ps))) =
              some (p.tooDeep limit depth) :=
            Text.Piece.failure?_eq_some.2 ⟨depth, depths.trans measured, deep, rfl⟩
          simp only [if_pos deep]
          refine ⟨?_, by simp, by simp, by simp, by simp⟩
          rw [List.findSome?_cons, fails]
        · have rest := ih ⟨r.unitAfter p, depth⟩ (Nat.not_lt.1 deep)
          rw [← units] at rest
          simp only [if_neg deep]
          refine rest.cons ?_ (Nat.not_lt.1 deep) [] ?_ ?_
          · rw [depths, measured]
            rfl
          · simp
          · simp [depths, measured]

theorem unit_read_ne (limit : Nat) (h : r.unit ≠ some (.spaces 0)) (p : Text.Piece) :
    (r.read limit p).reader.unit ≠ some (.spaces 0) := by
  cases written' : p.isWritten with
  | false => rwa [read_of_blank written']
  | true =>
    rw [unit_read limit written', unitAfter]
    cases known : r.unit with
    | some unit => rwa [Option.some_or, ← known]
    | none =>
      rcases Indentation.ofChars_cases (Text.indentation p.chars) with ⟨-, -, shown⟩ |
        ⟨ne, -, -, -, shown⟩ | ⟨-, -, -, -, shown⟩ | ⟨-, -, -, -, shown⟩
      · simp [shown]
      · simpa [shown] using ne
      · simp [shown]
      · simp [shown]

/-- No unit that the reader fixes is a unit of no spaces. -/
theorem unit_readAll_ne (limit : Nat) (h : r.unit ≠ some (.spaces 0)) (ps : List Text.Piece) :
    (r.readAll limit ps).reader.unit ≠ some (.spaces 0) := by
  induction ps generalizing r with
  | nil => exact h
  | cons p ps ih =>
    have first := unit_read_ne limit h p
    rw [readAll]
    cases (r.read limit p).outcome with
    | error failure => exact first
    | ok line => exact ih first

end Reader

/-- A text is read as it is told in two passes. -/
theorem scan_isTwoPass (limit : Nat) (text : String) :
    (scan limit text).IsTwoPass limit (unit? (written (Text.pieces text.toList))) 0
      (written (Text.pieces text.toList)) :=
  Reader.isTwoPass_readAll _ {} (Nat.zero_le limit)

end Swimlane
