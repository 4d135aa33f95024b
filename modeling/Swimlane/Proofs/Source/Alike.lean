import Mathlib.Data.List.Forall2
import Swimlane.Proofs.Renumber
import Swimlane.Proofs.Source.Segment
import Swimlane.Proofs.Source.TwoPass

/-!
# Texts that are read alike

Pieces are alike when they are indented the same and hold the same text. Where they stand does not
matter, and blank pieces do not count. Readers read alike pieces alike when they agree on them: one
of them may know a unit that the other one finds out only later, and they may stand at different
depths as long as the next piece has a depth of its own.

## Main definitions

* `Text.Piece.Alike`: pieces that hold the same line;
* `Reader.Agree`: readers that measure the pieces to come alike;
* `Scan.followedBy`: what is read in two parts;
* `Scan.Alike`: scans with the same lines, warnings and failures.

## Main statements

* `Reader.readAll_written`, `Reader.readAll_append`: reading around blank pieces and in two parts;
* `Reader.alike_readAll`: readers that agree read alike pieces alike;
* `Reader.agree_iff_alike`: only readers that agree do so;
* `Text.alike_scan`: texts whose written pieces are alike are read alike.
-/

namespace Swimlane

open Text (Piece written unit?)

/-! ## Pieces -/

/-- Pieces that hold the same line, the second one under the number that the first one gets. -/
structure Text.Piece.Alike (f : Nat → Nat) (p q : Piece) : Prop where
  number : f p.number = q.number
  indentation : Text.indentation p.chars = Text.indentation q.chars
  text : trim p.chars = trim q.chars

namespace Text

variable {f : Nat → Nat} {p q : Piece} {ps qs : List Piece}

theorem Piece.Alike.isWritten (h : p.Alike f q) : p.isWritten = q.isWritten := by
  rw [Piece.isWritten, Piece.isWritten, h.text]

theorem Piece.Alike.depth? (h : p.Alike f q) (unit : Option IndentUnit) :
    p.depth? unit = q.depth? unit := by
  rw [Piece.depth?, Piece.depth?, h.indentation]

theorem unit?_append (ps qs : List Piece) : unit? (ps ++ qs) = (unit? ps).or (unit? qs) :=
  List.findSome?_append

theorem written_append (ps qs : List Piece) : written (ps ++ qs) = written ps ++ written qs :=
  List.filter_append ..

theorem isWritten_of_mem_written (hp : p ∈ written ps) : p.isWritten = true :=
  (List.mem_filter.1 hp).2

/-- Pieces are compared where they are written. -/
theorem alike_written_of_isWritten
    (h : List.Forall₂ (fun p q => p.isWritten = q.isWritten ∧ (p.isWritten = true → p.Alike f q))
      ps qs) :
    List.Forall₂ (Piece.Alike f) (written ps) (written qs) := by
  induction h with
  | nil => exact .nil
  | @cons p q ps qs same _ ih =>
    obtain ⟨both, alike⟩ := same
    unfold written at *
    cases hp : p.isWritten with
    | false =>
      rwa [List.filter_cons_of_neg (by simp [hp]),
        List.filter_cons_of_neg (by simp [← both, hp])]
    | true =>
      rw [List.filter_cons_of_pos hp, List.filter_cons_of_pos (both ▸ hp)]
      exact .cons (alike hp) ih

theorem alike_written (h : List.Forall₂ (Piece.Alike f) ps qs) :
    List.Forall₂ (Piece.Alike f) (written ps) (written qs) :=
  List.rel_filter (fun _ _ alike => by simp [alike.isWritten]) h

theorem map_depth?_of_alike (h : List.Forall₂ (Piece.Alike f) ps qs)
    (unit : Option IndentUnit) : ps.map (·.depth? unit) = qs.map (·.depth? unit) := by
  induction h with
  | nil => rfl
  | cons alike _ ih => rw [List.map_cons, List.map_cons, alike.depth?, ih]

theorem unit?_of_alike (h : List.Forall₂ (Piece.Alike f) ps qs) : unit? ps = unit? qs := by
  induction h with
  | nil => rfl
  | cons alike _ ih => rw [unit?_cons, unit?_cons, alike.indentation, ih]

theorem map_number_of_alike (h : List.Forall₂ (Piece.Alike f) ps qs) :
    ps.map (f ·.number) = qs.map (·.number) := by
  induction h with
  | nil => rfl
  | cons alike _ ih => rw [List.map_cons, List.map_cons, alike.number, ih]

end Text

/-! ## Reading -/

/-- What is read in two parts, the first of them without failure. -/
def Scan.followedBy (s s' : Scan) : Scan :=
  ⟨s'.reader, s.lines ++ s'.lines, s.warnings ++ s'.warnings, s'.failure⟩

namespace Reader

variable {limit : Nat} {r r' : Reader}

/-- Blank pieces are passed over. -/
theorem readAll_written (limit : Nat) (r : Reader) (ps : List Piece) :
    r.readAll limit (written ps) = r.readAll limit ps := by
  induction ps generalizing r with
  | nil => rfl
  | cons p ps ih =>
    cases written' : p.isWritten with
    | false =>
      have skip : written (p :: ps) = written ps := by simp [written, written']
      rw [skip, ih, readAll, read_of_blank written']
      rfl
    | true =>
      have keep : written (p :: ps) = p :: written ps := by simp [written, written']
      rw [keep, readAll, readAll]
      cases (r.read limit p).outcome with
      | error failure => rfl
      | ok line => simp only [ih]

/-- Behind pieces that are read without failure, the reader goes on with the others. -/
theorem readAll_append {ps : List Piece} (h : (r.readAll limit ps).failure = none)
    (qs : List Piece) :
    r.readAll limit (ps ++ qs) =
      (r.readAll limit ps).followedBy ((r.readAll limit ps).reader.readAll limit qs) := by
  induction ps generalizing r with
  | nil => rfl
  | cons p ps ih =>
    rw [List.cons_append, readAll, readAll]
    rw [readAll] at h
    cases outcome : (r.read limit p).outcome with
    | error failure => simp [outcome] at h
    | ok line =>
      rw [outcome] at h
      simp only [ih h, Scan.followedBy, List.append_assoc]

/-- The reader knows the first unit that has been shown. -/
theorem unit_readAll {ps : List Piece} (h : (r.readAll limit ps).failure = none) :
    (r.readAll limit ps).reader.unit = r.unit.or (unit? (written ps)) := by
  rw [← readAll_written] at h ⊢
  have all : ∀ p ∈ written ps, p.isWritten = true := fun p => Text.isWritten_of_mem_written
  generalize written ps = qs at *
  induction qs generalizing r with
  | nil => exact (Option.or_none).symm
  | cons p qs ih =>
    rw [readAll] at h ⊢
    cases outcome : (r.read limit p).outcome with
    | error failure => simp [outcome] at h
    | ok line =>
      rw [outcome] at h
      simp only
      rw [ih h fun q hq => all q (by simp [hq]), unit_read limit (all p (by simp)), unitAfter,
        Text.unit?_cons, Option.or_assoc]

/-! ## Readers that agree -/

/-- Readers that measure the written pieces to come alike. The second one may know the unit already
that these show, and where the two stand at different depths, no piece takes over its depth from
them. -/
structure Agree (r r' : Reader) (ps : List Piece) : Prop where
  unit : r.unit = r'.unit ∨ r.unit = none ∧ (unit? ps = none ∨ unit? ps = r'.unit)
  depth : r.depth = r'.depth ∨ ∀ p, ps.head? = some p → p.depth? (r.unitAfter p) ≠ none

theorem Agree.refl (r : Reader) (ps : List Piece) : r.Agree r ps := ⟨.inl rfl, .inl rfl⟩

/-- An indentation that shows no unit is measured the same under all of them. -/
theorem depth_of_unit?_eq_none {i : Indentation} (h : i.unit? = none)
    (u v : Option IndentUnit) : i.depth u = i.depth v := by
  cases i with
  | none => rfl
  | mixed => rfl
  | spaces width => cases h
  | tabs width => cases h

variable {f : Nat → Nat} {p q : Piece} {ps qs : List Piece}

namespace Agree

variable (agree : r.Agree r' (p :: ps))

include agree

/-- The next piece has the same depth for both readers. -/
theorem depth_eq :
    (Indentation.ofChars (Text.indentation p.chars)).depth r.unit =
      (Indentation.ofChars (Text.indentation p.chars)).depth r'.unit := by
  have shown := Indentation.unit?_ofChars (Text.indentation p.chars)
  generalize Indentation.ofChars (Text.indentation p.chars) = i at *
  rcases agree.unit with same | ⟨unknown, later⟩
  · rw [same]
  · cases own : i.unit? with
    | none => exact depth_of_unit?_eq_none own _ _
    | some unit =>
      have first : unit? (p :: ps) = some unit := by
        rw [Text.unit?_cons, ← shown, own, Option.some_or]
      have known : r'.unit = some unit := by
        rcases later with unshown | later
        · rw [first] at unshown
          cases unshown
        · rw [← later, first]
      rw [unknown, known, ← Indentation.depth_or_unit?, own, Option.none_or]

/-- Behind the next piece the readers know units that agree again. -/
theorem unitAfter (h : p.Alike f q) :
    r.unitAfter p = r'.unitAfter q ∨
      r.unitAfter p = none ∧ (unit? ps = none ∨ unit? ps = r'.unitAfter q) := by
  unfold Reader.unitAfter
  rw [← h.indentation]
  rcases agree.unit with same | ⟨unknown, later⟩
  · exact .inl (by rw [same])
  · rw [Text.unit?_cons] at later
    rw [unknown, Option.none_or]
    cases own : IndentUnit.shownBy? (Text.indentation p.chars) with
    | none =>
      rw [own, Option.none_or] at later
      exact .inr ⟨rfl, by rwa [Option.or_none]⟩
    | some unit =>
      rw [own, Option.some_or] at later
      rcases later with unshown | later
      · cases unshown
      · exact .inl (by rw [← later, Option.some_or])

/-- The two readers measure the next piece alike, with the same warnings. -/
theorem measure_eq (h : p.Alike f q) :
    let i := Indentation.ofChars (Text.indentation p.chars)
    let m := r.measure i p.number (Line.spanOf p)
    let m' := r'.measure i q.number (Line.spanOf q)
    m.1 = m'.1 ∧ m.2.map (·.renumber f) = m'.2.map (·.renumber id) := by
  have depths := agree.depth_eq
  have told := Indentation.toOption_depth r.unit (Text.indentation p.chars)
  unfold measure
  simp only [← depths]
  cases measured : (Indentation.ofChars (Text.indentation p.chars)).depth r.unit with
  | ok depth => exact ⟨rfl, rfl⟩
  | error misfit =>
    rw [measured] at told
    -- A piece without a depth of its own takes over that of the readers.
    have stand : r.depth = r'.depth :=
      agree.depth.resolve_right fun fits => fits p rfl told.symm
    refine ⟨stand, ?_⟩
    simp [stand, Diagnostic.renumber, Finding.toDiagnostic, h.number]

end Agree

end Reader

/-- Failures of alike pieces, each of which is nested too deeply. -/
def Failure.Alike (f : Nat → Nat) (limit : Nat) (x y : Failure) : Prop :=
  ∃ (p q : Piece) (depth : Nat), p.Alike f q ∧ x = p.tooDeep limit depth ∧
    y = q.tooDeep limit depth

/-- Scans with the same lines and warnings but for their positions, that fail at the same place. -/
structure Scan.Alike (f : Nat → Nat) (limit : Nat) (s s' : Scan) : Prop where
  lines : s.lines.map (·.renumber f) = s'.lines.map (·.renumber id)
  warnings : s.warnings.map (·.renumber f) = s'.warnings.map (·.renumber id)
  failure : Option.Rel (Failure.Alike f limit) s.failure s'.failure

theorem Scan.Alike.failure_eq_none {f : Nat → Nat} {limit : Nat} {s s' : Scan}
    (h : s.Alike f limit s') : s.failure = none ↔ s'.failure = none := by
  have related := h.failure
  cases failure : s.failure <;> cases failure' : s'.failure <;> simp_all

/-- Readers that agree read alike pieces alike. -/
theorem Reader.alike_readAll {limit : Nat} {f : Nat → Nat} {ps qs : List Piece}
    (h : List.Forall₂ (Piece.Alike f) ps qs) (all : ∀ p ∈ ps, p.isWritten = true) {r r' : Reader}
    (agree : r.Agree r' ps) : (r.readAll limit ps).Alike f limit (r'.readAll limit qs) := by
  induction h generalizing r r' with
  | nil => exact ⟨rfl, rfl, .none⟩
  | @cons p q ps qs alike _ ih =>
    have hp : p.isWritten = true := all p (by simp)
    obtain ⟨depth, warnings⟩ := agree.measure_eq alike
    have units := agree.unitAfter alike
    rw [readAll, readAll, read_of_written hp, read_of_written (alike.isWritten ▸ hp),
      ← alike.indentation]
    generalize r.measure _ p.number (Line.spanOf p) = m at *
    generalize r'.measure _ q.number (Line.spanOf q) = m' at *
    simp only [← depth]
    by_cases deep : limit < m.1
    · simp only [if_pos deep]
      exact ⟨rfl, warnings, .some ⟨p, q, m.1, alike, rfl, rfl⟩⟩
    · have agree' : Agree ⟨r.unitAfter p, m.1⟩ ⟨r'.unitAfter q, m.1⟩ ps := ⟨units, .inl rfl⟩
      have rest := ih (fun p hp => all p (by simp [hp])) agree'
      simp only [if_neg deep, List.append_assoc]
      refine ⟨?_, ?_, rest.failure⟩
      · simp only [Option.toList_some, List.singleton_append, List.map_cons, rest.lines,
          Line.ofPiece_renumber alike.number alike.text]
      · simp only [List.map_append, warnings, rest.warnings,
          Line.sigilWarning_renumber alike.number alike.text]

/-- Texts whose written pieces are alike are read alike. -/
theorem Text.alike_scan {f : Nat → Nat} {text text' : String}
    (h : List.Forall₂ (Piece.Alike f) (written (pieces text.toList))
      (written (pieces text'.toList))) (limit : Nat) :
    (scan limit text).Alike f limit (scan limit text') := by
  rw [scan, scan, ← Reader.readAll_written, ← Reader.readAll_written limit _ (pieces text'.toList)]
  exact Reader.alike_readAll h (fun p => Text.isWritten_of_mem_written) (.refl _ _)

/-! ## Readers that read alike -/

/-- An indentation is well-formed under the unit that it shows. -/
theorem IndentUnit.depth?_ne_none_of_shownBy? {unit : IndentUnit} {cs : List Char}
    (shown : shownBy? cs = some unit) : depth? (some unit) cs ≠ none := by
  have told := Indentation.toOption_depth none cs
  rw [shown, Option.none_or] at told
  rw [← told]
  rcases Indentation.ofChars_cases cs with ⟨-, -, hidden⟩ | ⟨ne, -, -, read, -⟩ |
    ⟨ne, -, -, read, -⟩ | ⟨-, -, -, -, hidden⟩
  · simp [shown] at hidden
  · simp [read, Indentation.depth, Except.toOption]
  · simp [read, Indentation.depth, Except.toOption]
  · simp [shown] at hidden

/-- Under another unit an indentation has another depth than under the unit that it shows. -/
theorem IndentUnit.eq_of_depth?_eq {unit unit' : IndentUnit} {cs : List Char}
    (shown : shownBy? cs = some unit) (h : depth? (some unit) cs = depth? (some unit') cs) :
    unit' = unit := by
  rcases Indentation.ofChars_cases cs with ⟨-, -, hidden⟩ | ⟨ne, spaces, tabs, -, own⟩ |
    ⟨ne, spaces, tabs, -, own⟩ | ⟨-, -, -, -, hidden⟩
  · simp [shown] at hidden
  · obtain rfl : unit = .spaces cs.length := by simpa [shown] using own
    have one : depth? (some (.spaces cs.length)) cs = some 1 := by
      have all : cs.all (· == ' ') = true := by simpa using spaces
      simp [depth?, ne, all, Nat.div_self (List.length_pos_iff.2 ne)]
    rw [one] at h
    cases unit' with
    | tab =>
      rw [depth?, if_neg ne, if_neg (by simpa using tabs)] at h
      cases h
    | spaces width =>
      rw [depth?, if_neg ne] at h
      split at h
      · next fits => rw [Nat.eq_of_dvd_of_div_eq_one fits.2 (Option.some.inj h).symm]
      · cases h
  · obtain rfl : unit = .tab := by simpa [shown] using own
    cases unit' with
    | tab => rfl
    | spaces width =>
      have all : cs.all (· == '\t') = true := by simpa using tabs
      rw [depth?, depth?, if_neg ne, if_neg ne] at h
      rw [if_pos all, if_neg fun fits => spaces (by simpa using fits.1)] at h
      cases h
  · simp [shown] at hidden

/-- Lines with the same depths, of which the same ones have a depth of their own. -/
theorem Line.eq_of_inherit_eq {α : Type} {own own' : α → Option Nat} {as : List α}
    {before before' : Nat} (missing : ∀ a ∈ as, own a = none ↔ own' a = none)
    (h : inherit before (as.map own) = inherit before' (as.map own')) :
    (∀ a ∈ as, own a = own' a) ∧ ∀ a, as.head? = some a → own a = none → before = before' := by
  induction as generalizing before before' with
  | nil => simp
  | cons a as ih =>
    obtain ⟨first, rest⟩ := List.cons.inj h
    obtain ⟨others, -⟩ := ih (fun b hb => missing b (by simp [hb])) rest
    have both := missing a (by simp)
    constructor
    · intro b hb
      rcases List.mem_cons.1 hb with rfl | hb
      · cases hb : own b with
        | none => exact (both.1 hb).symm
        | some depth =>
          obtain ⟨depth', hb'⟩ := Option.ne_none_iff_exists'.1 (mt both.2 (by simp [hb]))
          simpa [hb, hb'] using first
      · exact others b hb
    · intro b hb unmeasured
      obtain rfl : a = b := by simpa using hb
      simpa [unmeasured, both.1 unmeasured] using first

namespace Reader

variable {limit : Nat} {f : Nat → Nat} {ps qs : List Piece} {r r' : Reader}

/-- Readers that read alike pieces alike measure every one of them alike. -/
theorem depth?_eq_of_alike (hf : Function.Injective f) (numbers : (ps.map (·.number)).Nodup)
    (hps : written ps = ps) (hqs : written qs = qs) (hr : r.depth ≤ limit) (hr' : r'.depth ≤ limit)
    (h : List.Forall₂ (Piece.Alike f) ps qs)
    (read : (r.readAll limit ps).failure = none)
    (alike : (r.readAll limit ps).Alike f limit (r'.readAll limit qs)) :
    (∀ p ∈ ps, p.depth? (r.unit.or (unit? ps)) = p.depth? (r'.unit.or (unit? ps))) ∧
      ∀ p, ps.head? = some p → p.depth? (r.unit.or (unit? ps)) = none → r.depth = r'.depth := by
  have two := isTwoPass_readAll ps r hr
  have two' := isTwoPass_readAll qs r' hr'
  have read' := alike.failure_eq_none.1 read
  rw [hps] at two
  rw [hqs, ← Text.unit?_of_alike h] at two'
  generalize r.unit.or (unit? ps) = unit at *
  generalize r'.unit.or (unit? ps) = unit' at *
  have depths : Line.inherit r.depth (ps.map (·.depth? unit)) =
      Line.inherit r'.depth (ps.map (·.depth? unit')) := by
    have lines := congrArg (List.map (·.depth)) alike.lines
    simp only [List.map_map, Function.comp_def, Line.renumber] at lines
    rwa [two.map_depth_lines read, two'.map_depth_lines read', ← Text.map_depth?_of_alike h]
      at lines
  have misfits : (ps.filter (·.depth? unit = none)).map (f ·.number) =
      (ps.filter (·.depth? unit' = none)).map (f ·.number) := by
    have warnings := congrArg
      (fun ws => (ws.filter (·.kind = .malformedIndentation)).map (·.line)) alike.warnings
    have own := congrArg (List.map (f ·.1)) (two.misfits read)
    have own' := congrArg (List.map (·.1)) (two'.misfits read')
    simp only [List.filter_map, List.map_map, Function.comp_def, Diagnostic.renumber, id] at *
    have filtered : List.Forall₂ (Piece.Alike f) (ps.filter (·.depth? unit' = none))
        (qs.filter (·.depth? unit' = none)) :=
      List.rel_filter (fun p q alike => by simp [alike.depth? unit']) h
    rw [← own, warnings, own', Text.map_number_of_alike filtered]
  refine Line.eq_of_inherit_eq (fun p hp => ?_) depths
  have numbered (u : Option IndentUnit) :
      f p.number ∈ (ps.filter (·.depth? u = none)).map (f ·.number) ↔ p.depth? u = none := by
    constructor
    · intro mem
      obtain ⟨q, hq, same⟩ := List.mem_map.1 mem
      obtain ⟨hq, misfit⟩ := List.mem_filter.1 hq
      rw [List.inj_on_of_nodup_map numbers hp hq (hf same.symm)]
      simpa using misfit
    · intro misfit
      exact List.mem_map.2 ⟨p, List.mem_filter.2 ⟨hp, by simpa using misfit⟩, rfl⟩
  rw [← numbered, ← numbered, misfits]

/-- Readers read alike pieces alike exactly when they agree on them, if the second one knows what
the first one knows. -/
theorem agree_iff_alike (hf : Function.Injective f) (numbers : (ps.map (·.number)).Nodup)
    (hps : written ps = ps) (hqs : written qs = qs) (hr : r.depth ≤ limit) (hr' : r'.depth ≤ limit)
    (h : List.Forall₂ (Piece.Alike f) ps qs) (read : (r.readAll limit ps).failure = none)
    (more : r.unit = r'.unit ∨ r.unit = none) :
    r.Agree r' ps ↔ (r.readAll limit ps).Alike f limit (r'.readAll limit qs) := by
  have all : ∀ p ∈ ps, p.isWritten = true := List.filter_eq_self.1 hps
  refine ⟨alike_readAll h all, fun alike => ?_⟩
  obtain ⟨depths, head⟩ := depth?_eq_of_alike hf numbers hps hqs hr hr' h read alike
  constructor
  · rcases more with same | unknown
    · exact .inl same
    cases known : r'.unit with
    | none => exact .inl unknown
    | some unit' =>
      refine .inr ⟨unknown, ?_⟩
      cases shown : unit? ps with
      | none => exact .inl rfl
      | some unit =>
        obtain ⟨p, hp, own⟩ := List.exists_of_findSome?_eq_some shown
        have same := depths p hp
        rw [unknown, known, shown, Option.none_or, Option.some_or] at same
        exact .inr (by rw [IndentUnit.eq_of_depth?_eq own same])
  · by_cases stand : r.depth = r'.depth
    · exact .inl stand
    · right
      intro p hp misfit
      refine stand (head p hp ?_)
      obtain ⟨rest, rfl⟩ : ∃ rest, ps = p :: rest := by
        cases ps with
        | nil => cases hp
        | cons q rest => exact ⟨rest, by rw [Option.some.inj hp]⟩
      rwa [(depth?_unitAfter r p rest).1]

end Reader

end Swimlane
