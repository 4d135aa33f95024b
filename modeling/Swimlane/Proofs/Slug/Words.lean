import Swimlane.Proofs.Slug

/-!
# Slugs and words

The words of a text are its maximal runs of letters and digits. The slug of a text says its words in
lower case with one underscore between two of them, and nothing else of it.

## Main definitions

* `Slug.Runs`: the maximal runs of letters and digits of a text;
* `Slug.words`: a search for them that cuts the text at all other characters;
* `Slug.ofWords`: words in lower case with underscores between them.

## Main statements

* `Slug.runs_iff`: the search finds the maximal runs;
* `Slug.ofChars_eq`: a slug is made of the words of its text;
* `Slug.ofWords_words_ofWords`: the words of a slug make the slug again;
* `Slug.words_append_gap_append`: the words of two texts with a gap between them;
* `slug_joins_runs`: the slugs of all texts, of slugs and of texts with a gap between them.
-/

namespace Swimlane

namespace Slug

/-! ## Words -/

/-- A text without letters and digits. -/
def IsGap (cs : List Char) : Prop := ∀ c ∈ cs, c.isAlphanum = false

instance (cs : List Char) : Decidable (IsGap cs) :=
  List.decidableBAll (fun c : Char => c.isAlphanum = false) cs

/-- A word is not empty and has letters and digits only. -/
structure IsWord (w : List Char) : Prop where
  ne_nil : w ≠ []
  chars : ∀ c ∈ w, c.isAlphanum = true

/-- The texts `ws` are the maximal runs of letters and digits of a text, from left to right. Before
each of them is a gap, and behind it the text ends or a gap starts, so that no run can be longer. -/
inductive Runs : List Char → List (List Char) → Prop
  | gap {cs : List Char} (h : IsGap cs) : Runs cs []
  | run {gap w rest : List Char} {ws : List (List Char)} (before : IsGap gap) (word : IsWord w)
      (behind : ∀ c ∈ rest.head?, c.isAlphanum = false) (h : Runs rest ws) :
      Runs (gap ++ (w ++ rest)) (w :: ws)

/-- The words of a text: what is left of it when it is cut at all other characters. -/
def words (cs : List Char) : List (List Char) :=
  (cs.splitOnP fun c => !c.isAlphanum).filter fun w => !w.isEmpty

/-- Words in lower case. -/
def lowered (ws : List (List Char)) : List (List Char) := ws.map fun w => w.map Char.toLower

/-- Words in lower case with underscores between them, or `unknown` where there are none. -/
def ofWords (ws : List (List Char)) : List Char :=
  if ws = [] then "unknown".toList else List.intercalate ['_'] (lowered ws)

theorem words_append_cons {c : Char} (hc : c.isAlphanum = false) (xs ys : List Char) :
    words (xs ++ c :: ys) = words xs ++ words ys := by
  unfold words
  rw [List.splitOnP_append_cons xs ys (by simp [hc]), List.filter_append]

@[simp] theorem words_nil : words [] = [] := rfl

theorem words_cons {c : Char} (hc : c.isAlphanum = false) (cs : List Char) :
    words (c :: cs) = words cs := by
  simpa using words_append_cons hc [] cs

theorem words_gap_append {gap : List Char} (h : IsGap gap) (cs : List Char) :
    words (gap ++ cs) = words cs := by
  induction gap with
  | nil => rfl
  | cons c gap ih =>
    rw [List.cons_append, words_cons (h c (by simp)), ih fun x hx => h x (by simp [hx])]

theorem words_gap {gap : List Char} (h : IsGap gap) : words gap = [] := by
  simpa using words_gap_append h []

theorem IsWord.words_eq {w : List Char} (h : IsWord w) : words w = [w] := by
  unfold words
  rw [List.splitOnP_eq_singleton fun c hc => by simp [h.chars c hc]]
  simp [h.ne_nil]

theorem IsWord.words_append {w rest : List Char} (h : IsWord w)
    (behind : ∀ c ∈ rest.head?, c.isAlphanum = false) : words (w ++ rest) = w :: words rest := by
  cases rest with
  | nil => simpa using h.words_eq
  | cons c rest =>
    have hc := behind c rfl
    rw [words_append_cons hc, h.words_eq, words_cons hc]
    rfl

theorem Runs.eq_words {cs : List Char} {ws : List (List Char)} (h : Runs cs ws) :
    ws = words cs := by
  induction h with
  | gap h => exact (words_gap h).symm
  | run before word behind _ ih => rw [words_gap_append before, word.words_append behind, ← ih]

theorem exists_runs (cs : List Char) : ∃ ws, Runs cs ws := by
  induction cs with
  | nil => exact ⟨[], .gap (by simp [IsGap])⟩
  | cons c cs ih =>
    obtain ⟨ws, h⟩ := ih
    have empty : IsGap [] := by simp [IsGap]
    cases hc : c.isAlphanum with
    | false =>
      -- The character makes the gap at the front longer.
      have longer {gap : List Char} (hgap : IsGap gap) : IsGap (c :: gap) := by
        simpa [IsGap, hc] using hgap
      cases h with
      | gap h => exact ⟨[], .gap (longer h)⟩
      | run before word behind h => exact ⟨_, .run (longer before) word behind h⟩
    | true =>
      have single : IsWord [c] := ⟨by simp, by simpa using hc⟩
      cases h with
      | gap h =>
        exact ⟨[[c]], .run empty single (fun x hx => h x (List.mem_of_mem_head? hx)) (.gap h)⟩
      | @run gap w rest ws before word behind h =>
        cases gap with
        | nil =>
          have longer : IsWord (c :: w) := ⟨by simp, by simpa [hc] using word.chars⟩
          exact ⟨(c :: w) :: ws, .run empty longer behind h⟩
        | cons g gap =>
          have next : ∀ x ∈ (g :: gap ++ (w ++ rest)).head?, x.isAlphanum = false := by
            simpa using before g (by simp)
          exact ⟨[c] :: w :: ws, .run empty single next (.run before word behind h)⟩

/-- The words that the search finds are the maximal runs, in their order. -/
theorem runs_iff {cs : List Char} {ws : List (List Char)} : Runs cs ws ↔ ws = words cs := by
  refine ⟨Runs.eq_words, ?_⟩
  rintro rfl
  obtain ⟨ws, h⟩ := exists_runs cs
  exact h.eq_words ▸ h

theorem runs_words (cs : List Char) : Runs cs (words cs) := runs_iff.2 rfl

theorem isWord_of_mem_words {cs w : List Char} (h : w ∈ words cs) : IsWord w := by
  have runs := runs_words cs
  generalize words cs = ws at *
  induction runs with
  | gap => cases h
  | run _ word _ _ ih =>
    obtain rfl | h := List.mem_cons.1 h
    · exact word
    · exact ih h

theorem words_ne_nil {cs : List Char} (h : ∃ c ∈ cs, c.isAlphanum = true) : words cs ≠ [] := by
  intro nil
  have runs := runs_words cs
  rw [nil] at runs
  obtain ⟨c, hc, word⟩ := h
  cases runs with
  | gap blank => simp [blank c hc] at word

/-! ## The slug is made of the words -/

theorem chars_gap_append {gap : List Char} (h : IsGap gap) (started pending : Bool)
    (cs : List Char) :
    chars started pending (gap ++ cs) = chars started (pending || !gap.isEmpty) cs := by
  induction gap generalizing pending with
  | nil => simp
  | cons c gap ih =>
    have hc := h c (by simp)
    rw [List.cons_append, chars, if_neg (by simp [hc]), ih fun x hx => h x (by simp [hx])]
    simp

theorem chars_letters_append {w : List Char} (h : ∀ c ∈ w, c.isAlphanum = true) (cs : List Char) :
    chars true false (w ++ cs) = w.map Char.toLower ++ chars true false cs := by
  induction w with
  | nil => rfl
  | cons c w ih =>
    have hc := h c (by simp)
    rw [List.cons_append, chars, if_pos hc, ih fun x hx => h x (by simp [hx])]
    simp

theorem IsWord.chars_append {w : List Char} (h : IsWord w) (started pending : Bool)
    (cs : List Char) :
    Slug.chars started pending (w ++ cs) = (if started && pending then ['_'] else []) ++
      (w.map Char.toLower ++ Slug.chars true false cs) := by
  obtain ⟨c, w, rfl⟩ := List.exists_cons_of_ne_nil h.ne_nil
  rw [List.cons_append, Slug.chars, if_pos (h.chars c (by simp)),
    chars_letters_append fun x hx => h.chars x (by simp [hx])]
  rfl

/-- Behind a word each further word comes with an underscore before it. -/
theorem Runs.chars_eq {cs : List Char} {ws : List (List Char)} (h : Runs cs ws)
    (first : ∀ c ∈ cs.head?, c.isAlphanum = false) :
    chars true false cs = ws.flatMap fun w => '_' :: w.map Char.toLower := by
  induction h with
  | @gap cs h =>
    have := chars_gap_append h true false []
    simpa [chars] using this
  | @run gap w rest ws before word behind _ ih =>
    -- A word in front would be part of the word before.
    have ne : gap ≠ [] := by
      rintro rfl
      obtain ⟨c, w, rfl⟩ := List.exists_cons_of_ne_nil word.ne_nil
      simp [word.chars c (by simp)] at first
    rw [chars_gap_append before, word.chars_append, ih behind]
    simp [ne]

theorem intercalate_cons (w : List Char) (ws : List (List Char)) :
    List.intercalate ['_'] (w :: ws) = w ++ ws.flatMap fun v => '_' :: v := by
  induction ws generalizing w with
  | nil => simp
  | cons v ws ih => simp [List.intercalate_cons_cons, ih]

theorem ofWords_nil : ofWords [] = "unknown".toList := if_pos rfl

theorem ofWords_of_ne_nil {ws : List (List Char)} (h : ws ≠ []) :
    ofWords ws = List.intercalate ['_'] (lowered ws) :=
  if_neg h

theorem ofWords_cons (w : List Char) (ws : List (List Char)) :
    ofWords (w :: ws) =
      w.map Char.toLower ++ ws.flatMap fun v => '_' :: v.map Char.toLower := by
  rw [ofWords_of_ne_nil (by simp), lowered, List.map_cons, intercalate_cons, List.flatMap_map]

/-- A slug is made of the words of its text. -/
theorem ofChars_eq (cs : List Char) : ofChars cs = ofWords (words cs) := by
  have runs := runs_words cs
  generalize words cs = ws at runs
  unfold ofChars
  cases runs with
  | gap h =>
    have := chars_gap_append h false false []
    rw [List.append_nil] at this
    rw [this]
    rfl
  | @run gap w rest ws before word behind h =>
    have eq : chars false false (gap ++ (w ++ rest)) = ofWords (w :: ws) := by
      rw [chars_gap_append before, word.chars_append, h.chars_eq behind, ofWords_cons]
      simp
    rw [eq]
    split
    · next nil => simp [ofWords_cons, word.ne_nil] at nil
    · rfl

/-! ## Slugs of slugs, and of texts with a gap between them -/

theorem IsWordChar.isAlphanum {c : Char} (h : IsWordChar c) : c.isAlphanum = true := by
  unfold Char.isAlphanum Char.isAlpha
  rcases h with h | h <;> simp [h]

theorem IsWordChar.toLower_eq {c : Char} (h : IsWordChar c) : c.toLower = c := by
  unfold IsWordChar Char.isLower Char.isDigit at h
  unfold Char.toLower
  simp only [Bool.and_eq_true, decide_eq_true_eq, UInt32.le_iff_toNat_le, ge_iff_le] at h
  refine dif_neg fun upper => ?_
  have range : 65 ≤ c.val.toNat ∧ c.val.toNat ≤ 90 := upper
  simp only [Char.reduceVal, UInt32.reduceToNat] at h
  omega

theorem isWord_of_mem_lowered {ws : List (List Char)} (h : ∀ w ∈ ws, IsWord w) :
    ∀ w ∈ lowered ws, IsWord w := by
  intro v hv
  obtain ⟨w, hw, rfl⟩ := List.mem_map.1 hv
  have word := h w hw
  refine ⟨by simpa using word.ne_nil, fun c hc => ?_⟩
  obtain ⟨x, hx, rfl⟩ := List.mem_map.1 hc
  exact (isWordChar_toLower (word.chars x hx)).isAlphanum

theorem lowered_lowered {ws : List (List Char)} (h : ∀ w ∈ ws, IsWord w) :
    lowered (lowered ws) = lowered ws := by
  unfold lowered
  rw [List.map_map]
  refine List.map_congr_left fun w hw => ?_
  rw [Function.comp_apply, List.map_map]
  exact List.map_congr_left fun c hc => (isWordChar_toLower ((h w hw).chars c hc)).toLower_eq

theorem words_intercalate {ws : List (List Char)} (h : ∀ w ∈ ws, IsWord w) :
    words (List.intercalate ['_'] ws) = ws := by
  induction ws with
  | nil => simp
  | cons w ws ih =>
    have word := h w (by simp)
    have rest := ih fun v hv => h v (by simp [hv])
    cases ws with
    | nil => simpa using word.words_eq
    | cons v ws =>
      rw [List.intercalate_cons_cons, List.append_assoc, List.singleton_append,
        words_append_cons rfl, word.words_eq, rest]
      rfl

/-- A slug is its own slug: its words are in lower case already. -/
theorem ofWords_words_ofWords {ws : List (List Char)} (h : ∀ w ∈ ws, IsWord w) :
    ofWords (words (ofWords ws)) = ofWords ws := by
  by_cases wordless : ws = []
  · subst wordless
    have unknown : IsWord "unknown".toList := ⟨by simp, List.all_eq_true.1 rfl⟩
    rw [ofWords_nil, unknown.words_eq]
    decide
  · have lower : lowered ws ≠ [] := by simpa [lowered] using wordless
    rw [ofWords_of_ne_nil wordless, words_intercalate (isWord_of_mem_lowered h),
      ofWords_of_ne_nil lower, lowered_lowered h]

theorem ofWords_append {us vs : List (List Char)} (hu : us ≠ []) (hv : vs ≠ []) :
    ofWords (us ++ vs) = ofWords us ++ '_' :: ofWords vs := by
  obtain ⟨u, us, rfl⟩ := List.exists_cons_of_ne_nil hu
  obtain ⟨v, vs, rfl⟩ := List.exists_cons_of_ne_nil hv
  rw [List.cons_append, ofWords_cons, ofWords_cons, ofWords_cons]
  simp

theorem words_append_gap_append {gap : List Char} (h : IsGap gap) (ne : gap ≠ [])
    (as bs : List Char) : words (as ++ gap ++ bs) = words as ++ words bs := by
  obtain ⟨c, gap, rfl⟩ := List.exists_cons_of_ne_nil ne
  rw [List.append_assoc, List.cons_append, words_append_cons (h c (by simp)),
    words_gap_append fun x hx => h x (by simp [hx])]

end Slug

open Slug

theorem toList_slug (text : String) : (slug text).toList = ofWords (words text.toList) := by
  simp [slug, ofChars_eq]

/-- The slug of a text is made of its maximal runs of letters and digits, in lower case and with one
underscore between two of them; it is `unknown` where there is none. So it is not empty, has only
lower-case letters, digits and underscores, and no underscore stands at an end or beside another. A
slug is its own slug. A gap between two texts that each have a letter or a digit becomes the
underscore between their slugs. -/
theorem slug_joins_runs (text : String) :
    (∀ ws, Runs text.toList ws ↔ ws = words text.toList) ∧
      (slug text).toList = ofWords (words text.toList) ∧
      IsSnake (slug text).toList ∧
      slug (slug text) = slug text ∧
      ∀ gap other : String, gap ≠ "" → IsGap gap.toList →
        (∃ c ∈ text.toList, c.isAlphanum = true) → (∃ c ∈ other.toList, c.isAlphanum = true) →
        slug (text ++ gap ++ other) = slug text ++ "_" ++ slug other := by
  refine ⟨fun ws => runs_iff, toList_slug text, isSnake_slug text, ?_, ?_⟩
  · apply String.toList_inj.1
    rw [toList_slug, toList_slug, ofWords_words_ofWords fun w hw => isWord_of_mem_words hw]
  · intro gap other ne hgap first second
    apply String.toList_inj.1
    have parts := words_append_gap_append hgap (by simpa using ne) text.toList other.toList
    rw [toList_slug, String.toList_append, String.toList_append, parts,
      ofWords_append (words_ne_nil first) (words_ne_nil second), ← toList_slug, ← toList_slug]
    simp

/-- Letters that are not ASCII belong to gaps. -/
theorem slug_joins_runs_accented :
    IsGap " – ".toList ∧ slug "Größe (XL)" = "gr_e_xl" ∧
      slug ("Größe (XL)" ++ " – " ++ "No. 7") = slug "Größe (XL)" ++ "_" ++ slug "No. 7" := by
  have gap : IsGap " – ".toList := by decide
  refine ⟨gap, by decide, ?_⟩
  exact (slug_joins_runs "Größe (XL)").2.2.2.2 " – " "No. 7" (by decide) gap
    ⟨'G', by decide, rfl⟩ ⟨'7', by decide, rfl⟩

end Swimlane
