import Mathlib.Data.List.Chain
import Swimlane.Slug

/-!
# The shape of slugs

A slug consists of words of lower-case letters and digits, joined by single underscores. Identifiers
are joined from slugs by further underscores, so the shape is closed under joining.

## Main statements

* `Slug.IsSnake.join`: two texts of this shape with an underscore between them have it too;
* `isSnake_slug`: the slug of every text has it.
-/

namespace Swimlane

namespace Slug

/-- A character of a word. -/
def IsWordChar (c : Char) : Prop := c.isLower = true ∨ c.isDigit = true

/-- Words joined by single underscores: no underscore stands at either end or beside another. -/
structure IsSnake (cs : List Char) : Prop where
  ne_nil : cs ≠ []
  chars : ∀ c ∈ cs, IsWordChar c ∨ c = '_'
  head : cs.head? ≠ some '_'
  last : cs.getLast? ≠ some '_'
  single : cs.IsChain fun a b => a ≠ '_' ∨ b ≠ '_'

theorem IsWordChar.ne_underscore {c : Char} (h : IsWordChar c) : c ≠ '_' := by
  rintro rfl
  exact absurd h (by unfold IsWordChar; decide)

/-- Letters lose their case and digits stay. -/
theorem isWordChar_toLower {c : Char} (h : c.isAlphanum = true) : IsWordChar c.toLower := by
  unfold Char.isAlphanum Char.isAlpha Char.isUpper Char.isLower Char.isDigit at h
  unfold IsWordChar Char.isLower Char.isDigit Char.toLower
  simp only [Bool.or_eq_true, Bool.and_eq_true, decide_eq_true_eq, UInt32.le_iff_toNat_le,
    ge_iff_le] at h ⊢
  split
  · next upper =>
    have range : 65 ≤ c.val.toNat ∧ c.val.toNat ≤ 90 := upper
    simp only [Char.reduceVal, UInt32.reduceToNat, UInt32.toNat_add, UInt32.toNat_sub]
    omega
  · simp only [Char.reduceVal, UInt32.reduceToNat] at *
    omega

namespace IsSnake

theorem singleton {c : Char} (hc : IsWordChar c) : IsSnake [c] where
  ne_nil := by simp
  chars := by simpa using Or.inl hc
  head := by simpa using hc.ne_underscore
  last := by simpa using hc.ne_underscore
  single := .singleton c

theorem cons {c : Char} {cs : List Char} (hc : IsWordChar c) (h : IsSnake cs) :
    IsSnake (c :: cs) where
  ne_nil := by simp
  chars := by
    intro x hx
    obtain rfl | hx := List.mem_cons.1 hx
    · exact .inl hc
    · exact h.chars x hx
  head := by simpa using hc.ne_underscore
  last := by rw [List.getLast?_cons_of_ne_nil h.ne_nil]; exact h.last
  single := List.isChain_cons.2 ⟨fun _ _ => .inl hc.ne_underscore, h.single⟩

theorem of_word {cs : List Char} (hne : cs ≠ []) (h : ∀ c ∈ cs, IsWordChar c) : IsSnake cs := by
  induction cs with
  | nil => exact absurd rfl hne
  | cons c cs ih =>
    have hc := h c (by simp)
    by_cases hcs : cs = []
    · subst hcs
      exact singleton hc
    · exact cons hc (ih hcs fun x hx => h x (by simp [hx]))

/-- An underscore between two texts of this shape keeps it, since neither has one at its end. -/
theorem join {a b : List Char} (ha : IsSnake a) (hb : IsSnake b) : IsSnake (a ++ '_' :: b) where
  ne_nil := by simp
  chars := by
    intro c hc
    simp only [List.mem_append, List.mem_cons] at hc
    obtain hc | rfl | hc := hc
    · exact ha.chars c hc
    · exact .inr rfl
    · exact hb.chars c hc
  head := by
    rw [List.head?_append_of_ne_nil _ ha.ne_nil]
    exact ha.head
  last := by
    rw [List.getLast?_append_of_ne_nil _ (by simp), List.getLast?_cons_of_ne_nil hb.ne_nil]
    exact hb.last
  single := by
    refine List.isChain_append.2 ⟨ha.single, List.isChain_cons.2 ⟨?_, hb.single⟩, ?_⟩
    · intro y hy
      exact .inr fun h => hb.head (h ▸ hy)
    · intro x hx _ _
      exact .inl fun h => ha.last (h ▸ hx)

end IsSnake

/-- Behind a word character the rest of a slug keeps the shape, whether or not a gap is pending. -/
theorem isSnake_cons_chars {c : Char} (hc : IsWordChar c) (gap : Bool) (cs : List Char) :
    IsSnake (c :: chars true gap cs) := by
  induction cs generalizing c gap with
  | nil => exact .singleton hc
  | cons x xs ih =>
    unfold chars
    by_cases hx : x.isAlphanum = true
    · have word := isWordChar_toLower hx
      cases gap with
      | false => simpa [hx] using IsSnake.cons hc (ih word false)
      | true => simpa [hx] using IsSnake.join (.singleton hc) (ih word false)
    · simpa [hx] using ih hc true

theorem chars_eq_nil_or_isSnake (gap : Bool) (cs : List Char) :
    chars false gap cs = [] ∨ IsSnake (chars false gap cs) := by
  induction cs generalizing gap with
  | nil => exact .inl rfl
  | cons x xs ih =>
    unfold chars
    by_cases hx : x.isAlphanum = true
    · exact .inr (by simpa [hx] using isSnake_cons_chars (isWordChar_toLower hx) false xs)
    · simpa [hx] using ih true

theorem isSnake_ofChars (cs : List Char) : IsSnake (ofChars cs) := by
  unfold ofChars
  split
  · exact .of_word (by decide) (by simp [IsWordChar])
  · next hne =>
    exact (chars_eq_nil_or_isSnake false cs).resolve_left hne

end Slug

/-- Every slug consists of words joined by single underscores. -/
theorem isSnake_slug (text : String) : Slug.IsSnake (slug text).toList := by
  simpa [slug] using Slug.isSnake_ofChars text.toList

end Swimlane
