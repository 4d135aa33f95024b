/-!
# Blank characters

The blank characters are those of the Unicode property `White_Space`. Lines, payloads and labels are
trimmed of them, and the blank characters in front of a line are its indentation.

## Main definitions

* `isBlank`: the character class;
* `indentation`: the blank characters a line starts with;
* `trim`: a text without the blank characters at its two ends.
-/

namespace Swimlane.Text

/-- Ranges of the code points with the property `White_Space`, both ends included. -/
def blankRanges : List (Nat × Nat) :=
  [(0x09, 0x0D), (0x20, 0x20), (0x85, 0x85), (0xA0, 0xA0), (0x1680, 0x1680), (0x2000, 0x200A),
   (0x2028, 0x2029), (0x202F, 0x202F), (0x205F, 0x205F), (0x3000, 0x3000)]

def isBlank (c : Char) : Bool :=
  blankRanges.any fun r => r.1 ≤ c.toNat && c.toNat ≤ r.2

/-- The blank characters in front of the first one that is not. -/
def indentation (cs : List Char) : List Char := cs.takeWhile isBlank

def trimLeft (cs : List Char) : List Char := cs.dropWhile isBlank

def trimRight (cs : List Char) : List Char := (cs.reverse.dropWhile isBlank).reverse

/-- The text between its first and its last character that is not blank. -/
def trim (cs : List Char) : List Char := trimRight (trimLeft cs)

@[simp] theorem trim_nil : trim [] = [] := rfl

/-- Indentation and the rest make up the line. -/
theorem indentation_append_trimLeft (cs : List Char) : indentation cs ++ trimLeft cs = cs :=
  List.takeWhile_append_dropWhile

end Swimlane.Text
