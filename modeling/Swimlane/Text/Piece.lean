import Swimlane.Text.Blank

/-!
# Pieces of a text

A text is cut at its newlines. A piece knows its number, counted from one, and the byte offset of
its first character in the UTF-8 form of the text.

## Main definitions

* `byteLength`: length of a text in UTF-8;
* `splitOn`: the texts between the places of a character, at least one;
* `pieces`: the numbered pieces with their offsets.
-/

namespace Swimlane.Text

/-- Number of bytes of a text in UTF-8. -/
def byteLength : List Char → Nat
  | [] => 0
  | c :: cs => c.utf8Size + byteLength cs

@[simp] theorem byteLength_nil : byteLength [] = 0 := rfl

@[simp] theorem byteLength_cons (c : Char) (cs : List Char) :
    byteLength (c :: cs) = c.utf8Size + byteLength cs := rfl

@[simp] theorem byteLength_append (cs ds : List Char) :
    byteLength (cs ++ ds) = byteLength cs + byteLength ds := by
  induction cs with
  | nil => simp
  | cons c cs ih => simp [ih, Nat.add_assoc]

/-- The texts between the places of a character. A text without the character is one piece, also
when it is empty. -/
def splitOn (separator : Char) : List Char → List (List Char)
  | [] => [[]]
  | c :: cs =>
    if c = separator then [] :: splitOn separator cs
    else match splitOn separator cs with
      | [] => [[c]]
      | p :: ps => (c :: p) :: ps

/-- A line of a text before it is read: its number, its offset in bytes and its characters. -/
structure Piece where
  number : Nat
  offset : Nat
  chars : List Char
  deriving Repr, DecidableEq

/-- Numbers pieces that follow each other, each one byte (its newline) behind the one before. -/
def numberPieces (number offset : Nat) : List (List Char) → List Piece
  | [] => []
  | p :: ps => ⟨number, offset, p⟩ :: numberPieces (number + 1) (offset + byteLength p + 1) ps

/-- The numbered pieces of a text. -/
def pieces (cs : List Char) : List Piece := numberPieces 1 0 (splitOn '\n' cs)

end Swimlane.Text
