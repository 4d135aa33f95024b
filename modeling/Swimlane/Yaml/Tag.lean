import Swimlane.Yaml.Scalar

/-!
# YAML tags

A tag is written in full between angle brackets, or as a handle and a name. A handle is an
exclamation mark, or a word between two of them; it is short for the beginning of a tag, its stem.
Characters of a tag may be written by their octets, each as two hexadecimal digits behind a percent
sign. Octets need not make up characters, so a tag is a list of bytes.

The readers return what they read and the place behind it, or nothing when the text is not YAML.

## Main definitions

* `Tag`, `readTag`: tags as they are written;
* `Tag.bytes?`: a tag in full;
* `readStem`: what a directive says about a handle.
-/

namespace Swimlane.Yaml

/-- The characters of words: names of anchors, handles and directives. -/
def isNameChar (c : Char) : Bool := c.isAlphanum || c = '_' || c = '-'

/-- The characters of tags. Where a tag cannot be part of a flow sequence, its marks are among
them. -/
def isTagChar (wide : Bool) (c : Char) : Bool :=
  isNameChar c || ";/?:@&=+$.!~*'()".toList.contains c || (wide && [',', '[', ']'].contains c)

/-! ## Octets -/

/-- Reads an octet behind its percent sign. -/
def readOctet (c : Cursor) : Option (UInt8 × Cursor) :=
  match c.rest with
  | '%' :: a :: b :: _ => (hexValue? [a, b]).map fun n => (n.toUInt8, c.skip 3)
  | _ => none

/-- How many octets follow the first octet of a character. -/
def followers? (first : UInt8) : Option Nat :=
  if first < 0x80 then some 0
  else if 0xC0 ≤ first && first < 0xE0 then some 1
  else if 0xE0 ≤ first && first < 0xF0 then some 2
  else if 0xF0 ≤ first && first < 0xF8 then some 3
  else none

/-- Reads the octets that follow the first one of a character. -/
def readFollowers : Nat → List UInt8 → Cursor → Option (List UInt8 × Cursor)
  | 0, bytes, c => some (bytes, c)
  | n + 1, bytes, c => do
    let (byte, c) ← readOctet c
    if 0x80 ≤ byte && byte < 0xC0 then readFollowers n (bytes ++ [byte]) c else none

/-- Reads the octets of a character. -/
def readOctets (c : Cursor) : Option (List UInt8 × Cursor) := do
  let (first, c) ← readOctet c
  readFollowers (← followers? first) [first] c

/-- Reads the characters of a tag. -/
def readTagChars (wide : Bool) :
    (fuel : Nat) → List UInt8 → Cursor → Option (List UInt8 × Cursor)
  | 0, bytes, c => some (bytes, c)
  | fuel + 1, bytes, c =>
    match c.rest with
    | [] => some (bytes, c)
    | ch :: _ =>
      if ch = '%' then do
        let (octets, c) ← readOctets c
        readTagChars wide fuel (bytes ++ octets) c
      else if isTagChar wide ch then readTagChars wide fuel (bytes ++ [ch.toNat.toUInt8]) c.next
      else some (bytes, c)

/-- What counts of the bytes of a tag: a zero ends it. -/
def untilZero (bytes : List UInt8) : List UInt8 := bytes.takeWhile (· != 0)

/-- Reads the bytes of a tag, of which there is at least one. -/
def readTagBytes (wide : Bool) (c : Cursor) : Option (List UInt8 × Cursor) := do
  let (bytes, c) ← readTagChars wide c.rest.length [] c
  if bytes.isEmpty then none else some (untilZero bytes, c)

/-! ## Tags -/

/-- A tag by its handle, empty for a tag written in full, and the rest of it. -/
structure Tag where
  handle : String
  name : List UInt8
  deriving Repr, DecidableEq

/-- The tag that keeps a scalar from being anything but what it is written as. -/
def Tag.plain : Tag := ⟨"", "!".toUTF8.toList⟩

/-- Reads a handle that is a word between exclamation marks, if one stands here. -/
def readHandle? (c : Cursor) : Option (String × Cursor) :=
  let word := (c.rest.drop 1).takeWhile isNameChar
  if (c.rest.drop (word.length + 1)).head? = some '!' then
    some (String.ofList ('!' :: word ++ ['!']), c.skip (word.length + 2))
  else none

/-- Reads a tag from its exclamation mark on. -/
def readTag (c : Cursor) : Option (Tag × Cursor) :=
  if c.rest[1]? = some '<' then do
    let (name, c) ← readTagBytes true (c.skip 2)
    if c.rest.head? = some '>' then some (⟨"", name⟩, c.next) else none
  else
    match readHandle? c with
    | some (handle, c) => (readTagBytes false c).map fun p => (⟨handle, p.1⟩, p.2)
    | none => do
      let (bytes, c) ← readTagChars false c.rest.length [] c.next
      let name := untilZero bytes
      some (if name.isEmpty then .plain else ⟨"!", name⟩, c)

/-- What handles are short for. -/
abbrev Stems := List (String × List UInt8)

/-- The handles that every document knows. -/
def knownStems : Stems := [("!", "!".toUTF8.toList), ("!!", "tag:yaml.org,2002:".toUTF8.toList)]

/-- A tag in full, if its handle is known. -/
def Tag.bytes? (stems : Stems) (t : Tag) : Option (List UInt8) :=
  if t.handle = "" then some t.name else (stems.lookup t.handle).map (· ++ t.name)

/-- Reads a handle and its stem, as they stand in a directive. -/
def readStem (c : Cursor) : Option (String × List UInt8 × Cursor) := do
  if c.rest.head? != some '!' then none
  else
    let (handle, c) := (readHandle? c).getD ("!", c.next)
    if !(c.rest.head?.any isSpace) then none
    else
      let (stem, c) ← readTagBytes true (c.skipWhile isSpace)
      if endsWord c.rest then some (handle, stem, c) else none

end Swimlane.Yaml
