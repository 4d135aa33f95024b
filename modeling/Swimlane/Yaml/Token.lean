import Swimlane.Yaml.Tag

/-!
# YAML tokens

A text is cut into tokens from left to right. A scalar, alias or mapping is found to be a key only
when the colon behind it is read, so it is remembered as a possible key until then. The columns of
block mappings decide where they end.

Sequences have no tokens: the settings that are read from YAML hold none, and a text with a
sequence is refused.

## Main definitions

* `Token`: the tokens;
* `Lexer`: what is known in the midst of a text;
* `tokens?`: the tokens of a text.
-/

namespace Swimlane.Yaml

/-- A piece of a YAML text that matters to its structure. -/
inductive Token where
  /-- The directive that names the version of the language. -/
  | version (major minor : Nat)
  /-- The directive that says what a handle is short for. -/
  | stem (handle : String) (bytes : List UInt8)
  | documentStart
  | documentEnd
  | blockMapping
  | blockEnd
  | flowMapping
  | flowEnd
  | flowEntry
  | key
  | value
  | alias (name : String)
  | anchor (name : String)
  | tag (t : Tag)
  | scalar (style : Style) (text : String)
  deriving Repr, DecidableEq

/-- A token that is a key if a colon follows. -/
structure PossibleKey where
  /-- How many tokens stand before it. -/
  position : Nat
  line : Nat
  column : Nat
  index : Nat
  /-- Whether it can be nothing but a key. -/
  required : Bool

/-- What is known in the midst of a text. -/
structure Lexer where
  cursor : Cursor
  tokens : List Token := []
  /-- The columns of the block mappings around, innermost first. -/
  columns : List Nat := []
  /-- The possible keys of the flow mappings around, innermost first. -/
  outerKeys : List (Option PossibleKey) := []
  /-- The possible key at this level. -/
  possibleKey : Option PossibleKey := none
  keyAllowed : Bool := true

namespace Lexer

/-- Whether the place is inside a flow mapping. -/
def inFlow (l : Lexer) : Bool := !l.outerKeys.isEmpty

def push (l : Lexer) (t : Token) : Lexer := { l with tokens := l.tokens ++ [t] }

/-- Puts a token in front of the one at a position. -/
def insertAt (l : Lexer) (position : Nat) (t : Token) : Lexer :=
  { l with tokens := l.tokens.take position ++ t :: l.tokens.drop position }

/-- A key is on one line and not longer than 1024 characters. -/
def isStale (c : Cursor) (k : PossibleKey) : Bool := k.line < c.line || k.index + 1024 < c.index

/-- Gives up the keys that no colon can follow any more. -/
def dropStale (l : Lexer) : Option Lexer :=
  let keep (k : Option PossibleKey) := k.filter (!isStale l.cursor ·)
  if (l.possibleKey :: l.outerKeys).any (·.any fun k => k.required && isStale l.cursor k) then none
  else some { l with possibleKey := keep l.possibleKey, outerKeys := l.outerKeys.map keep }

/-- Gives up the possible key of this level. -/
def dropKey (l : Lexer) : Option Lexer :=
  if l.possibleKey.any (·.required) then none else some { l with possibleKey := none }

/-- Remembers that the next token may be a key. -/
def saveKey (l : Lexer) : Option Lexer :=
  if l.keyAllowed then do
    let l ← l.dropKey
    let c := l.cursor
    let required := !l.inFlow && l.columns.head? = some c.column
    return { l with possibleKey := some ⟨l.tokens.length, c.line, c.column, c.index, required⟩ }
  else some l

/-- Ends the block mappings behind a column; with none, all of them. -/
def closeBlocks (column : Option Nat) (l : Lexer) : Lexer :=
  if l.inFlow then l
  else
    let ended := l.columns.takeWhile fun n => column.all (· < n)
    { l with
      columns := l.columns.drop ended.length
      tokens := l.tokens ++ ended.map fun _ => .blockEnd }

/-- Starts a block mapping at a column if none stands there. -/
def openBlock (l : Lexer) (column position : Nat) : Lexer :=
  if l.inFlow || (l.columns.head?.any (column ≤ ·)) then l
  else { l.insertAt position .blockMapping with columns := column :: l.columns }

/-- The place behind a byte order mark, which may stand at the start of a line. -/
def skipMark (c : Cursor) : Cursor :=
  if c.column = 0 && c.rest.head? = some '\ufeff' then c.next else c

/-- Skips blanks, comments and line breaks. Where a block may start, tabs are not skipped. -/
def skipBlanks : (fuel : Nat) → Lexer → Lexer
  | 0, l => l
  | fuel + 1, l =>
    let blank (ch : Char) : Bool := ch = ' ' || (ch = '\t' && (l.inFlow || !l.keyAllowed))
    let c := (skipMark l.cursor).skipWhile blank
    let c := if c.rest.head? = some '#' then c.skipWhile (!isBreak ·) else c
    match c.rest with
    | [] => { l with cursor := c }
    | ch :: _ =>
      if isBreak ch then
        skipBlanks fuel { l with cursor := c.nextLine, keyAllowed := l.keyAllowed || !l.inFlow }
      else { l with cursor := c }

/-! ## Single tokens -/

/-- A line that starts or ends a document. -/
def documentMark (l : Lexer) (t : Token) : Option Lexer := do
  let l ← (l.closeBlocks none).dropKey
  return { l.push t with cursor := l.cursor.skip 3, keyAllowed := false }

/-- Reads a number of a version, of at most nine digits. -/
def readVersionNumber (c : Cursor) : Option (Nat × Cursor) :=
  let digits := c.rest.takeWhile Char.isDigit
  if digits.isEmpty || 9 < digits.length then none
  else some (digits.foldl (fun n d => 10 * n + (d.toNat - '0'.toNat)) 0, c.skip digits.length)

/-- Reads a version, two numbers with a point between them. -/
def readVersion (c : Cursor) : Option (Token × Cursor) := do
  let (major, c) ← readVersionNumber c
  if c.rest.head? != some '.' then none
  else
    let (minor, c) ← readVersionNumber c.next
    some (.version major minor, c)

/-- A directive, which takes up its line. -/
def directive (l : Lexer) : Option Lexer := do
  let l ← (l.closeBlocks none).dropKey
  let c := l.cursor.next
  let name := c.rest.takeWhile isNameChar
  let c := c.skip name.length
  if !endsWord c.rest then none
  else
    let c := c.skipWhile isSpace
    let (t, c) ← match String.ofList name with
      | "YAML" => readVersion c
      | "TAG" => (readStem c).map fun p => (.stem p.1 p.2.1, p.2.2)
      | _ => none
    return { l.push t with cursor := ← skipLineEnd c, keyAllowed := false }

def flowStart (l : Lexer) : Option Lexer := do
  let l ← l.saveKey
  return { l.push .flowMapping with
    cursor := l.cursor.next, outerKeys := l.possibleKey :: l.outerKeys, possibleKey := none
    keyAllowed := true }

def flowEnd (l : Lexer) : Option Lexer := do
  let l ← l.dropKey
  match l.outerKeys with
  | [] => none
  | key :: outer =>
    return { l.push .flowEnd with
      cursor := l.cursor.next, outerKeys := outer, possibleKey := key, keyAllowed := false }

def flowEntry (l : Lexer) : Option Lexer := do
  let l ← l.dropKey
  return { l.push .flowEntry with cursor := l.cursor.next, keyAllowed := true }

/-- A question mark in front of a key. -/
def explicitKey (l : Lexer) : Option Lexer := do
  if !l.inFlow && !l.keyAllowed then none
  else
    let l ← (l.openBlock l.cursor.column l.tokens.length).dropKey
    return { l.push .key with cursor := l.cursor.next, keyAllowed := !l.inFlow }

/-- A colon. It makes the possible key of its level a key. -/
def value (l : Lexer) : Option Lexer :=
  match l.possibleKey with
  | some k =>
    let l := (l.insertAt k.position .key).openBlock k.column k.position
    some { l.push .value with cursor := l.cursor.next, possibleKey := none, keyAllowed := false }
  | none =>
    if !l.inFlow && !l.keyAllowed then none
    else
      let l := l.openBlock l.cursor.column l.tokens.length
      some { l.push .value with cursor := l.cursor.next, keyAllowed := !l.inFlow }

/-- An anchor or an alias. -/
def reference (l : Lexer) (make : String → Token) : Option Lexer := do
  let l ← l.saveKey
  let c := l.cursor.next
  let name := c.rest.takeWhile isNameChar
  let c := c.skip name.length
  let closed := endsWord c.rest || c.rest.head?.any ("?:,]\x7d%@\x60".toList.contains ·)
  if name.isEmpty || !closed then none
  else return { l.push (make (String.ofList name)) with cursor := c, keyAllowed := false }

def tag (l : Lexer) : Option Lexer := do
  let l ← l.saveKey
  let (t, c) ← readTag l.cursor
  if !endsWord c.rest && !(l.inFlow && c.rest.head? = some ',') then none
  else return { l.push (.tag t) with cursor := c, keyAllowed := false }

def blockScalar (l : Lexer) (literal : Bool) : Option Lexer := do
  let l ← l.dropKey
  let (text, c) ← readBlock literal l.columns.head? l.cursor.next
  let style := if literal then Style.literal else .folded
  return { l.push (.scalar style (String.ofList text)) with cursor := c, keyAllowed := true }

def quotedScalar (l : Lexer) (double : Bool) : Option Lexer := do
  let l ← l.saveKey
  let (text, c) ← readQuoted double l.cursor.rest.length [] l.cursor.next
  return { l.push (.scalar .quoted (String.ofList text)) with cursor := c, keyAllowed := false }

def plainScalar (l : Lexer) : Option Lexer := do
  let l ← l.saveKey
  let indent := (l.columns.head?.map (· + 1)).getD 0
  let (text, c, newLine) ← readPlain l.inFlow indent l.cursor.rest.length [] [] false l.cursor
  return { l.push (.scalar .plain (String.ofList text)) with cursor := c, keyAllowed := newLine }

/-- The characters that no plain scalar starts with. -/
def isIndicator (c : Char) : Bool := "-?:,[]\x7b\x7d#&*!|>'\"%@\x60".toList.contains c

/-- Whether a plain scalar starts here. -/
def startsPlain (inFlow : Bool) : List Char → Bool
  | [] => false
  | c :: after =>
    (!isSpaceOrBreak c && !isIndicator c) || (c = '-' && !(after.head?.any isSpace)) ||
      (!inFlow && (c = '?' || c = ':') && !endsWord after)

/-- Reads the next token of a text that has not ended. -/
def step (l : Lexer) : Option Lexer :=
  let c := l.cursor
  if c.column = 0 && c.rest.head? = some '%' then l.directive
  else if c.atMark "---" then l.documentMark .documentStart
  else if c.atMark "..." then l.documentMark .documentEnd
  else match c.rest with
    | [] => none
    | ch :: after =>
      if ch = '\x7b' then l.flowStart
      else if ch = '\x7d' then l.flowEnd
      else if ch = ',' && l.inFlow then l.flowEntry
      else if ch = '-' && endsWord after then none
      else if ch = '?' && (l.inFlow || endsWord after) then l.explicitKey
      else if ch = ':' && (l.inFlow || endsWord after) then l.value
      else if ch = '*' then l.reference .alias
      else if ch = '&' then l.reference .anchor
      else if ch = '!' then l.tag
      else if ch = '|' && !l.inFlow then l.blockScalar true
      else if ch = '>' && !l.inFlow then l.blockScalar false
      else if ch = '\'' then l.quotedScalar false
      else if ch = '"' then l.quotedScalar true
      else if startsPlain l.inFlow c.rest then l.plainScalar
      else none

/-- Reads tokens to the end of the text. -/
def run : (fuel : Nat) → Lexer → Option (List Token)
  | 0, _ => none
  | fuel + 1, l => do
    let l ← (l.skipBlanks (l.cursor.rest.length + 1)).dropStale
    if l.cursor.rest.isEmpty then
      let l ← (l.closeBlocks none).dropKey
      return l.tokens
    else run fuel (← (l.closeBlocks (some l.cursor.column)).step)

end Lexer

/-- The tokens of a text, or nothing when it is not YAML or holds a sequence. -/
def tokens? (text : List Char) : Option (List Token) :=
  if text.all isPrintable then Lexer.run (text.length + 1) { cursor := ⟨text, 0, 0, 0⟩ } else none

end Swimlane.Yaml
