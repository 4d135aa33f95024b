import Swimlane.Yaml.Cursor

/-!
# YAML scalars

A scalar is a text, written plain, between quotes or as a block of lines. Line breaks inside a
plain or quoted scalar are folded: a single one becomes a space, of several the first is dropped.

The readers start at the first character of a scalar and return its text and the place behind it, or
nothing when the text is not YAML.
-/

namespace Swimlane.Yaml

/-- How a scalar is written. Only plain scalars, and literal blocks under a tag, can stand for
something else than text. -/
inductive Style where
  | plain
  | quoted
  | literal
  | folded
  deriving Repr, DecidableEq

/-! ## Folding -/

/-- The blanks and line breaks between two words of a scalar. -/
structure Gap where
  blanks : List Char := []
  breaks : List Char := []

/-- What is left of a gap when it is folded. -/
def Gap.fold (g : Gap) : List Char :=
  match g.breaks with
  | [] => g.blanks
  | ['\n'] => [' ']
  | '\n' :: more => more
  | breaks => breaks

/-- Reads blanks and line breaks. Behind a line break no tab may stand before the column `indent`.
-/
def readGap (indent : Nat) : (fuel : Nat) → Gap → Cursor → Option (Gap × Cursor)
  | 0, g, c => some (g, c)
  | fuel + 1, g, c =>
    match c.rest with
    | [] => some (g, c)
    | ch :: _ =>
      if isSpace ch then
        if g.breaks.isEmpty then readGap indent fuel { g with blanks := g.blanks ++ [ch] } c.next
        else if ch = '\t' && c.column < indent then none
        else readGap indent fuel g c.next
      else if isBreak ch then
        readGap indent fuel { g with breaks := g.breaks ++ [breakChar ch] } c.nextLine
      else some (g, c)

/-! ## Plain scalars -/

/-- The characters that structure a flow mapping or sequence. -/
def isFlowMark (c : Char) : Bool := [',', '[', ']', '\x7b', '\x7d'].contains c

/-- Reads the characters of a plain scalar up to a blank or to what ends the scalar. -/
def readPlainWord (inFlow : Bool) : (fuel : Nat) → List Char → Cursor → Option (List Char × Cursor)
  | 0, acc, c => some (acc, c)
  | fuel + 1, acc, c =>
    match c.rest with
    | [] => some (acc, c)
    | ch :: after =>
      if isSpaceOrBreak ch then some (acc, c)
      else if inFlow && ch = ':' && (after.head?.any fun d => isFlowMark d || d = '?') then none
      else if ch = ':' && endsWord after then some (acc, c)
      else if inFlow && isFlowMark ch then some (acc, c)
      else readPlainWord inFlow fuel (acc ++ [ch]) c.next

/-- Reads the words of a plain scalar. Lines that follow stand at column `indent` or behind it,
unless the scalar is inside a flow mapping. The last result says whether the scalar ends at a new
line. -/
def readPlain (inFlow : Bool) (indent : Nat) :
    (fuel : Nat) → (text gap : List Char) → (newLine : Bool) → Cursor →
      Option (List Char × Cursor × Bool)
  | 0, text, _, newLine, c => some (text, c, newLine)
  | fuel + 1, text, gap, newLine, c =>
    if c.atDocumentMark || c.rest.head? = some '#' then some (text, c, newLine)
    else do
      let (word, c) ← readPlainWord inFlow c.rest.length [] c
      let text := if word.isEmpty then text else text ++ gap ++ word
      let newLine := newLine && word.isEmpty
      if c.rest.isEmpty || !endsWord c.rest then some (text, c, newLine)
      else
        let (g, c) ← readGap indent c.rest.length {} c
        let newLine := newLine || !g.breaks.isEmpty
        if !inFlow && c.column < indent then some (text, c, newLine)
        else readPlain inFlow indent fuel text g.fold newLine c

/-! ## Quoted scalars -/

/-- The number of hexadecimal digits. -/
def hexValue? (digits : List Char) : Option Nat :=
  let digit? (c : Char) : Option Nat :=
    if '0' ≤ c && c ≤ '9' then some (c.toNat - '0'.toNat)
    else if 'a' ≤ c && c ≤ 'f' then some (c.toNat - 'a'.toNat + 10)
    else if 'A' ≤ c && c ≤ 'F' then some (c.toNat - 'A'.toNat + 10)
    else none
  digits.foldlM (fun n c => (digit? c).map (16 * n + ·)) 0

/-- The character of a code point, if it is one. -/
def charOf? (n : Nat) : Option Char := if n.isValidChar then some (Char.ofNat n) else none

/-- How many hexadecimal digits follow the letter of an escape. -/
def escapeLength? : Char → Option Nat
  | 'x' => some 2
  | 'u' => some 4
  | 'U' => some 8
  | _ => none

/-- The character of an escape of one letter. -/
def escapeChar? : Char → Option Char
  | '0' => some '\x00'
  | 'a' => some '\x07'
  | 'b' => some '\x08'
  | 't' | '\t' => some '\t'
  | 'n' => some '\n'
  | 'v' => some '\x0b'
  | 'f' => some '\x0c'
  | 'r' => some '\r'
  | 'e' => some '\x1b'
  | ' ' => some ' '
  | '"' => some '"'
  | '/' => some '/'
  | '\\' => some '\\'
  | 'N' => some '\u0085'
  | '_' => some '\u00a0'
  | 'L' => some '\u2028'
  | 'P' => some '\u2029'
  | _ => none

/-- Reads the escape behind a backslash. -/
def readEscape (c : Cursor) : Option (Char × Cursor) :=
  match c.rest with
  | [] => none
  | letter :: after =>
    match escapeLength? letter with
    | none => (escapeChar? letter).map fun ch => (ch, c.next)
    | some n =>
      if after.length < n then none
      else ((hexValue? (after.take n)).bind charOf?).map fun ch => (ch, c.skip (n + 1))

/-- Reads the characters of a quoted scalar up to a blank, a quote or an escaped line break. The
last result says whether a line break was escaped. -/
def readQuotedWord (double : Bool) :
    (fuel : Nat) → List Char → Cursor → Option (List Char × Cursor × Bool)
  | 0, acc, c => some (acc, c, false)
  | fuel + 1, acc, c =>
    match c.rest with
    | [] => some (acc, c, false)
    | ch :: after =>
      if isSpaceOrBreak ch then some (acc, c, false)
      else if !double && ch = '\'' then
        if after.head? = some '\'' then readQuotedWord double fuel (acc ++ ['\'']) (c.skip 2)
        else some (acc, c, false)
      else if double && ch = '"' then some (acc, c, false)
      else if double && ch = '\\' then
        if after.head?.any isBreak then some (acc, c.next.nextLine, true)
        else do
          let (escaped, c) ← readEscape c.next
          readQuotedWord double fuel (acc ++ [escaped]) c
      else readQuotedWord double fuel (acc ++ [ch]) c.next

/-- Reads a quoted scalar from behind its opening quote. -/
def readQuoted (double : Bool) : (fuel : Nat) → List Char → Cursor → Option (List Char × Cursor)
  | 0, _, _ => none
  | fuel + 1, text, c =>
    if c.atDocumentMark || c.rest.isEmpty then none
    else do
      let (word, c, escaped) ← readQuotedWord double c.rest.length [] c
      let text := text ++ word
      if c.rest.head? = some (if double then '"' else '\'') then some (text, c.next)
      else
        -- Blanks behind an escaped line break are dropped, and line breaks there are all kept.
        let c := if escaped then c.skipWhile isSpace else c
        let (g, c) ← readGap 0 c.rest.length {} c
        readQuoted double fuel (text ++ if escaped then g.breaks else g.fold) c

/-! ## Block scalars -/

/-- Which line breaks at the end of a block are kept: none, one or all. -/
inductive Chomp where
  | strip
  | clip
  | keep
  deriving DecidableEq

/-- Reads the marks behind the indicator of a block: how it ends, and how far it is indented. -/
def readBlockHeader (c : Cursor) : Option (Chomp × Option Nat × Cursor) :=
  let chomp? : Char → Option Chomp
    | '+' => some .keep
    | '-' => some .strip
    | _ => none
  let digit? (d : Char) : Option Nat := if d.isDigit then some (d.toNat - '0'.toNat) else none
  match c.rest with
  | [] => some (.clip, none, c)
  | a :: after =>
    match chomp? a, digit? a with
    | some chomp, _ =>
      match after.head?.bind digit? with
      | some 0 => none
      | some n => some (chomp, some n, c.skip 2)
      | none => some (chomp, none, c.next)
    | none, some 0 => none
    | none, some n =>
      match after.head?.bind chomp? with
      | some chomp => some (chomp, some n, c.skip 2)
      | none => some (.clip, some n, c.next)
    | none, none => some (.clip, none, c)

/-- Skips the rest of a line that holds nothing but a comment. -/
def skipLineEnd (c : Cursor) : Option Cursor :=
  let c := c.skipWhile isSpace
  let c := if c.rest.head? = some '#' then c.skipWhile (!isBreak ·) else c
  match c.rest with
  | [] => some c
  | ch :: _ => if isBreak ch then some c.nextLine else none

/-- Skips the indentation of lines without text. Returns their line breaks and the widest of the
indentations. A block of unknown indentation takes spaces as long as they come. -/
def readBlockBreaks (indent : Option Nat) :
    (fuel : Nat) → (breaks : List Char) → (widest : Nat) → Cursor →
      Option (List Char × Nat × Cursor)
  | 0, breaks, widest, c => some (breaks, widest, c)
  | fuel + 1, breaks, widest, c =>
    let spaces := (c.rest.takeWhile (· = ' ')).length
    let room := match indent with
      | some n => n - c.column
      | none => spaces
    let c := c.skip (min spaces room)
    let widest := max widest c.column
    match c.rest with
    | [] => some (breaks, widest, c)
    | ch :: _ =>
      if ch = '\t' && (indent.all fun n => c.column < n) then none
      else if isBreak ch then
        readBlockBreaks indent fuel (breaks ++ [breakChar ch]) widest c.nextLine
      else some (breaks, widest, c)

/-- Reads the lines of a block. `pending` is the line break behind the line before, `breaks` those
of the empty lines that follow it. -/
def readBlockLines (literal : Bool) (indent : Nat) :
    (fuel : Nat) → (text pending breaks : List Char) → (wasBlank : Bool) → Cursor →
      Option (List Char × List Char × List Char × Cursor)
  | 0, text, pending, breaks, _, c => some (text, pending, breaks, c)
  | fuel + 1, text, pending, breaks, wasBlank, c =>
    if c.column ≠ indent || c.rest.isEmpty then some (text, pending, breaks, c)
    else do
      let isBlank := c.rest.head?.any isSpace
      let joint :=
        if !literal && pending = ['\n'] && !wasBlank && !isBlank then
          if breaks.isEmpty then [' '] else []
        else pending
      let line := c.rest.takeWhile (!isBreak ·)
      let text := text ++ joint ++ breaks ++ line
      let c := c.skip line.length
      let pending := (c.rest.head?.map breakChar).toList
      let (breaks, _, c) ← readBlockBreaks (some indent) c.rest.length [] 0 c.nextLine
      readBlockLines literal indent fuel text pending breaks isBlank c

/-- Reads a block scalar from behind its indicator, inside a mapping at column `outer` if there is
one. -/
def readBlock (literal : Bool) (outer : Option Nat) (c : Cursor) : Option (List Char × Cursor) := do
  let (chomp, width, c) ← readBlockHeader c
  let c ← skipLineEnd c
  let known := width.map fun n => outer.getD 0 + n
  let (breaks, widest, c) ← readBlockBreaks known c.rest.length [] 0 c
  let least := (outer.map (· + 1)).getD 0
  let indent := known.getD (max (max widest least) 1)
  let (text, pending, breaks, c) ←
    readBlockLines literal indent c.rest.length [] [] breaks false c
  let ending := match chomp with
    | .strip => []
    | .clip => pending
    | .keep => pending ++ breaks
  return (text ++ ending, c)

end Swimlane.Yaml
