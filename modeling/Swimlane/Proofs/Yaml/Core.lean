import Swimlane.Yaml.Scalar

/-!
# Scalars under the core schema

What YAML 1.2 makes of a scalar that stands alone on the rest of a line, under its core schema. A
plain scalar stands for a number, a truth value or nothing where it looks like one, and for a text
otherwise. A scalar between double quotes always stands for a text.

## Main definitions

* `kindOf`: what a plain scalar stands for;
* `isPlain`, `readDouble`: the forms of plain scalars and of scalars between double quotes;
* `read`: what is read of a scalar.
-/

namespace Swimlane.Yaml.Core

/-- What a scalar stands for. -/
inductive Kind where
  | null
  | bool
  | int
  | float
  | str
  deriving Repr, DecidableEq

/-- A scalar that has been read: what it stands for, and its characters. -/
structure Scalar where
  kind : Kind
  text : List Char
  deriving Repr, DecidableEq

/-! ## The schema -/

def dropSign : List Char → List Char
  | '-' :: cs | '+' :: cs => cs
  | cs => cs

/-- Some digits, and at least one. -/
def isNumeral (digit : Char → Bool) (cs : List Char) : Bool := !cs.isEmpty && cs.all digit

def isNull (cs : List Char) : Bool :=
  (["", "~", "null", "Null", "NULL"].map (·.toList)).contains cs

def isBool (cs : List Char) : Bool :=
  (["true", "True", "TRUE", "false", "False", "FALSE"].map (·.toList)).contains cs

def isOctalDigit (c : Char) : Bool := '0' ≤ c && c ≤ '7'

def isHexDigit (c : Char) : Bool := (hexValue? [c]).isSome

/-- An integer in base ten, with or without a sign, or one in base eight or sixteen. -/
def isInt : List Char → Bool
  | '0' :: 'o' :: cs => isNumeral isOctalDigit cs
  | '0' :: 'x' :: cs => isNumeral isHexDigit cs
  | cs => isNumeral Char.isDigit (dropSign cs)

/-- The exponent of a number, if it has one. -/
def isExponent : List Char → Bool
  | [] => true
  | 'e' :: cs | 'E' :: cs => isNumeral Char.isDigit (dropSign cs)
  | _ => false

/-- A number with or without a fraction. Digits stand at least on one side of the point. -/
def isDecimal (cs : List Char) : Bool :=
  let whole := cs.takeWhile Char.isDigit
  match cs.dropWhile Char.isDigit with
  | '.' :: rest =>
    !(whole.isEmpty && (rest.takeWhile Char.isDigit).isEmpty) &&
      isExponent (rest.dropWhile Char.isDigit)
  | rest => !whole.isEmpty && isExponent rest

def isFloat (cs : List Char) : Bool :=
  isDecimal (dropSign cs) || ([".inf", ".Inf", ".INF"].map (·.toList)).contains (dropSign cs) ||
    ([".nan", ".NaN", ".NAN"].map (·.toList)).contains cs

/-- What a plain scalar stands for. -/
def kindOf (cs : List Char) : Kind :=
  if isNull cs then .null
  else if isBool cs then .bool
  else if isInt cs then .int
  else if isFloat cs then .float
  else .str

/-! ## Plain scalars -/

/-- The characters of a word: they can be printed, and they are no blanks, no line breaks and no
byte order mark. -/
def isWordChar (c : Char) : Bool :=
  isPrintable c && !isSpace c && c != '\n' && c != '\r' && c.toNat != 0xFEFF

/-- The characters that mean something at the start of a node. -/
def indicators : List Char :=
  ['-', '?', ':', ',', '[', ']', '\x7b', '\x7d', '#', '&', '*', '!', '|', '>', '\'', '"', '%', '@',
    '\x60']

/-- What may follow the first character of a plain scalar. A `#` behind a blank starts a comment, a
`:` that no word follows ends a key, and blanks at the end belong to no scalar. -/
def isPlainRest (behindBlank : Bool) : List Char → Bool
  | [] => !behindBlank
  | c :: cs =>
    if isSpace c then isPlainRest true cs
    else isWordChar c && !(c = '#' && behindBlank) && (c != ':' || cs.head?.any isWordChar) &&
      isPlainRest false cs

/-- A plain scalar. It starts with a word, and with an indicator only if that is one of three and a
word follows. -/
def isPlain : List Char → Bool
  | [] => false
  | c :: cs =>
    isWordChar c &&
      (!indicators.contains c || (['-', '?', ':'].contains c && cs.head?.any isWordChar)) &&
      isPlainRest false cs

/-! ## Scalars between double quotes -/

/-- The characters that may stand between quotes: all but the control characters of ASCII, of which
only the tab may. -/
def isQuotable (c : Char) : Bool := c = '\t' || 0x20 ≤ c.toNat

/-- What an escape stands for, read from behind its backslash, and what follows it. -/
def escaped? : List Char → Option (Char × List Char)
  | [] => none
  | letter :: cs =>
    match escapeLength? letter with
    | none => (escapeChar? letter).map (·, cs)
    | some n =>
      if cs.length < n then none
      else ((hexValue? (cs.take n)).bind charOf?).map (·, cs.drop n)

/-- Reads a scalar from behind its opening quote up to the closing one, behind which nothing may
stand. -/
def readDouble : (fuel : Nat) → List Char → Option (List Char)
  | 0, _ => none
  | _ + 1, [] => none
  | fuel + 1, c :: cs =>
    if c = '"' then if cs.isEmpty then some [] else none
    else if c = '\\' then
      (escaped? cs).bind fun (d, rest) => (readDouble fuel rest).map (d :: ·)
    else if isQuotable c then (readDouble fuel cs).map (c :: ·)
    else none

/-- Reads a scalar that is plain or stands between double quotes. -/
def read : List Char → Option Scalar
  | '"' :: cs => (readDouble cs.length cs).map (⟨.str, ·⟩)
  | cs => if isPlain cs then some ⟨kindOf cs, cs⟩ else none

end Swimlane.Yaml.Core
