/-!
# JSON values and their text

Published results are printed as JSON, either on one line or with a line for each item. Objects
keep the order of their fields.

## Main definitions

* `Json`: the values that results consist of;
* `Json.Layout`: what is written between the tokens of a value;
* `Json.print`: the text of a value.
-/

namespace Swimlane

/-- The JSON values that results consist of. -/
inductive Json where
  | number (n : Nat)
  | string (s : String)
  | array (items : List Json)
  | object (fields : List (String × Json))
  deriving Repr

namespace Json

/-- How a value is laid out. -/
inductive Layout where
  /-- Without blanks. -/
  | compact
  /-- One item on a line, indented by two spaces for each level. -/
  | pretty
  deriving Repr, DecidableEq

/-- What stands before an item or a closing bracket at a depth. -/
def Layout.newline (layout : Layout) (depth : Nat) : List Char :=
  match layout with
  | .compact => []
  | .pretty => '\n' :: List.replicate (2 * depth) ' '

/-- What stands between a key and its value. -/
def Layout.colon : Layout → List Char
  | .compact => [':']
  | .pretty => [':', ' ']

/-- A hexadecimal digit. -/
def hexDigit (n : Nat) : Char :=
  if n < 10 then Char.ofNat ('0'.toNat + n) else Char.ofNat ('a'.toNat + (n - 10))

/-- A character inside a string. Quotes, backslashes and control characters are escaped. -/
def escape (c : Char) : List Char :=
  if c = '"' then ['\\', '"']
  else if c = '\\' then ['\\', '\\']
  else if c = '\x08' then ['\\', 'b']
  else if c = '\t' then ['\\', 't']
  else if c = '\n' then ['\\', 'n']
  else if c = '\x0c' then ['\\', 'f']
  else if c = '\r' then ['\\', 'r']
  else if c.toNat < 0x20 then
    ['\\', 'u', '0', '0', hexDigit (c.toNat / 16), hexDigit (c.toNat % 16)]
  else [c]

/-- A string in its quotes. -/
def quote (s : String) : List Char := '"' :: s.toList.flatMap escape ++ ['"']

mutual

/-- The text of a value at a depth. -/
def chars (layout : Layout) (depth : Nat) : Json → List Char
  | .number n => (toString n).toList
  | .string s => quote s
  | .array [] => ['[', ']']
  | .array (item :: items) =>
    '[' :: layout.newline (depth + 1) ++ chars layout (depth + 1) item ++
      itemChars layout (depth + 1) items ++ layout.newline depth ++ [']']
  | .object [] => ['\x7b', '\x7d']
  | .object ((key, value) :: fields) =>
    '\x7b' :: layout.newline (depth + 1) ++ quote key ++ layout.colon ++
      chars layout (depth + 1) value ++ fieldChars layout (depth + 1) fields ++
      layout.newline depth ++ ['\x7d']

/-- The text of the items behind the first one. -/
def itemChars (layout : Layout) (depth : Nat) : List Json → List Char
  | [] => []
  | item :: items =>
    ',' :: layout.newline depth ++ chars layout depth item ++ itemChars layout depth items

/-- The text of the fields behind the first one. -/
def fieldChars (layout : Layout) (depth : Nat) : List (String × Json) → List Char
  | [] => []
  | (key, value) :: fields =>
    ',' :: layout.newline depth ++ quote key ++ layout.colon ++ chars layout depth value ++
      fieldChars layout depth fields

end

/-- The text of a value. -/
def print (layout : Layout) (value : Json) : String := String.ofList (chars layout 0 value)

end Json

end Swimlane
