import Swimlane.Text.Blank

/-!
# Indentation

The depth of a line is the number of units of indentation in front of it. A unit is a number of
spaces or one tab; the first line that is indented by spaces only or by tabs only fixes it. An
indentation that does not fit the unit has no depth, and a `Misfit` says why.

## Main definitions

* `Indentation.ofChars`: how the blank characters in front of a line indent it;
* `Indentation.unit?`: the unit that a first indentation fixes;
* `Indentation.depth`: the depth under a unit.
-/

namespace Swimlane

/-- One level of indentation: a number of spaces, or a tab. -/
inductive IndentUnit where
  | spaces (width : Nat)
  | tab
  deriving Repr, DecidableEq

/-- The indentation of a line by what it consists of. -/
inductive Indentation where
  | none
  | spaces (width : Nat)
  | tabs (width : Nat)
  | mixed
  deriving Repr, DecidableEq

/-- Why an indentation has no depth. -/
inductive Misfit where
  | mixed
  | notMultiple (width unit : Nat)
  | tabsAmongSpaces
  | spacesAmongTabs
  deriving Repr, DecidableEq

def Misfit.message : Misfit → String
  | .mixed => "indentation mixes tabs, spaces or other whitespace"
  | .notMultiple width unit =>
    "indentation of " ++ toString width ++ " spaces is not a multiple of the " ++ toString unit ++
      "-space unit"
  | .tabsAmongSpaces => "tab indentation in a space-indented document"
  | .spacesAmongTabs => "space indentation in a tab-indented document"

namespace Indentation

/-- Reads the blank characters in front of a line. -/
def ofChars (cs : List Char) : Indentation :=
  if cs.isEmpty then .none
  else if cs.all (· == ' ') then .spaces cs.length
  else if cs.all (· == '\t') then .tabs cs.length
  else .mixed

/-- The unit that this indentation fixes when no line before it has fixed one. -/
def unit? : Indentation → Option IndentUnit
  | .spaces width => some (.spaces width)
  | .tabs _ => some .tab
  | .none | .mixed => Option.none

/-- The depth of an indentation under the unit fixed so far. Where none is fixed, the indentation
fixes it itself. -/
def depth (unit : Option IndentUnit) : Indentation → Except Misfit Nat
  | .none => .ok 0
  | .mixed => .error .mixed
  | .spaces width =>
    match unit.getD (.spaces width) with
    | .tab => .error .spacesAmongTabs
    | .spaces size =>
      if width % size = 0 then .ok (width / size) else .error (.notMultiple width size)
  | .tabs width =>
    match unit.getD .tab with
    | .spaces _ => .error .tabsAmongSpaces
    | .tab => .ok width

end Indentation

end Swimlane
