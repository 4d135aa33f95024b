/-!
# Identifiers

Lanes and elements share one set of identifiers. An identifier that is taken gets the first free
number behind it, from two on.
-/

namespace Swimlane.Identifier

/-- An identifier with a number behind it. -/
def numbered (base : String) (n : Nat) : String := base ++ "_" ++ toString n

/-- The first identifier from number `n` on that is free. Of `fuel + 1` numbers one is, when `fuel`
counts the taken identifiers. -/
def firstFree (used : List String) (base : String) : (fuel n : Nat) → String
  | 0, n => numbered base n
  | fuel + 1, n =>
    if numbered base n ∈ used then firstFree used base fuel (n + 1) else numbered base n

/-- A free identifier for a base. -/
def fresh (used : List String) (base : String) : String :=
  if base ∈ used then firstFree used base used.length 2 else base

/-- Takes a free identifier: the identifier and the identifiers that are taken then. -/
def allocate (used : List String) (base : String) : String × List String :=
  (fresh used base, used ++ [fresh used base])

end Swimlane.Identifier
