/-!
# Names

A name stands for the number of what it was given to last.

- `Names.insert`, `Names.erase`, `Names.get?`: the table.
-/

namespace Parley

/-- A table of names. -/
abbrev Names := List (String × Nat)

namespace Names

/-- What a name stands for. -/
def get? (ns : Names) (name : String) : Option Nat := ns.lookup name

/-- Takes a name away. -/
def erase (ns : Names) (name : String) : Names := ns.filter fun e => e.1 != name

/-- Gives a name. -/
def insert (ns : Names) (name : String) (n : Nat) : Names := ns.erase name ++ [(name, n)]

/-- The names that stand for a number. -/
def namesOf (ns : Names) (n : Nat) : List String :=
  ns.filterMap fun e => if e.2 = n then some e.1 else none

end Names

end Parley
