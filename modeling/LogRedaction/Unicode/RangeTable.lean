/-
LogRedaction.Unicode.RangeTable — sets of characters as lists of ranges.

Every character class of this library (letters, numbers, names, printable text) is a table
of closed ranges of code points, in increasing order. Membership is one test per range, so
a statement about a class is a statement about a list of inequalities.
-/

namespace LogRedaction.Unicode

/-- Closed ranges of code points, in increasing order. -/
abbrev RangeTable := Array (Nat × Nat)

/-- Some range of the table holds the code point. -/
def RangeTable.contains (table : RangeTable) (code : Nat) : Bool :=
  table.any fun range => range.1 ≤ code && code ≤ range.2

end LogRedaction.Unicode
