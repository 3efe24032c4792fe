/-!
# Ranges of code points

Character classes that go beyond ASCII are given by tables of closed ranges.
-/

namespace KernelLint.Text

/-- A closed range of code points. -/
structure CodeRange where
  first : Nat
  last : Nat
  deriving DecidableEq

/-- A table entry. -/
def CodeRange.ofPair (p : Nat × Nat) : CodeRange := ⟨p.1, p.2⟩

def CodeRange.contains (r : CodeRange) (c : Char) : Bool :=
  r.first ≤ c.toNat && c.toNat ≤ r.last

/-- Membership in a table of ranges. -/
def inRanges (table : Array CodeRange) (c : Char) : Bool :=
  table.any (·.contains c)

/-- Membership in a table of ranges of which only every second code point counts. -/
def inAlternatingRanges (table : Array CodeRange) (c : Char) : Bool :=
  table.any fun r => r.contains c && (c.toNat - r.first) % 2 = 0

end KernelLint.Text
