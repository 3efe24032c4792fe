/-!
# Positions in a source text

Lines count from one, columns from zero in UTF-8 bytes. Spans are ordered by their start, then by
their end, so that sorting by span is reading order.
-/

namespace KernelLint

/-- A point between two characters. -/
structure Location where
  line : Nat
  column : Nat
  deriving DecidableEq, Inhabited

/-- The text from a start location to an end location. -/
structure Span where
  startLine : Nat := 0
  startCol : Nat := 0
  endLine : Nat := 0
  endCol : Nat := 0
  deriving DecidableEq, Inhabited

/-- The order of pairs of numbers, first component first. -/
def Location.compare (a b : Location) : Ordering :=
  (Ord.compare a.line b.line).then (Ord.compare a.column b.column)

/-- Line and column after some characters; only a line feed ends a line. -/
def Location.after (start : Location) (cs : List Char) : Location :=
  cs.foldl (fun here c =>
    if c = '\n' then ⟨here.line + 1, 0⟩ else ⟨here.line, here.column + c.utf8Size⟩) start

namespace Span

/-- The span of things that stand nowhere in a source. -/
def zero : Span := {}

def start (s : Span) : Location := ⟨s.startLine, s.startCol⟩

def stop (s : Span) : Location := ⟨s.endLine, s.endCol⟩

/-- Start first, then end. -/
def compare (a b : Span) : Ordering :=
  (a.start.compare b.start).then (a.stop.compare b.stop)

def containsLine (s : Span) (line : Nat) : Bool :=
  s.startLine ≤ line && line ≤ s.endLine

/-- Does `a` begin no later and end no earlier than `b`? -/
def contains (a b : Span) : Bool :=
  (a.start.compare b.start).isLE && (b.stop.compare a.stop).isLE

/-- Line and column of the start, both counted from one. -/
def render (s : Span) : String :=
  toString s.startLine ++ ":" ++ toString (s.startCol + 1)

end Span

end KernelLint
