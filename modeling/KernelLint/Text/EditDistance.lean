/-!
# Edit distance

The least number of single-character insertions, deletions and substitutions between two texts,
computed row by row, and the choice of the nearest candidate.
-/

namespace KernelLint.Text

/-- The cells of a row to the right of `left`, for the character `c` of the first text. The row
above is given from the cell diagonally above the next one. -/
def distanceCells (c : Char) : List Char → List Nat → Nat → List Nat
  | d :: ds, diagonal :: above :: rest, left =>
    let cell := min (min (above + 1) (left + 1)) (diagonal + if c = d then 0 else 1)
    cell :: distanceCells c ds (above :: rest) cell
  | _, _, _ => []

/-- The last row of the table, from the row of the first `i` characters on. -/
def distanceRows (t : List Char) : List Char → Nat → List Nat → List Nat
  | [], _, row => row
  | c :: cs, i, row => distanceRows t cs (i + 1) ((i + 1) :: distanceCells c t row (i + 1))

/-- Edit distance of two lists of characters. -/
def charDistance (s t : List Char) : Nat :=
  (distanceRows t s 0 (List.range (t.length + 1))).getLastD 0

/-- Edit distance of two texts, counted in characters. -/
def editDistance (s t : String) : Nat :=
  charDistance s.toList t.toList

/-- The candidate with the least distance to `target`; of several, the first. -/
def nearest? (target : String) : List String → Option String
  | [] => none
  | c :: cs =>
    match nearest? target cs with
    | none => some c
    | some best => if editDistance target best < editDistance target c then some best else some c

end KernelLint.Text
