import KernelLint.Text.Cut

/-!
# Paths

Two paths name the same file when their components agree: doubled separators, a separator at the end
and inner `.` components do not count.
-/

namespace KernelLint

/-- A path as written. -/
structure Path where
  text : String
  deriving DecidableEq, Inhabited

namespace Path

/-- Split at separators. -/
def splitChars : List Char → List (List Char)
  | [] => [[]]
  | c :: cs =>
    match splitChars cs with
    | [] => [[c]]
    | part :: parts => if c = '/' then [] :: part :: parts else (c :: part) :: parts

/-- The components that tell paths apart: a mark for an absolute path, a leading `.`, and the
names. -/
def components (p : Path) : List String :=
  match splitChars p.text.toList with
  | [] => []
  | first :: rest =>
    let names := (rest.filter fun part => !(part.isEmpty || part = ['.'])).map String.ofList
    if first.isEmpty then
      if rest.isEmpty then names else "/" :: names
    else String.ofList first :: names

/-- Do two paths name the same file? -/
def same (p q : Path) : Bool :=
  p.components = q.components

/-- A path with names below it. -/
def down (p : Path) (names : List String) : Path :=
  match names with
  | [] => p
  | _ =>
    let gap := if Text.endsWith p.text "/" then "" else "/"
    ⟨p.text ++ gap ++ Text.joinWith "/" names⟩

end Path

end KernelLint
