import KernelLint.Text.CodeRange

/-!
# White space

The white space of every script, and trimming by it.
-/

namespace KernelLint.Text

/-- The code points that are white space. -/
def blankRanges : Array CodeRange := #[
  (9, 13), (32, 32), (133, 133), (160, 160), (5760, 5760), (8192, 8202), (8232, 8233),
  (8239, 8239), (8287, 8287), (12288, 12288)].map CodeRange.ofPair

/-- White space of every script, line ends included. -/
def isBlank (c : Char) : Bool :=
  inRanges blankRanges c

/-- The characters left after dropping white space at the front. -/
def trimFront (cs : List Char) : List Char :=
  cs.dropWhile isBlank

/-- The characters left after dropping white space at the back. -/
def trimBack (cs : List Char) : List Char :=
  (cs.reverse.dropWhile isBlank).reverse

/-- A text without white space at its end. -/
def trimEnd (s : String) : String :=
  String.ofList (trimBack s.toList)

/-- A text without white space at either end. -/
def trim (s : String) : String :=
  String.ofList (trimBack (trimFront s.toList))

/-- A text without any white space. -/
def squeeze (s : String) : String :=
  String.ofList (s.toList.filter fun c => !isBlank c)

end KernelLint.Text
