import KernelLint.Java.Grammar
import KernelLint.Java.Unit

/-!
# Source texts

A source text is read with the grammar of this library. What is known of programs that are read
holds for any syntax tree, wherever it comes from.
-/

namespace KernelLint.Program

/-- Add a source text as a file. -/
def addSource (p : Program) (path : Path) (source : String) (origin : Origin) : FileId × Program :=
  p.addTree path (Java.Tree.ofSource source) origin

end KernelLint.Program
