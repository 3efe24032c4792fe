import KernelLint.Cli.Run

/-!
# The program

Reads the files that a command line speaks of, carries the command out, and prints what it leaves
behind.
-/

open KernelLint KernelLint.Cli

/-- The files at a path or below it; what cannot be read is left out. -/
partial def filesUnder (path : String) : IO (List (Path × String)) := do
  try
    let place ← IO.FS.realPath path
    if ← place.isDir then
      let entries ← place.readDir
      let found ← entries.toList.mapM fun e =>
        filesUnder (KernelLint.Path.down ⟨path⟩ [e.fileName]).text
      return found.flatten
    else
      return [(⟨path⟩, ← IO.FS.readFile path)]
  catch _ => return []

/-- The files that a command speaks of. -/
def filesFor (c : Command) : IO FileTree := do
  let own ← (c.paths ++ c.library.toList).mapM fun p => filesUnder p.text
  let config ← c.config.toList.mapM fun p => filesUnder p.text
  return .ofFiles (own ++ config).flatten

def main (words : List String) : IO UInt32 := do
  let tree ← match Command.parse words with
    | .ok c => filesFor c
    | .error _ => pure (.ofFiles [])
  let outcome := Cli.run words tree
  IO.print outcome.output
  IO.eprint outcome.complaint
  return outcome.exitCode.toUInt32
