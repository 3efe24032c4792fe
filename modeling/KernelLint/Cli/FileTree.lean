import KernelLint.Source.Path

/-!
# Files by path

The files a command can see, and which of them a path on the command line stands for. A path is
walked name by name: every name but the last has to lead to a directory, also where a later `..`
takes it back.
-/

namespace KernelLint.Cli

/-! ## Places -/

/-- A place in the tree: the names that lead to it, the last one first. The names begin with `..`
for what lies above the starting directory, and with an empty name for what an absolute path speaks
of. -/
abbrev Spot := List String

/-- One step of a path: up, or down to a name. -/
def goDown : Spot → String → Spot
  | here, "" => here
  | here, "." => here
  | here, ".." =>
    match here with
    | [] => [".."]
    | [""] => [""]
    | ".." :: above => ".." :: ".." :: above
    | _ :: above => above
  | here, name => name :: here

/-- The places passed on the way from a place along some names. The last one is where they lead. -/
def trail : Spot → List String → List Spot × Spot
  | here, [] => ([], here)
  | here, name :: names =>
    let (passed, last) := trail (goDown here name) names
    (here :: passed, last)

/-- The places that a path passes, and where it leads. -/
def walk (p : Path) : List Spot × Spot :=
  trail (if Text.startsWith p.text "/" then [""] else [])
    ((Path.splitChars p.text.toList).map String.ofList)

/-- The places that a path passes. They have to be directories. -/
def passed (p : Path) : List Spot := (walk p).1

/-- Where a path leads. -/
def location (p : Path) : Spot := (walk p).2

/-- The names that lead from one place down to another one. -/
def below? (upper lower : Spot) : Option (List String) :=
  go upper.reverse lower.reverse
where
  go : List String → List String → Option (List String)
    | [], names => some names
    | _ :: _, [] => none
    | a :: as, b :: bs => if a = b then go as bs else none

/-- Is it a source file by its name? A name that begins with its only dot has no extension. -/
def isSource (p : Path) : Bool :=
  match (location p).head? with
  | none => false
  | some name =>
    match Text.splitLast? '.' name with
    | some (stem, extension) => !stem.isEmpty && extension = "java"
    | none => false

/-! ## Trees -/

structure FileTree where
  files : List (Path × String)
  deriving Inhabited

namespace FileTree

/-- The tree of some files; of several at one place the last counts. -/
def ofFiles (files : List (Path × String)) : FileTree :=
  ⟨files.foldr (fun f kept => if kept.any fun g => location g.1 = location f.1 then kept
    else f :: kept) []⟩

/-- Is there a directory at a place? The starting directory and those above it are always there, the
others when a file has been put below them. -/
def isDirectory (t : FileTree) (here : Spot) : Bool :=
  here.all (· = "..") || here = [""] || t.files.any fun f => (passed f.1).contains here

/-- Where a path leads, if all it passes are directories. -/
def reach? (t : FileTree) (p : Path) : Option Spot :=
  if (passed p).all t.isDirectory then some (location p) else none

def read? (t : FileTree) (p : Path) : Option String := do
  let here ← t.reach? p
  let file ← t.files.find? fun f => location f.1 = here
  return file.2

/-- The source files at a path or below it, each under a path that begins with the given one. -/
def sources (t : FileTree) (root : Path) : List (Path × String) :=
  match t.reach? root with
  | none => []
  | some here =>
    (t.files.filterMap fun (path, text) =>
      (below? here (location path)).map fun names => (root.down names, text)).filter fun f =>
        isSource f.1

end FileTree

end KernelLint.Cli
