import KernelLint.Java.Source
import KernelLint.Proofs.Resolve.Meaning
import KernelLint.Resolve.Program

/-!
# Imports of single types

What a simple name means in a file that imports a type of that name. A known class comes before
the import if it has the simple name for its qualified name, if it could be a member of an
enclosing class, or if it is in the package of the file. Apart from these rivals no class has a
say: the import decides (`qualify_imported`).
-/

namespace KernelLint.Program

variable {p : Program} {site : Site} {f : SourceFile} {name : String}

/-- The qualified names that come before an import of a single type, in the order in which they are
tried. -/
def rivals (p : Program) (site : Site) (f : SourceFile) (name : String) : List String :=
  name :: ((p.enclosing site.owner).filterMap p.class?).map (·.qualifiedName ++ "." ++ name) ++
    [packaged f.package name]

theorem siteFile?_of_class? (hfile : p.file? site.file = some f)
    (henclosing : ∀ id ∈ p.enclosing site.owner, ∃ c, p.class? id = some c ∧ c.name ≠ name) :
    p.siteFile? site = some f := by
  rw [siteFile?, if_pos ?_, hfile]
  rw [List.all_eq_true]
  intro id hid
  obtain ⟨c, hc, -⟩ := henclosing id hid
  rw [hc]
  rfl

theorem offers_enclosing {ids : List ClassId}
    (h : ∀ id ∈ ids, ∃ c, p.class? id = some c ∧ c.name ≠ name) :
    ids.filterMap (fun id => (p.class? id).map (·.offer name)) =
      ((ids.filterMap p.class?).map (·.qualifiedName ++ "." ++ name)).map (⟨·, false⟩) := by
  induction ids with
  | nil => rfl
  | cons id rest ih =>
    obtain ⟨⟨c, hc, hne⟩, hrest⟩ := List.forall_mem_cons.mp h
    have hoffer : c.offer name = ⟨c.qualifiedName ++ "." ++ name, false⟩ := if_neg hne
    simp [hc, hoffer, ih hrest]

theorem qualifySingle?_of_first {before after : List Import} {i : Import}
    (himports : f.imports = before ++ i :: after)
    (hsingle : i.isStatic = false ∧ i.onDemand = false) (hname : Text.lastSegment i.path = name)
    (hfirst : ∀ j ∈ before, j.isStatic = false → j.onDemand = false →
      Text.lastSegment j.path ≠ name) :
    qualifySingle? name f = some i.path := by
  have hnone : before.find? (fun j => !j.onDemand && !j.isStatic &&
      Text.lastSegment j.path = name) = none := by
    rw [List.find?_eq_none]
    intro j hj hfits
    simp only [Bool.and_eq_true, Bool.not_eq_true', decide_eq_true_eq] at hfits
    exact hfirst j hj hfits.1.2 hfits.1.1 hfits.2
  rw [qualifySingle?, himports, List.find?_append, hnone]
  simp [hsingle, hname]

/-- **An import of a single type decides unless a rival is known.** In a file whose first import of
a single type of that name is `i`, and inside classes of other names, the name stands for the first
rival that is a class of the program, and for what is imported if there is none. -/
theorem qualify_imported (p : Program) (site : Site) (f : SourceFile) (name package : String)
    (before after : List Import) (i : Import) (hfile : p.file? site.file = some f)
    (himports : f.imports = before ++ i :: after)
    (hsingle : i.isStatic = false ∧ i.onDemand = false) (hpath : i.path = package ++ "." ++ name)
    (hname : Text.isDotted name = false)
    (hfirst : ∀ j ∈ before, j.isStatic = false → j.onDemand = false →
      Text.lastSegment j.path ≠ name)
    (henclosing : ∀ id ∈ p.enclosing site.owner, ∃ c, p.class? id = some c ∧ c.name ≠ name) :
    p.qualify name site =
      if isBuiltinName name then name
      else ((p.rivals site f name).find? p.hasClass).getD (package ++ "." ++ name) := by
  have hlast : Text.lastSegment i.path = name := by rw [hpath, Text.lastSegment_qualified hname]
  have hoffers : p.offers name site = ((p.rivals site f name).tail.map (⟨·, false⟩)) ++
      (some (package ++ "." ++ name)).toList.map (⟨·, true⟩) ++ (f.offers name).drop 2 := by
    rw [offers, siteFile?_of_class? hfile henclosing, offers_enclosing henclosing]
    simp [rivals, SourceFile.offers, qualifySingle?_of_first himports hsingle hlast hfirst, hpath]
  rw [qualify_undotted hname, qualifySimple?_eq_taken, hoffers, List.append_assoc, taken_uncertain,
    taken_certain]
  cases isBuiltinName name with
  | true => rfl
  | false =>
    rw [rivals, List.cons_append, List.find?_cons, List.tail_cons]
    cases p.hasClass name with
    | true => rfl
    | false => cases List.find? p.hasClass _ <;> rfl

/-- A file of package `q` that imports the type `p.N`, with a nested class `A.B`, and another
file. -/
def importing (other : String) : Program :=
  ((Program.empty.addSource ⟨"A.java"⟩
    "package q; import static z.N; import r.*; import p.N; class A { class B { } }"
    .project).2.addSource ⟨"N.java"⟩ other .project).2

/-- The other file declares the type in a package that is imported on demand. -/
def besideDemanded : Program := importing "package r; class N { }"

theorem qualify_imported_besideDemanded : ∃ f, besideDemanded.file? ⟨0⟩ = some f ∧
    besideDemanded.qualify "N" ⟨⟨0⟩, some ⟨1⟩⟩ =
      if isBuiltinName "N" then "N"
      else ((besideDemanded.rivals ⟨⟨0⟩, some ⟨1⟩⟩ f "N").find? besideDemanded.hasClass).getD
        ("p" ++ "." ++ "N") := by
  have hfacts : (besideDemanded.file? ⟨0⟩).map (·.imports) =
        some [⟨"z.N", true, false⟩, ⟨"r", false, true⟩, ⟨"p.N", false, false⟩] ∧
      ∀ id ∈ besideDemanded.enclosing (some ⟨1⟩),
        (besideDemanded.class? id).any (·.name ≠ "N") = true := by
    decide +kernel
  obtain ⟨himports, hnames⟩ := hfacts
  obtain ⟨f, hfile, himports⟩ := Option.map_eq_some_iff.mp himports
  refine ⟨f, hfile, qualify_imported _ _ f "N" "p" [_, _] [] _ hfile himports (by decide) rfl
    (by decide) (by decide) ?_⟩
  intro id hid
  simpa [Option.any_eq_true] using hnames id hid

/-- The other file declares the type in the package of the file. -/
def besidePackaged : Program := importing "package q; class N { }"

/-- The file imports `p.N`, and neither `A` nor `B` has that name or a member of that name, but the
class of that name in the package of the file is preferred. -/
theorem package_before_import :
    (besidePackaged.file? ⟨0⟩).map (·.imports) =
      some [⟨"z.N", true, false⟩, ⟨"r", false, true⟩, ⟨"p.N", false, false⟩] ∧
    (besidePackaged.enclosing (some ⟨1⟩)).map
        (fun id => (besidePackaged.class? id).map fun c => (c.name, c.nested)) =
      [some ("B", []), some ("A", [⟨1⟩])] ∧
    besidePackaged.qualify "N" ⟨⟨0⟩, some ⟨1⟩⟩ = "q.N" := by
  decide +kernel

end KernelLint.Program
