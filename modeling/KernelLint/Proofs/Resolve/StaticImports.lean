import KernelLint.Java.Source
import KernelLint.Proofs.Resolve.Overloads
import KernelLint.Resolve.Program

/-!
# Static imports

What an unqualified call denotes when no enclosing class has a method for it. The static imports of
the file are competitors for the name: those on demand, whatever they contain, and those of a member
of that name. The first one of the file decides, before it is known whether its class has such a
method, and the call is one of a method of that class (`callTarget_staticImport`).
-/

namespace KernelLint

/-- The class that an import can bring a member of that name in from. -/
def Import.ownerFor? (i : Import) (name : String) : Option String :=
  if i.onDemand then some i.path
  else match Text.splitLast? '.' i.path with
    | some (owner, member) => if member = name then some owner else none
    | none => none

/-- The classes that the static imports of a file can bring a member of that name in from, in the
order of the imports. -/
def SourceFile.staticOwners (f : SourceFile) (name : String) : List String :=
  (f.imports.filter (·.isStatic)).filterMap (·.ownerFor? name)

namespace Program

variable {p : Program} {f : SourceFile} {name owner : String} {arity : Nat}

theorem staticImportOwner?_eq_head? : staticImportOwner? f name = (f.staticOwners name).head? := by
  rw [SourceFile.staticOwners, List.head?_filterMap]
  rfl

theorem mem_staticOwners {i : Import} (hi : i ∈ f.imports) (hstatic : i.isStatic = true)
    (hsingle : i.onDemand = false) (hpath : i.path = owner ++ "." ++ name)
    (hname : Text.isDotted name = false) : owner ∈ f.staticOwners name := by
  refine List.mem_filterMap.mpr ⟨i, List.mem_filter.mpr ⟨hi, hstatic⟩, ?_⟩
  simp [Import.ownerFor?, hsingle, hpath, Text.splitLast?_qualified hname]

theorem findMethodAmong_eq_none {ids : List ClassId}
    (h : (findMethodAmong name arity ids p).1 = none) :
    findMethodAmong name arity ids p = (none, p) := by
  induction ids with
  | nil => rfl
  | cons id rest ih =>
    rw [findMethodAmong] at h ⊢
    cases hfound : p.findMethodIn id name arity with
    | mk found next =>
      rw [hfound] at h
      cases found with
      | some m => cases h
      | none =>
        obtain rfl : next = p := by
          have hself := @findMethodUpTo_eq_self p name arity chainLimit id
            (congrArg Prod.fst hfound)
          exact (congrArg Prod.snd hfound).symm.trans hself
        exact ih h

theorem findMethodIn_declared {id : ClassId}
    (h : ∃ m ∈ p.methodsNamed id name, m.acceptsArity arity = true) :
    ∃ m ∈ p.methodsNamed id name, m.acceptsArity arity = true ∧
      p.findMethodIn id name arity = (some m.id, p) := by
  have hdeclared := h
  obtain ⟨m, hm, -⟩ := h
  obtain ⟨found, hpick⟩ : ∃ found, pickByArity (p.methodsNamed id name) arity = some found :=
    exists_pickByArity (List.ne_nil_of_mem hm)
  exact ⟨found, mem_of_pickByArity hpick, (acceptsArity_of_pickByArity hpick).mpr hdeclared,
    findMethodUpTo_picked hpick⟩

end Program

namespace Resolve

variable {p : Program} {f : SourceFile} {name owner : String} {arity : Nat} {site : Site}
    {s : Resolution}

theorem onProgram_apply {α : Type} (g : Program → α × Program) (s : Resolution) :
    onProgram g s = ((g s.program).1, { s with program := (g s.program).2 }) := rfl

theorem orElse_of_some {α : Type} {x y : Resolve (Option α)} {a : α} (h : (x s).1 = some a) :
    orElse x y s = (some a, (x s).2) := by
  rw [orElse, bind_apply, h]
  rfl

theorem orElse_of_none {α : Type} {x y : Resolve (Option α)} (h : x s = (none, s)) :
    orElse x y s = y s := by
  rw [orElse, bind_apply, h]

/-- A call of a member of the class of a name, if there is such a class. -/
def memberCall (owner name : String) (arity : Nat) : Resolve (Option MethodId) := do
  match ← classByName owner with
  | none => onProgram (·.objectMethod name arity)
  | some id => orElse (onProgram (·.findMethodIn id name arity)) (onProgram
      (·.objectMethod name arity))

theorem callTarget_eq_memberCall (hfile : s.program.file? site.file = some f) {first : String}
    {rest : List String} (howners : f.staticOwners name = first :: rest)
    (henclosing : (Program.findMethodAmong name arity
      (s.program.enclosing site.owner) s.program).1 = none) :
    callTarget name none arity site s = memberCall first name arity s := by
  have hchain : onProgram (Program.findMethodAmong name arity (s.program.enclosing site.owner)) s =
      (none, s) := by
    rw [onProgram_apply, Program.findMethodAmong_eq_none henclosing]
  have himport : (s.program.file? site.file).bind (Program.staticImportOwner? · name) =
      some first := by
    rw [hfile, Option.bind_some, Program.staticImportOwner?_eq_head?, howners]
    rfl
  rw [callTarget, bind_apply, get_apply]
  dsimp only
  rw [orElse_of_none hchain, memberCall, bind_apply, orElse, bind_apply, onProgram_apply,
    Program.staticImportMethod, himport, classByName, onProgram_apply]
  cases hclass : s.program.classByName first with
  | mk found next =>
    simp only [hclass]
    cases found <;> rfl

/-- **The first static import that can bring a name in decides.** A call without a qualifier for
which no enclosing class has a method, in a file that imports the member of that name of a class, is
a call of the member of that name of the class that the first competing import names. If that is the
class that declares the member, the call goes to a method of it that takes the arguments. -/
theorem callTarget_staticImport (s : Resolution) (site : Site) (f : SourceFile)
    (name owner : String) (arity : Nat) (i : Import) (c : TypeDecl)
    (hfile : s.program.file? site.file = some f) (hi : i ∈ f.imports) (hstatic : i.isStatic = true)
    (hsingle : i.onDemand = false) (hpath : i.path = owner ++ "." ++ name)
    (hname : Text.isDotted name = false) (hclass : s.program.findClass? owner = some c)
    (hdeclared : ∃ m ∈ s.program.methodsNamed c.id name, m.acceptsArity arity = true)
    (henclosing : (Program.findMethodAmong name arity
      (s.program.enclosing site.owner) s.program).1 = none) :
    ∃ first rest, f.staticOwners name = first :: rest ∧ owner ∈ first :: rest ∧
      callTarget name none arity site s = memberCall first name arity s ∧
      (first = owner → ∃ m ∈ s.program.methodsNamed c.id name, m.acceptsArity arity = true ∧
        callTarget name none arity site s = (some m.id, s)) := by
  have hmem := Program.mem_staticOwners hi hstatic hsingle hpath hname
  obtain ⟨first, rest, howners⟩ := List.exists_cons_of_ne_nil (List.ne_nil_of_mem hmem)
  have hcall : callTarget name none arity site s = memberCall first name arity s :=
    callTarget_eq_memberCall hfile howners henclosing
  refine ⟨first, rest, howners, howners ▸ hmem, hcall, ?_⟩
  rintro rfl
  obtain ⟨m, hm, haccepts, hfound⟩ := Program.findMethodIn_declared hdeclared
  have hknown : s.program.classByName first = (some c.id, s.program) := by
    rw [Program.classByName, hclass]
  refine ⟨m, hm, haccepts, ?_⟩
  rw [hcall, memberCall, bind_apply, classByName, onProgram_apply, hknown]
  have hsome : (onProgram (·.findMethodIn c.id name arity) s).1 = some m.id := by
    rw [onProgram_apply, hfound]
  exact (orElse_of_some hsome).trans (by rw [onProgram_apply, hfound])

/-- A file with static imports and a call `f(1)`, and a class `b.B` that declares a method for
it. -/
def importingStatically (imports : String) : Program :=
  ((Program.empty.addSource ⟨"K.java"⟩ (imports ++ " class K { void k() { f(1); } }")
    .project).2.addSource
    ⟨"B.java"⟩ "package b; class B { static void f() { } static void f(int x) { } }" .project).2

/-- The member is imported in front of two other competitors. -/
def memberFirst : Program :=
  importingStatically
    "import static c.C.g; import static b.B.f; import static a.A.*; import static d.D.f;"

theorem callTarget_staticImport_memberFirst : ∃ f c, memberFirst.file? ⟨0⟩ = some f ∧
    memberFirst.findClass? "b.B" = some c ∧ f.staticOwners "f" = ["b.B", "a.A", "d.D"] ∧
    ∃ first rest, f.staticOwners "f" = first :: rest ∧ "b.B" ∈ first :: rest ∧
      callTarget "f" none 1 ⟨⟨0⟩, some ⟨0⟩⟩ ⟨memberFirst, []⟩ =
        memberCall first "f" 1 ⟨memberFirst, []⟩ ∧
      (first = "b.B" → ∃ m ∈ memberFirst.methodsNamed c.id "f", m.acceptsArity 1 = true ∧
        callTarget "f" none 1 ⟨⟨0⟩, some ⟨0⟩⟩ ⟨memberFirst, []⟩ =
          (some m.id, ⟨memberFirst, []⟩)) := by
  have hfacts : (memberFirst.file? ⟨0⟩).map (fun f => (f.imports.drop 1).head?) =
    some (some ⟨"b.B.f", true, false⟩) ∧
      (memberFirst.file? ⟨0⟩).map (·.staticOwners "f") = some ["b.B", "a.A", "d.D"] ∧
      (memberFirst.findClass? "b.B").any (fun c =>
        (memberFirst.methodsNamed c.id "f").any (·.acceptsArity 1)) = true ∧
      (Program.findMethodAmong "f" 1 (memberFirst.enclosing (some ⟨0⟩)) memberFirst).1 = none := by
    decide +kernel
  -- Nothing below may evaluate the program again.
  generalize memberFirst = p at hfacts ⊢
  obtain ⟨himport, howners, hdeclared, henclosing⟩ := hfacts
  obtain ⟨f, hfile, himport⟩ := Option.map_eq_some_iff.mp himport
  obtain ⟨c, hclass, hdeclared⟩ := (Option.any_eq_true _ _).mp hdeclared
  rw [hfile, Option.map_some, Option.some_inj] at howners
  have hi : ⟨"b.B.f", true, false⟩ ∈ f.imports :=
    List.mem_of_mem_drop (List.mem_of_mem_head? himport)
  refine ⟨f, c, hfile, hclass, howners,
    callTarget_staticImport ⟨p, []⟩ ⟨⟨0⟩, some ⟨0⟩⟩ f "f" "b.B" 1 _ c hfile hi
    rfl rfl (by decide) (by decide) hclass ?_ henclosing⟩
  simpa using hdeclared

/-- The member is imported behind an import on demand of a class that is not there. -/
def memberBehind : Program := importingStatically "import static a.A.*; import static b.B.f;"

/-- No enclosing class has a method, the file imports `b.B.f`, and `b.B` declares a method that
takes the argument. But the call goes to a stand-in that is made for the other import. -/
theorem onDemand_before_member :
    (memberBehind.file? ⟨0⟩).map (·.imports) = some [⟨"a.A", true, true⟩, ⟨"b.B.f", true, false⟩] ∧
    (Program.findMethodAmong "f" 1 (memberBehind.enclosing (some ⟨0⟩)) memberBehind).1 = none ∧
    (memberBehind.findClass? "b.B").map (fun c => (memberBehind.methodsNamed c.id "f").map
      fun m => (m.id, m.acceptsArity 1)) = some [(⟨1⟩, false), (⟨2⟩, true)] ∧
    (callTarget "f" none 1 ⟨⟨0⟩, some ⟨0⟩⟩ ⟨memberBehind, []⟩).1 = some ⟨3⟩ ∧
    ((memberBehind.resolve.method? ⟨3⟩).bind fun m => m.owner.bind memberBehind.resolve.class?).map
      (·.qualifiedName) = some "a.A" := by
  decide +kernel

end Resolve

end KernelLint
