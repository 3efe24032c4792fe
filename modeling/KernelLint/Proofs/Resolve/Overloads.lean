import KernelLint.Java.Source
import KernelLint.Proofs.Resolve.Lasting
import KernelLint.Resolve.Program
import Mathlib.Data.Nat.Find

/-!
# Overloads along the chain of extended classes

The search for a method settles on the nearest class of the chain that declares the name at all.
Among the methods of that class it prefers one that takes the number of arguments, but if there is
none it answers another method of that class. So an overload that a farther class declares is found
exactly if no nearer class declares the name (`findMethodIn_nearest`).
-/

namespace KernelLint.Program

variable {p : Program} {id owner : ClassId} {name : String} {arity hops : Nat}

/-- Of the classes on the way up from `id`, the one after so many extensions is the first that
declares the name. -/
structure DeclaresFirst (p : Program) (id : ClassId) (name : String) (hops : Nat)
    (owner : ClassId) : Prop where
  reached : p.ancestor? hops id = some owner
  declares : p.methodsNamed owner name ≠ []
  nearer : ∀ k < hops, ∀ c, p.ancestor? k id = some c → p.methodsNamed c name = []

theorem exists_declaresFirst {last : ClassId} (hlast : p.ancestor? hops id = some last)
    (hdeclares : p.methodsNamed last name ≠ []) :
    ∃ k ≤ hops, ∃ owner, p.DeclaresFirst id name k owner := by
  classical
  have hexists : ∃ k owner, p.ancestor? k id = some owner ∧ p.methodsNamed owner name ≠ [] :=
    ⟨hops, last, hlast, hdeclares⟩
  obtain ⟨owner, hreached, howner⟩ := Nat.find_spec hexists
  refine ⟨Nat.find hexists, Nat.find_min' hexists ⟨last, hlast, hdeclares⟩, owner,
    hreached, howner, ?_⟩
  intro k hk c hc
  by_contra hne
  exact Nat.find_min hexists hk ⟨c, hc, hne⟩

theorem DeclaresFirst.next (h : p.DeclaresFirst id name (hops + 1) owner) :
    ∃ superId, p.superClass? id = some superId ∧ p.DeclaresFirst superId name hops owner := by
  obtain ⟨superId, hsuper, hreached⟩ := Option.bind_eq_some_iff.mp h.reached
  refine ⟨superId, hsuper, hreached, h.declares, fun k hk c hc => ?_⟩
  apply h.nearer (k + 1) (by omega)
  rw [ancestor?, hsuper, Option.bind_some, hc]

theorem DeclaresFirst.findMethodUpTo {n : Nat} (h : p.DeclaresFirst id name hops owner)
    (hn : hops < n) (hproject : ∀ k < hops, ∀ c, p.ancestor? k id = some c →
      p.isLibraryClass c = false) {m : Method}
    (hpick : pickByArity (p.methodsNamed owner name) arity = some m) :
    Program.findMethodUpTo name arity n id p = (some m.id, p) := by
  induction hops generalizing id n with
  | zero =>
    obtain ⟨n, rfl⟩ : ∃ k, n = k + 1 := ⟨n - 1, by omega⟩
    obtain rfl := Option.some.inj h.reached
    exact findMethodUpTo_picked hpick
  | succ hops ih =>
    obtain ⟨n, rfl⟩ : ∃ k, n = k + 1 := ⟨n - 1, by omega⟩
    obtain ⟨superId, hsuper, hrest⟩ := h.next
    have hnone : p.methodsNamed id name = [] := h.nearer 0 (by omega) id rfl
    have hforeign : p.isLibraryClass id = false := hproject 0 (by omega) id rfl
    rw [findMethodUpTo_next hnone hforeign (outsideSuperName?_of_superClass? hsuper) hsuper]
    apply ih hrest (by omega)
    intro k hk c hc
    apply hproject (k + 1) (by omega)
    rw [ancestor?, hsuper, Option.bind_some, hc]

theorem exists_pickByArity {ms : List Method} (h : ms ≠ []) : ∃ m, pickByArity ms arity = some m :=
  Option.ne_none_iff_exists'.mp (mt pickByArity_eq_none.mp h)

theorem acceptsArity_of_pickByArity {ms : List Method} {m : Method}
    (h : pickByArity ms arity = some m) :
    m.acceptsArity arity = true ↔ ∃ x ∈ ms, x.acceptsArity arity = true := by
  refine ⟨fun haccepts => ⟨m, mem_of_pickByArity h, haccepts⟩, ?_⟩
  rintro ⟨x, hx, haccepts⟩
  have hsome : (ms.find? (·.acceptsArity arity)).isSome := List.find?_isSome.mpr ⟨x, hx, haccepts⟩
  obtain ⟨y, hy⟩ := Option.isSome_iff_exists.mp hsome
  rw [pickByArity, hy] at h
  cases h
  simpa using List.find?_some hy

/-- **A call goes to the nearest class that declares its name.** If a class or one of the next 32
that it extends declares a method of the name for the number of arguments, and no class up to there
belongs to a library, then the search finds a method of the nearest class that declares the name,
without any change to the program. That method takes the arguments exactly if some method of that
name in the nearest class does. -/
theorem findMethodIn_nearest (p : Program) (id : ClassId) (name : String) (arity hops : Nat)
    (hhops : hops ≤ 32) (last : ClassId) (hlast : p.ancestor? hops id = some last)
    (hproject : ∀ k ≤ hops, ∀ c, p.ancestor? k id = some c → p.isLibraryClass c = false)
    (hdeclared : ∃ m ∈ p.methodsNamed last name, m.acceptsArity arity = true) :
    ∃ k ≤ hops, ∃ owner, p.DeclaresFirst id name k owner ∧ ∃ found ∈ p.methodsNamed owner name,
      p.findMethodIn id name arity = (some found.id, p) ∧
        (found.acceptsArity arity = true ↔ ∃ m ∈ p.methodsNamed owner name,
          m.acceptsArity arity = true) := by
  obtain ⟨m, hm, -⟩ := hdeclared
  obtain ⟨k, hk, owner, hfirst⟩ := exists_declaresFirst hlast (List.ne_nil_of_mem hm)
  obtain ⟨found, hpick⟩ := exists_pickByArity hfirst.declares
  refine ⟨k, hk, owner, hfirst, found, mem_of_pickByArity hpick, ?_,
    acceptsArity_of_pickByArity hpick⟩
  have hlimit : k < chainLimit := by
    rw [chainLimit]
    omega
  apply hfirst.findMethodUpTo hlimit _ hpick
  intro j hj
  exact hproject j (by omega)

/-- Four classes. `B` declares the name without parameters and so hides the method that takes one
from `C`, but not from `D`. -/
def hiddenOverload : Program :=
  (Program.empty.addSource ⟨"C.java"⟩
    "class A { void h(int x) { } } class B extends A { void h() { } }
    class C extends B { } class D extends A { }" .project).2.resolve

theorem findMethodIn_nearest_hiddenOverload : hiddenOverload.ancestor? 1 ⟨3⟩ = some ⟨0⟩ ∧
    ∃ k ≤ 1, ∃ owner, hiddenOverload.DeclaresFirst ⟨3⟩ "h" k owner ∧
      ∃ found ∈ hiddenOverload.methodsNamed owner "h",
        hiddenOverload.findMethodIn ⟨3⟩ "h" 1 = (some found.id, hiddenOverload) ∧
          (found.acceptsArity 1 = true ↔
            ∃ m ∈ hiddenOverload.methodsNamed owner "h", m.acceptsArity 1 = true) := by
  have hfacts : hiddenOverload.ancestor? 1 ⟨3⟩ = some ⟨0⟩ ∧
      (∀ k ≤ 1, ∀ c ∈ hiddenOverload.ancestor? k ⟨3⟩, hiddenOverload.isLibraryClass c = false) ∧
      ∃ m ∈ hiddenOverload.methodsNamed ⟨0⟩ "h", m.acceptsArity 1 = true := by
    decide +kernel
  obtain ⟨hlast, hproject, hdeclared⟩ := hfacts
  exact ⟨hlast, findMethodIn_nearest _ _ _ _ 1 (by omega) _ hlast hproject hdeclared⟩

/-- `A`, two extensions above `C`, declares the name for one argument, and no library is involved.
The search from `C` finds the method of `B`, which takes none. -/
theorem nearer_overload_hides_farther : hiddenOverload.ancestor? 2 ⟨2⟩ = some ⟨0⟩ ∧
    (∀ k ≤ 2, ∀ c ∈ hiddenOverload.ancestor? k ⟨2⟩, hiddenOverload.isLibraryClass c = false) ∧
    (∃ m ∈ hiddenOverload.methodsNamed ⟨0⟩ "h", m.acceptsArity 1 = true) ∧
    (hiddenOverload.findMethodIn ⟨2⟩ "h" 1).1 = some ⟨1⟩ ∧
    (hiddenOverload.method? ⟨1⟩).map (·.acceptsArity 1) = some false := by
  decide +kernel

end KernelLint.Program
