/-!
# Numbered arrays

The entries of a program's arrays are named by their positions. `Numbered` says that every entry may
stand where it stands; an entry added at the end and a change that lets every entry stay keep an
array numbered.
-/

namespace KernelLint

/-- Every entry of the array fits its position. -/
def Numbered {α : Type} (fits : Nat → α → Prop) (xs : Array α) : Prop :=
  ∀ i x, xs[i]? = some x → fits i x

namespace Numbered

variable {α : Type} {fits : Nat → α → Prop} {xs : Array α}

theorem empty : Numbered fits #[] := by
  intro i x h
  simp at h

theorem push {x : α} (h : Numbered fits xs) (hx : fits xs.size x) : Numbered fits (xs.push x) := by
  intro i y hy
  rw [Array.getElem?_push] at hy
  split at hy
  · rename_i hi
    cases hy
    rw [hi]
    exact hx
  · exact h i y hy

theorem modify {f : α → α} (h : Numbered fits xs) (hf : ∀ i x, fits i x → fits i (f x)) (n : Nat) :
    Numbered fits (xs.modify n f) := by
  intro i y hy
  rw [Array.getElem?_modify] at hy
  split at hy
  · obtain ⟨x, hx, rfl⟩ := Option.map_eq_some_iff.mp hy
    exact hf i x (h i x hx)
  · exact h i y hy

theorem map {f : α → α} (h : Numbered fits xs) (hf : ∀ i x, fits i x → fits i (f x)) :
    Numbered fits (xs.map f) := by
  intro i y hy
  rw [Array.getElem?_map] at hy
  obtain ⟨x, hx, rfl⟩ := Option.map_eq_some_iff.mp hy
  exact hf i x (h i x hx)

end Numbered

end KernelLint
