import KernelLint.Text.Alphanumeric
import KernelLint.Text.Blank
import Mathlib.Data.List.DropRight

/-!
# White space

White space is no punctuation, and it is in none of the other classes of characters. It is taken off
the end of a text up to the last character that is none.
-/

namespace KernelLint.Text

variable {c : Char} {xs ys : List Char}

theorem isBlank_punctuation : ∀ c ∈ "\"'/(){};<>[]@._".toList, isBlank c = false := by
  have hnone : ("\"'/(){};<>[]@._".toList.all fun c => !isBlank c) = true := by decide +kernel
  intro c hc
  simpa using List.all_eq_true.mp hnone c hc

theorem not_inRanges_of_isBlank {pairs : Array (Nat × Nat)}
    (h : (blankRanges.toList.all fun r => pairs.toList.all fun p => r.last < p.1 || p.2 < r.first) =
      true)
    (hc : isBlank c = true) : inRanges (pairs.map CodeRange.ofPair) c = false := by
  obtain ⟨r, hr, hblank⟩ := Array.any_eq_true'.mp hc
  obtain ⟨hfirst, hlast⟩ := Bool.and_eq_true_iff.mp hblank
  have hfirst : r.first ≤ c.toNat := of_decide_eq_true hfirst
  have hlast : c.toNat ≤ r.last := of_decide_eq_true hlast
  rw [inRanges, Array.any_map, ← Array.any_toList, List.any_eq_false]
  intro p hp hcontains
  obtain ⟨hlow, hhigh⟩ := Bool.and_eq_true_iff.mp hcontains
  have hlow : p.1 ≤ c.toNat := of_decide_eq_true hlow
  have hhigh : c.toNat ≤ p.2 := of_decide_eq_true hhigh
  have hout := List.all_eq_true.mp (List.all_eq_true.mp h r (Array.mem_toList_iff.mpr hr)) p hp
  simp only [Bool.or_eq_true, decide_eq_true_eq] at hout
  omega

theorem ne_true_of_ascii {P : Char → Bool}
    (h : (List.range 128).all (fun n => !P (Char.ofNat n) || !isBlank (Char.ofNat n)) = true)
    (hc : isBlank c = true) (hascii : c.toNat < 128) : P c = false := by
  have hcode := List.all_eq_true.mp h c.toNat (List.mem_range.mpr hascii)
  rw [Char.ofNat_toNat, hc] at hcode
  simpa using hcode

theorem isAlphanumeric_of_isBlank (hc : isBlank c = true) : isAlphanumeric c = false := by
  rw [isAlphanumeric]
  split
  · rename_i hascii
    exact ne_true_of_ascii (by decide +kernel) hc hascii
  · exact not_inRanges_of_isBlank (by decide +kernel) hc

theorem trimBack_eq_rdropWhile (xs : List Char) : trimBack xs = xs.rdropWhile isBlank := rfl

theorem trimBack_append_blanks (hys : ∀ c ∈ ys, isBlank c = true) :
    trimBack (xs ++ ys) = trimBack xs := by
  induction ys using List.reverseRecOn with
  | nil => rw [List.append_nil]
  | append_singleton ys y ih =>
    obtain ⟨hys, hy⟩ := List.forall_mem_append.mp hys
    rw [← List.append_assoc, trimBack_eq_rdropWhile,
      List.rdropWhile_concat_pos isBlank _ _ (hy y (by simp))]
    exact ih hys

theorem trimBack_trimBack (xs : List Char) : trimBack (trimBack xs) = trimBack xs :=
  List.rdropWhile_idempotent isBlank xs

theorem trimBack_append_cons (hc : isBlank c = false) (xs ys : List Char) :
    trimBack (xs ++ c :: ys) = xs ++ c :: trimBack ys := by
  induction ys using List.reverseRecOn with
  | nil =>
    rw [trimBack_eq_rdropWhile, List.rdropWhile_concat_neg isBlank _ _ (by simp [hc])]
    rfl
  | append_singleton ys y ih =>
    rw [show xs ++ c :: (ys ++ [y]) = xs ++ c :: ys ++ [y] by simp, trimBack_eq_rdropWhile,
      trimBack_eq_rdropWhile, List.rdropWhile_concat, List.rdropWhile_concat]
    cases hy : isBlank y with
    | true => exact ih
    | false => simp

theorem trimBack_eq_self (hc : isBlank c = false) : trimBack (xs ++ [c]) = xs ++ [c] :=
  trimBack_append_cons hc xs []

theorem trimBack_isPrefix (xs : List Char) : trimBack xs <+: xs := List.rdropWhile_prefix isBlank xs

end KernelLint.Text
