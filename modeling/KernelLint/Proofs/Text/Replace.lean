import KernelLint.Text.Cut
import Mathlib.Data.List.Infix

/-!
# The first occurrence of a text

A replacement changes the first occurrence and nothing else. Where the replaced text ends in a
character that it has nowhere else, its occurrences do not overlap: what stands in front of one of
them is free of it, or has an occurrence of its own.
-/

namespace KernelLint.Text

variable {c stop : Char} {old new before cs rest : List Char}

theorem afterHead?_append (old rest : List Char) : afterHead? old (old ++ rest) = some rest := by
  induction old with
  | nil => rfl
  | cons c old ih => simp [afterHead?, ih]

theorem prefix_of_afterHead? (h : afterHead? old cs = some rest) : old <+: cs := by
  fun_induction afterHead? old cs with
  | case1 => exact List.nil_prefix
  | case2 => cases h
  | case3 c old cs ih => exact List.cons_prefix_cons.mpr ⟨rfl, ih h⟩
  | case4 => cases h

theorem replaceFirstChars_append (hold : old ≠ []) (new rest : List Char) :
    replaceFirstChars old new (old ++ rest) = new ++ rest := by
  cases old with
  | nil => exact absurd rfl hold
  | cons c old => rw [List.cons_append, replaceFirstChars, ← List.cons_append, afterHead?_append]

theorem replaceFirstChars_cons (h : ¬ old <+: c :: cs) :
    replaceFirstChars old new (c :: cs) = c :: replaceFirstChars old new cs := by
  rw [replaceFirstChars]
  split
  · rename_i rest hafter
    exact absurd (prefix_of_afterHead? hafter) h
  · rfl

theorem exists_first_of_infix (hold : old ≠ []) (h : old <:+: cs) :
    ∃ before rest, cs = before ++ (old ++ rest) ∧ ¬ old <:+: before := by
  have hnil : ¬ old <:+: [] := fun hempty => hold (List.infix_nil.mp hempty)
  induction cs with
  | nil => exact absurd h hnil
  | cons c cs ih =>
    by_cases hhere : old <+: c :: cs
    · obtain ⟨rest, hrest⟩ := hhere
      exact ⟨[], rest, hrest.symm, hnil⟩
    · obtain ⟨before, rest, hcs, hbefore⟩ := ih ((List.infix_cons_iff.mp h).resolve_left hhere)
      refine ⟨c :: before, rest, by rw [hcs, List.cons_append], ?_⟩
      intro hoccurs
      rcases List.infix_cons_iff.mp hoccurs with hstarts | hoccurs
      · apply hhere
        rw [hcs, ← List.cons_append]
        exact hstarts.trans (List.prefix_append _ _)
      · exact hbefore hoccurs

theorem prefix_of_prefix_append (hstop : stop ∉ old) (hbefore : before ≠ [])
    (h : old ++ [stop] <+: before ++ (old ++ [stop] ++ rest)) : old ++ [stop] <+: before := by
  rcases List.prefix_or_prefix_of_prefix h (List.prefix_append before _) with hshort | ⟨more, hmore⟩
  · exact hshort
  · -- otherwise the end of the first occurrence falls on a character inside the second one
    rcases List.eq_nil_or_concat more with rfl | ⟨inner, c, rfl⟩
    · exact ⟨[], by simpa using hmore.symm⟩
    · rw [List.concat_eq_append, ← List.append_assoc] at hmore
      obtain ⟨hinner, hc⟩ := List.append_inj' hmore rfl
      obtain rfl : c = stop := List.singleton_inj.mp hc
      rw [← hinner, List.append_assoc, List.prefix_append_right_inj] at h
      have hlength : (inner ++ [c]).length ≤ (before ++ inner).length := by
        have hpos := List.length_pos_iff.mpr hbefore
        simp only [List.length_append, List.length_singleton]
        omega
      have hinside : inner ++ [c] <+: before ++ inner :=
        List.prefix_of_prefix_length_le h (by simp [List.append_assoc]) hlength
      exact absurd (hinner ▸ hinside.subset (by simp)) hstop

/-- **The first occurrence is replaced.** -/
theorem replaceFirstChars_first (hstop : stop ∉ old) (hbefore : ¬ old ++ [stop] <:+: before)
    (new rest : List Char) :
    replaceFirstChars (old ++ [stop]) new (before ++ (old ++ [stop] ++ rest)) =
      before ++ (new ++ rest) := by
  induction before with
  | nil => exact replaceFirstChars_append (by simp) new rest
  | cons c before ih =>
    have hhere : ¬ old ++ [stop] <+: c :: (before ++ (old ++ [stop] ++ rest)) := by
      intro hstarts
      apply hbefore
      exact (prefix_of_prefix_append hstop (by simp) hstarts).isInfix
    have hlater : ¬ old ++ [stop] <:+: before :=
      fun hoccurs => hbefore (List.infix_cons_iff.mpr (.inr hoccurs))
    rw [List.cons_append, replaceFirstChars_cons hhere, ih hlater, List.cons_append]

end KernelLint.Text
