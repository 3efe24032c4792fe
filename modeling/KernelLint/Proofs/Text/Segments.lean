import KernelLint.Text.Cut

/-!
# Segments of dotted names

A dotted name is its first segment, a dot and the rest. A qualified name is a name put after a dot,
so that its first segment is that of the name in front.
-/

namespace KernelLint.Text

/-- What stands before the first dot of a name. -/
def firstSegment (s : String) : String :=
  match splitFirst? '.' s with
  | some (head, _) => head
  | none => s

theorem cutAt?_eq_none_iff {sep : Char} {cs : List Char} : cutAt? sep cs = none ↔ sep ∉ cs := by
  induction cs with
  | nil => simp [cutAt?]
  | cons c rest ih =>
    rw [cutAt?]
    split
    · simp_all
    · rename_i hne
      simp [ih, Ne.symm hne]

theorem cutAt?_append {sep : Char} {head : List Char} (h : sep ∉ head) (rest : List Char) :
    cutAt? sep (head ++ sep :: rest) = some (head, rest) := by
  induction head with
  | nil => simp [cutAt?]
  | cons c head ih =>
    obtain ⟨hne, hhead⟩ := List.ne_and_not_mem_of_not_mem_cons h
    rw [List.cons_append, cutAt?, if_neg (Ne.symm hne), ih hhead]
    rfl

theorem of_cutAt? {sep : Char} {cs head rest : List Char} (h : cutAt? sep cs = some (head, rest)) :
    cs = head ++ sep :: rest ∧ sep ∉ head := by
  induction cs generalizing head with
  | nil => cases h
  | cons c cs ih =>
    rw [cutAt?] at h
    split at h
    · rename_i heq
      cases h
      simp [heq]
    · rename_i hne
      obtain ⟨⟨head', rest'⟩, hcut, heq⟩ := Option.map_eq_some_iff.mp h
      cases heq
      obtain ⟨hcs, hnot⟩ := ih hcut
      simp [hcs, hnot, Ne.symm hne]

theorem isDotted_iff {s : String} : isDotted s = true ↔ '.' ∈ s.toList := by simp [isDotted]

@[simp] theorem isDotted_qualified (s t : String) : isDotted (s ++ "." ++ t) = true := by
  simp [isDotted]

theorem splitFirst?_eq_none {s : String} (h : isDotted s = false) : splitFirst? '.' s = none := by
  have hnot : '.' ∉ s.toList := by simpa [isDotted] using h
  simp [splitFirst?, cutAt?_eq_none_iff.mpr hnot]

theorem firstSegment_of_undotted {s : String} (h : isDotted s = false) : firstSegment s = s := by
  simp [firstSegment, splitFirst?_eq_none h]

theorem lastSegment_of_undotted {s : String} (h : isDotted s = false) : lastSegment s = s := by
  have hnot : '.' ∉ s.toList.reverse := by simpa [isDotted] using h
  simp [lastSegment, splitLast?, cutAt?_eq_none_iff.mpr hnot]

theorem splitLast?_qualified {t : String} (h : isDotted t = false) (s : String) :
    splitLast? '.' (s ++ "." ++ t) = some (s, t) := by
  have hnot : '.' ∉ t.toList.reverse := by simpa [isDotted] using h
  have hcut := cutAt?_append hnot s.toList.reverse
  simp [splitLast?, hcut]

theorem lastSegment_qualified {t : String} (h : isDotted t = false) (s : String) :
    lastSegment (s ++ "." ++ t) = t := by
  simp [lastSegment, splitLast?_qualified h]

theorem isDotted_of_splitFirst? {s head rest : String} (h : splitFirst? '.' s = some (head, rest)) :
    isDotted s = true ∧ isDotted head = false ∧ s = head ++ "." ++ rest := by
  obtain ⟨⟨cs, ds⟩, hcut, heq⟩ := Option.map_eq_some_iff.mp h
  cases heq
  obtain ⟨hs, hnot⟩ := of_cutAt? hcut
  refine ⟨isDotted_iff.mpr (by simp [hs]), by simpa [isDotted] using hnot, ?_⟩
  rw [← String.toList_inj]
  simp [hs]

theorem splitFirst?_qualified {head : String} (h : isDotted head = false) (rest : String) :
    splitFirst? '.' (head ++ "." ++ rest) = some (head, rest) := by
  have hnot : '.' ∉ head.toList := by simpa [isDotted] using h
  simp [splitFirst?, cutAt?_append hnot]

theorem splitFirst?_of_dotted {s : String} (h : isDotted s = true) :
    ∃ rest, splitFirst? '.' s = some (firstSegment s, rest) := by
  cases hsplit : splitFirst? '.' s with
  | none =>
    have hcut : cutAt? '.' s.toList = none := by simpa [splitFirst?] using hsplit
    exact absurd (isDotted_iff.mp h) (cutAt?_eq_none_iff.mp hcut)
  | some cut => exact ⟨cut.2, by simp [firstSegment, hsplit]⟩

theorem firstSegment_qualified (s t : String) : firstSegment (s ++ "." ++ t) = firstSegment s := by
  cases hdotted : isDotted s with
  | false => simp [firstSegment, splitFirst?_qualified hdotted, splitFirst?_eq_none hdotted]
  | true =>
    obtain ⟨rest, hsplit⟩ := splitFirst?_of_dotted hdotted
    obtain ⟨-, hhead, hs⟩ := isDotted_of_splitFirst? hsplit
    have hwhole : s ++ "." ++ t = firstSegment s ++ "." ++ (rest ++ "." ++ t) :=
      calc s ++ "." ++ t = firstSegment s ++ "." ++ rest ++ "." ++ t := by rw [← hs]
        _ = firstSegment s ++ "." ++ (rest ++ "." ++ t) := by simp [String.append_assoc]
    rw [hwhole, firstSegment, splitFirst?_qualified hhead]

end KernelLint.Text
