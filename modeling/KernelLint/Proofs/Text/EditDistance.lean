import KernelLint.Config.Error
import Mathlib.Order.Bounds.Basic
import Mathlib.Order.MinMax

/-!
# Nearest texts

The edit distance of two texts is the length of a shortest way from one to the other by single edits
(`editDistance_isLeast`), so it is a metric. The edits of a way can be made anywhere and in any
order. An alignment is the orderly form of a way: it goes through both texts at once, and the two
forms cost the same. The table is then read as one of alignments of prefixes. Each of its rows holds
the least costs for one prefix of the first text (`Row`), and the next row is filled from the left
with nothing but the row above it and the cell before.
-/

namespace KernelLint.Text

/-- One character more, one less, or one in the place of another. -/
inductive SingleEdit : List Char → List Char → Prop
  | insert (front back : List Char) (c : Char) : SingleEdit (front ++ back) (front ++ c :: back)
  | delete (front back : List Char) (c : Char) : SingleEdit (front ++ c :: back) (front ++ back)
  | substitute (front back : List Char) (c d : Char) :
      SingleEdit (front ++ c :: back) (front ++ d :: back)

/-- So many single edits lead from the first text to the second one. -/
inductive EditsTo : Nat → List Char → List Char → Prop
  | refl (s : List Char) : EditsTo 0 s s
  | tail {n : Nat} {s t u : List Char} (h : EditsTo n s t) (hedit : SingleEdit t u) :
      EditsTo (n + 1) s u

/-- The two texts go through side by side at that cost: a character of one alone costs one, and so
does a pair of characters that differ. -/
inductive Aligned : Nat → List Char → List Char → Prop
  | nil : Aligned 0 [] []
  | drop {n : Nat} {s t : List Char} (c : Char) (h : Aligned n s t) : Aligned (n + 1) (c :: s) t
  | add {n : Nat} {s t : List Char} (d : Char) (h : Aligned n s t) : Aligned (n + 1) s (d :: t)
  | pair {n : Nat} {s t : List Char} (c d : Char) (h : Aligned n s t) :
    Aligned (n + if c = d then 0 else 1) (c :: s) (d :: t)

variable {m n : Nat} {s t u : List Char}

/-! ## Ways of edits -/

theorem SingleEdit.symm (h : SingleEdit s t) : SingleEdit t s := by
  cases h with
  | insert front back c => exact .delete front back c
  | delete front back c => exact .insert front back c
  | substitute front back c d => exact .substitute front back d c

theorem SingleEdit.cons (c : Char) (h : SingleEdit s t) : SingleEdit (c :: s) (c :: t) := by
  cases h with
  | insert front back d => exact .insert (c :: front) back d
  | delete front back d => exact .delete (c :: front) back d
  | substitute front back d e => exact .substitute (c :: front) back d e

theorem SingleEdit.reverse (h : SingleEdit s t) : SingleEdit s.reverse t.reverse := by
  cases h with
  | insert front back c => simpa using SingleEdit.insert back.reverse front.reverse c
  | delete front back c => simpa using SingleEdit.delete back.reverse front.reverse c
  | substitute front back c d => simpa using SingleEdit.substitute back.reverse front.reverse c d

theorem EditsTo.trans (h : EditsTo m s t) (h' : EditsTo n t u) : EditsTo (m + n) s u := by
  induction h' with
  | refl => exact h
  | tail _ hedit ih => exact (ih h).tail hedit

theorem EditsTo.single (h : SingleEdit s t) : EditsTo 1 s t := (EditsTo.refl s).tail h

theorem EditsTo.symm (h : EditsTo n s t) : EditsTo n t s := by
  induction h with
  | refl s => exact .refl s
  | @tail n _ _ _ _ hedit ih =>
    rw [Nat.add_comm]
    exact (EditsTo.single hedit.symm).trans ih

theorem EditsTo.cons (c : Char) (h : EditsTo n s t) : EditsTo n (c :: s) (c :: t) := by
  induction h with
  | refl s => exact .refl _
  | tail _ hedit ih => exact ih.tail (hedit.cons c)

theorem EditsTo.reverse (h : EditsTo n s t) : EditsTo n s.reverse t.reverse := by
  induction h with
  | refl s => exact .refl _
  | tail _ hedit ih => exact ih.tail hedit.reverse

theorem EditsTo.eq_of_zero (h : EditsTo 0 s t) : s = t := by
  cases h
  rfl

/-! ## Alignments -/

theorem Aligned.refl (s : List Char) : Aligned 0 s s := by
  induction s with
  | nil => exact .nil
  | cons c s ih => simpa using ih.pair c c

theorem Aligned.prepend (front : List Char) (h : Aligned n s t) :
    Aligned n (front ++ s) (front ++ t) := by
  induction front with
  | nil => exact h
  | cons c front ih => simpa using ih.pair c c

theorem Aligned.editsTo (h : Aligned n s t) : EditsTo n s t := by
  induction h with
  | nil => exact .refl []
  | @drop n s t c _ ih =>
    rw [Nat.add_comm]
    exact (EditsTo.single (.delete [] s c)).trans ih
  | @add n s t d _ ih => exact ih.tail (.insert [] t d)
  | @pair n s t c d _ ih =>
    by_cases heq : c = d
    · subst heq
      simpa using ih.cons c
    · rw [if_neg heq]
      exact (ih.cons c).tail (.substitute [] t c d)

theorem Aligned.addAll (front : List Char) (h : Aligned n s t) :
    Aligned (n + front.length) s (front ++ t) := by
  induction front with
  | nil => exact h
  | cons d front ih => exact ih.add d

/-- What becomes of the first character of the first text: behind what is added in front of it, it
is dropped or paired. -/
theorem Aligned.head_cases {c : Char} (h : Aligned n (c :: s) t) :
    ∃ front back k, Aligned k s back ∧
    (t = front ++ back ∧ n = k + 1 + front.length ∨
      ∃ d, t = front ++ d :: back ∧ n = (k + if c = d then 0 else 1) + front.length) := by
  generalize hw : c :: s = w at h
  induction h with
  | nil => cases hw
  | drop _ h _ =>
    cases hw
    exact ⟨[], _, _, h, .inl ⟨rfl, rfl⟩⟩
  | pair _ d h _ =>
    cases hw
    exact ⟨[], _, _, h, .inr ⟨d, rfl, rfl⟩⟩
  | add d _ ih =>
    obtain ⟨front, back, k, h, ⟨rfl, rfl⟩ | ⟨e, rfl, rfl⟩⟩ := ih hw
    · exact ⟨d :: front, back, k, h, .inl ⟨rfl, rfl⟩⟩
    · exact ⟨d :: front, back, k, h, .inr ⟨e, rfl, rfl⟩⟩

theorem Aligned.trans (h : Aligned m s t) (h' : Aligned n t u) : ∃ k ≤ m + n, Aligned k s u := by
  induction h generalizing n u with
  | nil => exact ⟨n, by omega, h'⟩
  | drop c _ ih =>
    obtain ⟨k, hk, hku⟩ := ih h'
    exact ⟨k + 1, by omega, hku.drop c⟩
  -- What the first alignment puts into the common text is dropped or paired by the second one.
  | add d _ ih =>
    obtain ⟨front, back, l, hback, ⟨rfl, rfl⟩ | ⟨e, rfl, rfl⟩⟩ := h'.head_cases
    · obtain ⟨k, hk, hku⟩ := ih hback
      exact ⟨k + front.length, by omega, hku.addAll front⟩
    · obtain ⟨k, hk, hku⟩ := ih hback
      exact ⟨k + 1 + front.length, by omega, (hku.add e).addAll front⟩
  | pair c d _ ih =>
    obtain ⟨front, back, l, hback, ⟨rfl, rfl⟩ | ⟨e, rfl, rfl⟩⟩ := h'.head_cases
    · obtain ⟨k, hk, hku⟩ := ih hback
      exact ⟨k + 1 + front.length, by omega, (hku.drop c).addAll front⟩
    · obtain ⟨k, hk, hku⟩ := ih hback
      have hends : (if c = e then 0 else 1) ≤ (if c = d then 0 else 1) + if d = e then 0
          else 1 := by grind
      exact ⟨_, by omega, (hku.pair c e).addAll front⟩

theorem SingleEdit.exists_aligned (h : SingleEdit s t) : ∃ k ≤ 1, Aligned k s t := by
  cases h with
  | insert front back c => exact ⟨1, Nat.le_refl 1, ((Aligned.refl back).add c).prepend front⟩
  | delete front back c => exact ⟨1, Nat.le_refl 1, ((Aligned.refl back).drop c).prepend front⟩
  | substitute front back c d =>
    refine ⟨_, ?_, ((Aligned.refl back).pair c d).prepend front⟩
    split <;> omega

/-- **No way of edits is shorter than an alignment is cheap.** -/
theorem EditsTo.exists_aligned (h : EditsTo n s t) : ∃ k ≤ n, Aligned k s t := by
  induction h with
  | refl s => exact ⟨0, Nat.le_refl 0, .refl s⟩
  | tail _ hedit ih =>
    obtain ⟨k, hk, hkt⟩ := ih
    obtain ⟨l, hl, hlu⟩ := hedit.exists_aligned
    obtain ⟨j, hj, hju⟩ := hkt.trans hlu
    exact ⟨j, by omega, hju⟩

/-! ## Cells of the table -/

theorem isLeast_aligned_nil_left (t : List Char) : IsLeast {n | Aligned n [] t} t.length := by
  induction t with
  | nil => exact ⟨.nil, fun _ _ => Nat.zero_le _⟩
  | cons d t ih =>
    refine ⟨ih.1.add d, fun n hn => ?_⟩
    cases hn with
    | add _ h => exact Nat.succ_le_succ (ih.2 h)

theorem isLeast_aligned_nil_right (s : List Char) : IsLeast {n | Aligned n s []} s.length := by
  induction s with
  | nil => exact ⟨.nil, fun _ _ => Nat.zero_le _⟩
  | cons c s ih =>
    refine ⟨ih.1.drop c, fun n hn => ?_⟩
    cases hn with
    | drop _ h => exact Nat.succ_le_succ (ih.2 h)

theorem isLeast_aligned_cons {c d : Char} {above left diagonal : Nat}
    (habove : IsLeast {n | Aligned n s (d :: t)} above)
    (hleft : IsLeast {n | Aligned n (c :: s) t} left)
    (hdiagonal : IsLeast {n | Aligned n s t} diagonal) :
    IsLeast {n | Aligned n (c :: s) (d :: t)}
      (min (min (above + 1) (left + 1)) (diagonal + if c = d then 0 else 1)) := by
  constructor
  · rcases min_choice (min (above + 1) (left + 1)) (diagonal + if c = d then 0
      else 1) with hmin | hmin
    · rw [hmin]
      rcases min_choice (above + 1) (left + 1) with hmin | hmin
      · rw [hmin]
        exact habove.1.drop c
      · rw [hmin]
        exact hleft.1.add d
    · rw [hmin]
      exact hdiagonal.1.pair c d
  · intro n hn
    cases hn with
    | drop _ h =>
      have := habove.2 h
      omega
    | add _ h =>
      have := hleft.2 h
      omega
    | pair _ _ h =>
      have := hdiagonal.2 h
      omega

/-! ## Rows of the table -/

/-- The row for the prefix `rs` of the first text, from the prefix `rt` of the second one on.
Prefixes are written backwards, so that they grow at their heads, and `ds` is what is left of the
second text. -/
inductive Row (rs : List Char) : List Char → List Char → List Nat → Prop
  | last {rt : List Char} {cell : Nat} (hcell : IsLeast {n | Aligned n rs rt} cell) :
      Row rs rt [] [cell]
  | cons {rt ds : List Char} {d : Char} {cell : Nat} {cells : List Nat}
      (hcell : IsLeast {n | Aligned n rs rt} cell)
    (hrest : Row rs (d :: rt) ds cells) : Row rs rt (d :: ds) (cell :: cells)

theorem Row.head {rs rt ds : List Char} {cells : List Nat} (h : Row rs rt ds cells) :
    ∃ cell rest, cells = cell :: rest ∧ IsLeast {n | Aligned n rs rt} cell := by
  cases h with
  | last hcell => exact ⟨_, _, rfl, hcell⟩
  | cons hcell _ => exact ⟨_, _, rfl, hcell⟩

/-- **The next row**, filled from the left. -/
theorem Row.next {rs rt ds : List Char} {cells : List Nat} (h : Row rs rt ds cells) (c : Char)
    {left : Nat} (hleft : IsLeast {n | Aligned n (c :: rs) rt} left) :
    Row (c :: rs) rt ds (left :: distanceCells c ds cells left) := by
  induction h generalizing left with
  | last => exact .last hleft
  | cons hdiagonal hrest ih =>
    obtain ⟨above, rest, rfl, habove⟩ := hrest.head
    exact .cons hleft (ih (isLeast_aligned_cons habove hleft hdiagonal))

theorem row_range (rt ds : List Char) : Row [] rt ds (List.range' rt.length (ds.length + 1)) := by
  induction ds generalizing rt with
  | nil => exact .last (isLeast_aligned_nil_left rt)
  | cons d ds ih =>
    rw [List.length_cons, List.range'_succ]
    exact .cons (isLeast_aligned_nil_left rt) (ih (d :: rt))

theorem Row.distanceRows {rs : List Char} {row : List Nat} (h : Row rs [] t row) (cs : List Char) :
    Row (cs.reverse ++ rs) [] t (distanceRows t cs rs.length row) := by
  induction cs generalizing rs row with
  | nil => exact h
  | cons c cs ih =>
    have hnext := h.next c (isLeast_aligned_nil_right (c :: rs))
    have hrows := ih hnext
    rw [List.reverse_cons, List.append_assoc]
    exact hrows

theorem Row.getLastD {rs rt ds : List Char} {row : List Nat} (h : Row rs rt ds row) :
    IsLeast {n | Aligned n rs (ds.reverse ++ rt)} (row.getLastD 0) := by
  induction h with
  | last hcell => exact hcell
  | cons hcell hrest ih =>
    obtain ⟨cell, rest, rfl, -⟩ := hrest.head
    rw [List.reverse_cons, List.append_assoc]
    exact ih

/-! ## The distance -/

theorem charDistance_isLeast (s t : List Char) :
    IsLeast {n | EditsTo n s t} (charDistance s t) := by
  have hstart : Row [] [] t (List.range (t.length + 1)) := by
    rw [List.range_eq_range']
    exact row_range [] t
  have hlast := (hstart.distanceRows s).getLastD
  rw [List.append_nil, List.append_nil] at hlast
  constructor
  · have hway := hlast.1.editsTo.reverse
    rwa [List.reverse_reverse, List.reverse_reverse] at hway
  · intro n hn
    obtain ⟨k, hk, hks⟩ := hn.reverse.exists_aligned
    exact (hlast.2 hks).trans hk

/-- **The edit distance is the length of a shortest way** of single insertions, deletions and
substitutions. -/
theorem editDistance_isLeast (s t : String) :
    IsLeast {n | EditsTo n s.toList t.toList} (editDistance s t) :=
  charDistance_isLeast s.toList t.toList

theorem editDistance_comm (s t : String) : editDistance s t = editDistance t s :=
  Nat.le_antisymm ((editDistance_isLeast s t).2 (editDistance_isLeast t s).1.symm)
    ((editDistance_isLeast t s).2 (editDistance_isLeast s t).1.symm)

theorem editDistance_eq_zero {s t : String} : editDistance s t = 0 ↔ s = t := by
  constructor
  · intro h
    have hway := (editDistance_isLeast s t).1
    rw [h] at hway
    exact String.toList_injective (EditsTo.eq_of_zero hway)
  · rintro rfl
    exact Nat.le_zero.mp ((editDistance_isLeast s s).2 (.refl _))

theorem editDistance_triangle (s t u : String) :
    editDistance s u ≤ editDistance s t + editDistance t u :=
  (editDistance_isLeast s u).2 ((editDistance_isLeast s t).1.trans (editDistance_isLeast t u).1)

/-! ## The nearest candidate -/

theorem nearest?_cons (target first : String) (rest : List String) : ∃ front best back,
    first :: rest = front ++ best :: back ∧ nearest? target (first :: rest) = some best ∧
      (∀ c ∈ front, editDistance target best < editDistance target c) ∧
      ∀ c ∈ back, editDistance target best ≤ editDistance target c := by
  induction rest generalizing first with
  | nil => exact ⟨[], first, [], rfl, rfl, nofun, nofun⟩
  | cons second rest ih =>
    obtain ⟨front, best, back, hsplit, hbest, hfront, hback⟩ := ih second
    by_cases hcloser : editDistance target best < editDistance target first
    · refine ⟨first :: front, best, back, by rw [hsplit, List.cons_append], ?_, ?_, hback⟩
      · rw [nearest?, hbest]
        exact if_pos hcloser
      · exact List.forall_mem_cons.mpr ⟨hcloser, hfront⟩
    · refine ⟨[], first, second :: rest, rfl, ?_, nofun, ?_⟩
      · rw [nearest?, hbest]
        exact if_neg hcloser
      · intro c hc
        have hle := Nat.le_of_not_lt hcloser
        rw [hsplit, List.mem_append, List.mem_cons] at hc
        rcases hc with hc | rfl | hc
        · exact hle.trans (hfront c hc).le
        · exact hle
        · exact hle.trans (hback c hc)

/-- **Suggestions are nearest names.** The edit distance is the least number of single-character
edits that turn one text into the other. So it does not depend on the direction, it is zero for
equal texts only, and a detour is no shorter. Of candidates of which there is one at all, the one
that is suggested is the first of those at the least distance. -/
theorem suggestions_nearest :
    (∀ s t, IsLeast {n | EditsTo n s.toList t.toList} (editDistance s t)) ∧
    (∀ s t, editDistance s t = editDistance t s) ∧
    (∀ s t, editDistance s t = 0 ↔ s = t) ∧
    (∀ s t u, editDistance s u ≤ editDistance s t + editDistance t u) ∧
    ∀ target first rest, ∃ front best back,
      first :: rest = front ++ best :: back ∧ nearest? target (first :: rest) = some best ∧
      suggestion target (first :: rest) = "Did you mean '" ++ best ++ "'?" ∧
      (∀ c ∈ front, editDistance target best < editDistance target c) ∧
      ∀ c ∈ back, editDistance target best ≤ editDistance target c := by
  refine ⟨editDistance_isLeast, editDistance_comm, fun s t => editDistance_eq_zero,
    editDistance_triangle, ?_⟩
  intro target first rest
  obtain ⟨front, best, back, hsplit, hbest, hnearest⟩ := nearest?_cons target first rest
  refine ⟨front, best, back, hsplit, hbest, ?_, hnearest⟩
  rw [suggestion, hbest]

example : editDistance "kitten" "sitting" = 3 ∧
    nearest? "recursoin" ["assert", "recursion", "recursio"] = some "recursion" := by
  decide +kernel

end KernelLint.Text
