import KernelLint.Report
import Mathlib.Data.List.Sort

/-!
# Reports and the order of findings

A report puts findings in reading order and leaves findings that tie in the order in which they
came. So the sorted list is settled by what each finding ties with (`mergeSort_eq_of_ties`), and
leaving findings out before or after sorting is the same. Findings that tie are of the same rule and
about the same kernel.
-/

namespace KernelLint

/-! ## Stable sorting -/

namespace Stable

variable {α : Type} {le : α → α → Bool}

/-- Neither of the two comes before the other. -/
def ties (le : α → α → Bool) (a b : α) : Bool := le a b && le b a

theorem eq_of_ties_of_pairwise (total : ∀ a b, (le a b || le b a) = true) {l l' : List α}
    (hl : l.Pairwise (le · ·)) (hl' : l'.Pairwise (le · ·))
    (hties : ∀ a, l.filter (ties le a) = l'.filter (ties le a)) : l = l' := by
  have hself : ∀ a, ties le a a = true := by
    intro a
    have hle := total a a
    simpa [ties] using hle
  induction l generalizing l' with
  | nil =>
    cases l' with
    | nil => rfl
    | cons b rest' =>
      have hb := hties b
      simp [hself] at hb
  | cons a rest ih =>
    cases l' with
    | nil =>
      have ha := hties a
      simp [hself] at ha
    | cons b rest' =>
      rw [List.pairwise_cons] at hl hl'
      -- each head occurs in the other list, so neither comes before the other
      have ha : a ∈ b :: rest' := by
        have hmem : a ∈ (b :: rest').filter (ties le a) := by
          rw [← hties a]
          simp [hself]
        exact List.mem_of_mem_filter hmem
      have hb : b ∈ a :: rest := by
        have hmem : b ∈ (a :: rest).filter (ties le b) := by
          rw [hties b]
          simp [hself]
        exact List.mem_of_mem_filter hmem
      have hab : le a b = true := by
        rcases List.mem_cons.mp hb with rfl | hb
        · simpa [ties] using hself b
        · exact hl.1 b hb
      have hba : le b a = true := by
        rcases List.mem_cons.mp ha with rfl | ha
        · simpa [ties] using hself a
        · exact hl'.1 a ha
      have hheads := hties a
      rw [List.filter_cons_of_pos (hself a),
        List.filter_cons_of_pos (by simp [ties, hab, hba])] at hheads
      obtain ⟨rfl, -⟩ := List.cons.inj hheads
      refine congrArg (a :: ·) (ih hl.2 hl'.2 fun x => ?_)
      have hx := hties x
      by_cases htie : ties le x a = true
      · rw [List.filter_cons_of_pos htie, List.filter_cons_of_pos htie] at hx
        exact (List.cons.inj hx).2
      · rwa [List.filter_cons_of_neg htie, List.filter_cons_of_neg htie] at hx

section

variable (trans : ∀ a b c, le a b = true → le b c = true → le a c = true)
    (total : ∀ a b, (le a b || le b a) = true)
include trans total

theorem filter_ties_mergeSort (l : List α) (a : α) :
    (l.mergeSort le).filter (ties le a) = l.filter (ties le a) := by
  have hsorted : (l.filter (ties le a)).Pairwise (le · ·) := by
    refine List.pairwise_of_forall_mem_list fun x hx y hy => ?_
    simp only [List.mem_filter, ties, Bool.and_eq_true] at hx hy
    exact trans x a y hx.2.2 hy.2.1
  have hsub := (List.sublist_mergeSort trans total hsorted List.filter_sublist).filter (ties le a)
  rw [List.filter_filter, show (fun x => ties le a x && ties le a x) =
    ties le a from funext fun x => by simp] at hsub
  refine (hsub.eq_of_length ?_).symm
  exact ((List.mergeSort_perm l le).filter (ties le a)).length_eq.symm

theorem mergeSort_eq_of_ties {l l' : List α}
    (h : ∀ a, l.filter (ties le a) = l'.filter (ties le a)) :
    l.mergeSort le = l'.mergeSort le := by
  refine eq_of_ties_of_pairwise total (List.pairwise_mergeSort trans total l)
    (List.pairwise_mergeSort trans total l') fun a => ?_
  rw [filter_ties_mergeSort trans total, filter_ties_mergeSort trans total, h]

theorem filter_mergeSort (l : List α) (q : α → Bool) :
    (l.mergeSort le).filter q = (l.filter q).mergeSort le := by
  refine eq_of_ties_of_pairwise total ((List.pairwise_mergeSort trans total l).filter q)
    (List.pairwise_mergeSort trans total _) fun a => ?_
  rw [filter_ties_mergeSort trans total, List.filter_comm, filter_ties_mergeSort trans total,
    List.filter_comm]

end

theorem filter_flatMap_of_nodup {β : Type} {l : List α} {f : α → List β} {q : β → Bool} {a : α}
    (hnodup : l.Nodup) (ha : a ∈ l) (hothers : ∀ b ∈ l, b ≠ a → (f b).filter q = []) :
    (l.flatMap f).filter q = (f a).filter q := by
  have hnone : ∀ {rest : List α}, (∀ b ∈ rest, (f b).filter q = []) →
      (rest.flatMap f).filter q = [] := by
    intro rest hrest
    rw [List.filter_flatMap, List.flatMap_eq_nil_iff]
    exact hrest
  induction l with
  | nil => simp at ha
  | cons b rest ih =>
    rw [List.nodup_cons] at hnodup
    rw [List.flatMap_cons, List.filter_append]
    rcases List.mem_cons.mp ha with rfl | hrest
    · have hafter : ∀ b ∈ rest, (f b).filter q = [] := by
        intro b hb
        exact hothers b (by simp [hb]) fun heq => hnodup.1 (heq ▸ hb)
      rw [hnone hafter, List.append_nil]
    · have hb : b ≠ a := fun heq => hnodup.1 (heq ▸ hrest)
      rw [hothers b (by simp) hb, List.nil_append]
      exact ih hnodup.2 hrest fun x hx => hothers x (by simp [hx])

end Stable

/-! ## Reading order -/

namespace Finding

theorem compare_eq_compareLex : Finding.compare =
    compareLex (compareOn (·.span.startLine)) (compareLex (compareOn (·.span.startCol))
      (compareLex (compareOn (·.span.endLine)) (compareLex (compareOn (·.span.endCol))
        (compareLex (compareOn (·.rule.rank)) (compareLex (compareOn (·.message))
          (compareOn (·.kernel.index))))))) := by
  funext a b
  simp only [compare, Span.compare, Location.compare, Span.start, Span.stop, compareLex, compareOn,
    Ordering.then_assoc]

instance : Std.TransCmp Finding.compare := by
  rw [compare_eq_compareLex]
  infer_instance

/-- Does the first finding come no later than the second in reading order? -/
def le (a b : Finding) : Bool := (a.compare b).isLE

theorem le_trans (a b c : Finding) (hab : a.le b = true) (hbc : b.le c = true) : a.le c = true :=
  Std.TransCmp.isLE_trans hab hbc

theorem le_total (a b : Finding) : (a.le b || b.le a) = true := by
  have hswap : b.compare a = (a.compare b).swap := Std.OrientedCmp.eq_swap
  rw [le, le, hswap]
  cases a.compare b <;> rfl

end Finding

theorem RuleKind.rank_injective {a b : RuleKind} : a.rank = b.rank → a = b := by
  cases a <;> cases b <;> decide

theorem Finding.same_batch_of_ties {a b : Finding} (h : Stable.ties Finding.le a b = true) :
    b.rule = a.rule ∧ b.kernel = a.kernel := by
  simp only [Stable.ties, Bool.and_eq_true] at h
  have heq : a.compare b = .eq := Std.OrientedCmp.isLE_antisymm h.1 h.2
  simp only [Finding.compare, Ordering.then_eq_eq, Std.compare_eq_iff_eq] at heq
  obtain ⟨-, hrank, -, hkernel⟩ := heq
  refine ⟨RuleKind.rank_injective hrank.symm, ?_⟩
  cases ha : a.kernel
  cases hb : b.kernel
  simp_all

namespace Report

variable {path : Path} {kernels : Nat} {l l' : List Finding}

@[simp] theorem mem_findings_ofFindings {f : Finding} :
    f ∈ (ofFindings path kernels l).findings ↔ f ∈ l :=
  List.mem_mergeSort

theorem findings_perm (path : Path) (kernels : Nat) (l : List Finding) :
    (ofFindings path kernels l).findings.Perm l :=
  List.mergeSort_perm _ _

theorem pairwise_findings (path : Path) (kernels : Nat) (l : List Finding) :
    (ofFindings path kernels l).findings.Pairwise fun a b => (a.compare b).isLE :=
  List.pairwise_mergeSort Finding.le_trans Finding.le_total l

/-- The report is settled by the findings of each rule about each kernel, in the order in which they
came. -/
theorem ofFindings_eq_of_batches
    (h : ∀ rule kernel, l.filter (fun f => f.rule = rule ∧ f.kernel = kernel) =
      l'.filter fun f => f.rule = rule ∧ f.kernel = kernel) :
    ofFindings path kernels l = ofFindings path kernels l' := by
  refine congrArg (Report.mk path kernels) ?_
  refine Stable.mergeSort_eq_of_ties Finding.le_trans Finding.le_total fun a => ?_
  have hbatch : ∀ x : List Finding, x.filter (Stable.ties Finding.le a) =
      (x.filter fun f => f.rule = a.rule ∧ f.kernel = a.kernel).filter
        (Stable.ties Finding.le a) := by
    intro x
    rw [List.filter_filter]
    refine List.filter_congr fun f _ => ?_
    cases htie : Stable.ties Finding.le a f with
    | false => simp
    | true => simp [Finding.same_batch_of_ties htie]
  have hties := congrArg (List.filter (Stable.ties Finding.le a)) (h a.rule a.kernel)
  rw [← hbatch, ← hbatch] at hties
  exact hties

theorem filter_findings (path : Path) (kernels : Nat) (l : List Finding) (q : Finding → Bool) :
    (ofFindings path kernels l).findings.filter q =
      (ofFindings path kernels (l.filter q)).findings :=
  Stable.filter_mergeSort Finding.le_trans Finding.le_total l q

/-! ## Numbers by severity -/

theorem mem_counts {r : Report} {severity : Severity} {n : Nat} :
    (severity, n) ∈ r.counts ↔ n = (r.findings.filter (·.severity = severity)).length ∧ 0 < n := by
  have hall : severity ∈ Severity.all := by cases severity <;> decide
  simp only [counts, List.mem_filter, List.mem_map, Prod.mk.injEq, decide_eq_true_eq]
  constructor
  · rintro ⟨⟨x, -, rfl, rfl⟩, hpos⟩
    exact ⟨List.countP_eq_length_filter, hpos⟩
  · rintro ⟨rfl, hpos⟩
    exact ⟨⟨severity, hall, rfl, List.countP_eq_length_filter⟩, hpos⟩

theorem severities_counts_sublist (r : Report) : (r.counts.map (·.1)).Sublist Severity.all := by
  have hsub :=
      (List.filter_sublist (p := (0 < ·.2)) (l := Severity.all.map fun s => (s, r.count s))).map
      (·.1)
  rw [List.map_map] at hsub
  simpa [counts, Function.comp_def] using hsub

end Report

end KernelLint
