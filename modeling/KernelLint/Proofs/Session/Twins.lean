import KernelLint.Proofs.Session.Order

/-!
# Kernels with the same text

Of the methods of a file that carry a mark and have the same text, the first stands for all: the
report says about it what an inspection of it alone finds, and about the others nothing. How the
names of a text resolve may differ from class to class, so the others may have findings that are not
reported.
-/

namespace KernelLint.Session

variable {s : Session} {p : Program} {file : FileId} {m k : Method}

theorem kernel_of_mem_verdict {f : Finding} (hf : f ∈ s.verdict p k) : f.kernel = k.id := by
  obtain ⟨rule, -, hcheck⟩ := List.mem_flatMap.mp hf
  exact (RuleKind.remark_of_finding hcheck).2.2

theorem report_perm (s : Session) (p : Program) (file : FileId) :
    (s.inspectFile p file).1.findings.Perm
      ((Catalog.listed s.config p file).flatMap (s.verdict p)) := by
  have hlive : ∀ k ∈ Catalog.listed s.config p file, p.method? k.id = some k :=
    fun k hk => Catalog.live_of_mem_listed hk
  have hfound := found_inspectKernels hlive (s.synced p) (ownerOf p file)
  rw [report_inspectFile]
  exact hfound ▸ Report.findings_perm ..

theorem mem_report (s : Session) (p : Program) (file : FileId) {f : Finding} :
    f ∈ (s.inspectFile p file).1.findings ↔
      ∃ k ∈ Catalog.listed s.config p file, f ∈ s.verdict p k :=
  (s.report_perm p file).mem_iff.trans List.mem_flatMap

theorem report_of_listed (hk : k ∈ Catalog.listed s.config p file) (owner : Owner) :
    ((s.inspectFile p file).1.findings.filter (·.kernel = k.id)).Perm
      (s.inspectKernel p owner k).1 := by
  refine ((s.report_perm p file).filter _).trans (List.Perm.of_eq ?_)
  have hothers : ∀ x ∈ Catalog.listed s.config p file, x ≠ k →
      (s.verdict p x).filter (fun f => decide (f.kernel = k.id)) = [] := by
    intro x hx hne
    rw [List.filter_eq_nil_iff]
    intro f hf
    rw [decide_eq_true_eq, kernel_of_mem_verdict hf]
    exact fun hid => hne (Program.eq_of_id_eq (Catalog.live_of_mem_listed hx)
      (Catalog.live_of_mem_listed hk) hid)
  rw [Stable.filter_flatMap_of_nodup (Catalog.nodup_listed ..) hk hothers, List.filter_eq_self.mpr]
  · rfl
  · intro f hf
    simp [kernel_of_mem_verdict hf]

theorem not_reported_of_not_listed (hm : p.method? m.id = some m)
    (hlisted : m ∉ Catalog.listed s.config p file) {f : Finding}
    (hf : f ∈ (s.inspectFile p file).1.findings) : f.kernel ≠ m.id := by
  obtain ⟨k, hk, hverdict⟩ := (mem_report s p file).mp hf
  rw [kernel_of_mem_verdict hverdict]
  intro hid
  have hsame : k = m := Program.eq_of_id_eq (Catalog.live_of_mem_listed hk) hm hid
  exact hlisted (hsame ▸ hk)

/-- **Every text is inspected.** When no earlier kernel of the file has the text of a kernel, the
report says about the kernel exactly what an inspection of it alone finds; otherwise it says nothing
about it. In any case it says about the first kernel of the text what an inspection of that one
finds. -/
theorem every_text_inspected (s : Session) (p : Program) (file : FileId) (m : Method)
    (hm : m ∈ Catalog.marked s.config p file) :
    let report := (s.inspectFile p file).1
    let kernels := Catalog.marked s.config p file
    ((∀ k ∈ kernels, k.text = m.text → m.id.index ≤ k.id.index) → ∀ owner,
      (report.findings.filter (·.kernel = m.id)).Perm (s.inspectKernel p owner m).1) ∧
    (∀ k ∈ kernels, k.text = m.text → k.id.index < m.id.index →
      ∀ f ∈ report.findings, f.kernel ≠ m.id) ∧
    ∃ k ∈ kernels, k.text = m.text ∧ (∀ x ∈ kernels, x.text = m.text → k.id.index ≤ x.id.index) ∧
      ∀ owner,
      (report.findings.filter (·.kernel = k.id)).Perm (s.inspectKernel p owner k).1 := by
  intro report kernels
  refine ⟨fun hfirst owner => ?_, fun k hk htext hlt f hf => ?_, ?_⟩
  · exact report_of_listed (Catalog.mem_listed_iff.mpr ⟨hm, hfirst⟩) owner
  · refine not_reported_of_not_listed (Catalog.mem_marked.mp hm).1 (fun hlisted => ?_) hf
    have hle := (Catalog.mem_listed_iff.mp hlisted).2 k hk htext
    omega
  · obtain ⟨k, hk, htext⟩ := Catalog.exists_listed_of_marked hm
    obtain ⟨hmarked, hfirst⟩ := Catalog.mem_listed_iff.mp hk
    exact ⟨k, hmarked, htext, fun x hx hsame => hfirst x hx (hsame.trans htext.symm),
      report_of_listed hk⟩

/-- Three kernels of one file. The first two have the same text, but what it calls a vector is a
type of the runtime in the first and a foreign type in the second; it is foreign in the third,
too. -/
def siblings : Program :=
  let text := "static void k(KernelContext c, Vec v) { }"
  .ofFiles [[.kernelOf text ["uk.ac.manchester.tornado.api.types.Vec"], .kernelOf text ["B.Vec"],
    .kernelOf "static void l(KernelContext c, Vec v) { }" ["B.Vec"]]]

/-- The report is silent about the second kernel and says about the third what an inspection of it
finds. -/
theorem siblings_reported :
    let s := start default
    let report := (s.inspectFile siblings ⟨0⟩).1
    let kernel (i : Nat) : Method := (siblings.method? ⟨i⟩).getD default
    (∀ f ∈ report.findings, f.kernel ≠ (kernel 1).id) ∧
      (report.findings.filter (·.kernel = (kernel 2).id)).Perm
        (s.inspectKernel siblings default (kernel 2)).1 ∧
      (s.inspectKernel siblings default (kernel 2)).1.length = 1 := by
  intro s report kernel
  have hmarked : ∀ i < 3, kernel i ∈ Catalog.marked s.config siblings ⟨0⟩ := by
    intro i hi
    rw [Catalog.mem_marked]
    match i, hi with
    | 0, _ | 1, _ | 2, _ => exact ⟨rfl, rfl, by decide +kernel⟩
  have hfirst : ∀ k ∈ Catalog.marked s.config siblings ⟨0⟩, k.text = (kernel 2).text →
      (kernel 2).id.index ≤ k.id.index := by decide +kernel
  obtain ⟨-, hsilent, -⟩ := every_text_inspected s siblings ⟨0⟩ (kernel 1) (hmarked 1 (by decide))
  obtain ⟨hfound, -, -⟩ := every_text_inspected s siblings ⟨0⟩ (kernel 2) (hmarked 2 (by decide))
  exact ⟨hsilent (kernel 0) (hmarked 0 (by decide)) rfl (by decide +kernel), hfound hfirst default,
    by decide +kernel⟩

/-- An inspection of the second kernel finds something, and the report of the file does not hold
it. -/
theorem later_sibling_not_reported :
    let s := start default
    ∃ m, siblings.method? m.id = some m ∧ m.file = ⟨0⟩ ∧ (s.config.marker? m).isSome ∧
      ∃ f ∈ (s.inspectKernel siblings (ownerOf siblings ⟨0⟩) m).1,
        f ∉ (s.inspectFile siblings ⟨0⟩).1.findings := by
  intro s
  refine ⟨(siblings.method? ⟨1⟩).getD default, rfl, rfl, by decide +kernel, ?_⟩
  simp only [mem_report]
  decide +kernel

end KernelLint.Session
