import KernelLint.Proofs.Report
import KernelLint.Proofs.Session.Inspection

/-!
# Reports and the order of the work

What is said about a kernel does not depend on the kernels inspected before it. Every finding names
its rule and its kernel, so the findings of one rule about one kernel can be picked out of those of
a whole file again, and what is picked out is the same whatever order the kernels and the rules came
in. Findings that tie in reading order are of one rule and one kernel; so the report is the same,
too.
-/

namespace KernelLint

namespace RuleKind

theorem label_injective {a b : RuleKind} : a.label = b.label → a = b := by
  cases a <;> cases b <;> decide

theorem nodup_all : all.Nodup := by decide

variable {ctx : RuleContext} {rule r : RuleKind} {id : MethodId}

theorem filter_check (h : rule = r ∧ ctx.kernel.id = id) :
    (rule.check ctx).filter (fun f => f.rule = r ∧ f.kernel = id) = rule.check ctx := by
  rw [List.filter_eq_self]
  intro f hf
  obtain ⟨-, hrule, hkernel⟩ := remark_of_finding hf
  simp [hrule, hkernel, h]

theorem filter_check_eq_nil (h : ¬ (rule = r ∧ ctx.kernel.id = id)) :
    (rule.check ctx).filter (fun f => f.rule = r ∧ f.kernel = id) = [] := by
  rw [List.filter_eq_nil_iff]
  intro f hf
  obtain ⟨-, hrule, hkernel⟩ := remark_of_finding hf
  simpa [hrule, hkernel] using h

end RuleKind

namespace Session

variable {s : Session} {c : Config} {p : Program} {owner : Owner} {k kernel : Method}

/-! ## What is found about several kernels -/

theorem verdict_inspectKernel_of_live (hk : p.method? k.id = some k)
    (hkernel : p.method? kernel.id = some kernel) (owner : Owner) :
    (s.inspectKernel p owner kernel).2.verdict p k = s.verdict p k := by
  have hsame : kernel.id = k.id → kernel = k := Program.eq_of_id_eq hkernel hk
  have hscope : ((s.inspectKernel p owner kernel).2.scopes.resolve p k).1.scope =
      (s.scopes.resolve p k).1.scope :=
    s.scopes.scope_resolve_resolve p hsame
  rw [verdict, context, hscope]
  rfl

theorem found_inspectKernels {kernels : List Method}
    (hlive : ∀ k ∈ kernels, p.method? k.id = some k) (s : Session) (owner : Owner) :
    (inspectKernels p owner kernels s).1 = kernels.flatMap (s.verdict p) := by
  induction kernels generalizing s with
  | nil => rfl
  | cons x rest ih =>
    have hrest := ih (fun k hk => hlive k (by simp [hk])) (s.inspectKernel p owner x).2
    have hsame : rest.flatMap ((s.inspectKernel p owner x).2.verdict p) =
        rest.flatMap (s.verdict p) :=
      List.flatMap_congr fun k hk =>
        verdict_inspectKernel_of_live (hlive k (by simp [hk])) (hlive x (by simp)) owner
    calc (inspectKernels p owner (x :: rest) s).1
        = s.verdict p x ++ (inspectKernels p owner rest (s.inspectKernel p owner x).2).1 := rfl
      _ = (x :: rest).flatMap (s.verdict p) := by rw [hrest, hsame, List.flatMap_cons]

/-- What rules find about kernels from scratch. -/
def foundBy (c : Config) (p : Program) (rules : List RuleKind) (kernels : List Method) :
    List Finding :=
  kernels.flatMap fun k => findings rules (.ofKernel c p k)

theorem mem_foundBy {rules : List RuleKind} {kernels : List Method} {f : Finding} :
    f ∈ foundBy c p rules kernels ↔ ∃ k ∈ kernels, ∃ r ∈ rules, f ∈ r.check (.ofKernel c p k) := by
  simp only [foundBy, findings, List.mem_flatMap]

theorem Serves.verdict_withRules (h : s.Serves c p) (hlive : p.method? k.id = some k)
    (rules : List RuleKind) :
    { s with rules }.verdict p k = findings rules (.ofKernel c p k) := by
  rw [← h.context_eq hlive]
  rfl

theorem Serves.found_withRules (h : s.Serves c p) {kernels : List Method}
    (hlive : ∀ k ∈ kernels, p.method? k.id = some k) (rules : List RuleKind) (owner : Owner) :
    (Session.inspectKernels p owner kernels { s with rules }).1 = foundBy c p rules kernels := by
  rw [found_inspectKernels hlive]
  exact List.flatMap_congr fun k hk => h.verdict_withRules (hlive k hk) rules

/-! ## The batches of one rule and one kernel -/

section

variable {rules rules' : List RuleKind} {kernels kernels' : List Method} {r : RuleKind}

theorem filter_findings_eq (hrules : rules.Nodup) (hr : r ∈ rules) :
    (findings rules (.ofKernel c p k)).filter (fun f => f.rule = r ∧ f.kernel = k.id) =
      r.check (.ofKernel c p k) := by
  have hothers : ∀ rule ∈ rules, rule ≠ r →
      (rule.check (.ofKernel c p k)).filter (fun f => f.rule = r ∧ f.kernel = k.id) = [] :=
    fun rule _ hne => RuleKind.filter_check_eq_nil fun h => hne h.1
  rw [findings, Stable.filter_flatMap_of_nodup hrules hr hothers]
  exact RuleKind.filter_check ⟨rfl, rfl⟩

theorem filter_findings_eq_nil {id : MethodId} (h : ¬ (r ∈ rules ∧ k.id = id)) :
    (findings rules (.ofKernel c p k)).filter (fun f => f.rule = r ∧ f.kernel = id) = [] := by
  rw [findings, List.filter_flatMap, List.flatMap_eq_nil_iff]
  intro rule hrule
  refine RuleKind.filter_check_eq_nil fun heq => h ?_
  exact ⟨heq.1 ▸ hrule, heq.2⟩

/-- **A rule is heard alone**: what it finds about a kernel can be picked out of what all rules find
about all kernels. -/
theorem filter_foundBy_eq (hlive : ∀ k ∈ kernels, p.method? k.id = some k)
    (hkernels : kernels.Nodup) (hrules : rules.Nodup) (hr : r ∈ rules) (hk : k ∈ kernels) :
    (foundBy c p rules kernels).filter (fun f => f.rule = r ∧ f.kernel = k.id) =
      r.check (.ofKernel c p k) := by
  rw [foundBy, Stable.filter_flatMap_of_nodup hkernels hk, filter_findings_eq hrules hr]
  intro other hother hne
  exact filter_findings_eq_nil fun ⟨_, hid⟩ =>
    hne (Program.eq_of_id_eq (hlive other hother) (hlive k hk) hid)

theorem filter_foundBy_eq_nil {id : MethodId} (h : ¬ (r ∈ rules ∧ ∃ k ∈ kernels, k.id = id)) :
    (foundBy c p rules kernels).filter (fun f => f.rule = r ∧ f.kernel = id) = [] := by
  rw [foundBy, List.filter_flatMap, List.flatMap_eq_nil_iff]
  intro k hk
  exact filter_findings_eq_nil fun heq => h ⟨heq.1, k, hk, heq.2⟩

theorem filter_foundBy_perm (hlive : ∀ k ∈ kernels, p.method? k.id = some k)
    (hkernels : kernels.Nodup) (hrules : rules.Nodup) (hkernels' : kernels'.Perm kernels)
    (hrules' : rules'.Perm rules) (r : RuleKind) (id : MethodId) :
    (foundBy c p rules' kernels').filter (fun f => f.rule = r ∧ f.kernel = id) =
      (foundBy c p rules kernels).filter fun f => f.rule = r ∧ f.kernel = id := by
  by_cases hbatch : r ∈ rules ∧ ∃ k ∈ kernels, k.id = id
  · obtain ⟨hr, k, hk, rfl⟩ := hbatch
    rw [filter_foundBy_eq hlive hkernels hrules hr hk]
    refine filter_foundBy_eq (fun x hx => hlive x (hkernels'.mem_iff.mp hx))
      (hkernels'.nodup_iff.mpr hkernels)
      (hrules'.nodup_iff.mpr hrules) (hrules'.mem_iff.mpr hr) (hkernels'.mem_iff.mpr hk)
  · rw [filter_foundBy_eq_nil hbatch]
    refine filter_foundBy_eq_nil fun ⟨hr, k, hk, hid⟩ => hbatch ?_
    exact ⟨hrules'.mem_iff.mp hr, k, hkernels'.mem_iff.mp hk, hid⟩

end

/-! ## Whole files -/

/-- Inspect given kernels of a file with given rules, in the order in which they are given. -/
def inspectInOrder (s : Session) (p : Program) (file : FileId) (kernels : List Method)
    (rules : List RuleKind) :
    Report :=
  let found := (inspectKernels p (ownerOf p file) kernels { s.synced p with rules }).1
  .ofFindings (ownerOf p file).path kernels.length found

theorem report_inspectFile (s : Session) (p : Program) (file : FileId) :
    (s.inspectFile p file).1 = s.inspectInOrder p file (Catalog.listed s.config p file) s.rules :=
  rfl

theorem Serves.inspectInOrder_eq (h : s.Serves c p) {kernels : List Method}
    (hlive : ∀ k ∈ kernels, p.method? k.id = some k) (file : FileId) (rules : List RuleKind) :
    s.inspectInOrder p file kernels rules =
      .ofFindings (ownerOf p file).path kernels.length (foundBy c p rules kernels) := by
  have hsynced := h.withRegistry (s.registry.sync p.revision).2
  exact congrArg (Report.ofFindings _ _) (hsynced.found_withRules hlive rules (ownerOf p file))

theorem Serves.report_eq (h : s.Serves c p) (file : FileId) : (s.inspectFile p file).1 =
    .ofFindings (ownerOf p file).path (Catalog.listed c p file).length
      (foundBy c p c.enabledRules (Catalog.listed c p file)) := by
  rw [report_inspectFile, h.rules_eq, h.config_eq]
  exact h.inspectInOrder_eq (fun k hk => Catalog.live_of_mem_listed hk) file c.enabledRules

end Session

/-! ## Leaving out a rule -/

namespace Config

theorem nodup_enabledRules (c : Config) : c.enabledRules.Nodup :=
  RuleKind.nodup_all.filter _

theorem disable_eq (c : Config) (r : RuleKind) :
    c.disable r = { c with disabledRules := (c.disable r).disabledRules } := by
  unfold disable
  split <;> rfl

theorem isEnabled_disable (c : Config) (r rule : RuleKind) :
    (c.disable r).isEnabled rule = (c.isEnabled rule && rule ≠ r) := by
  have hlabel : rule.label = r.label ↔ rule = r := ⟨RuleKind.label_injective, congrArg _⟩
  unfold disable
  split
  · rename_i hdisabled
    by_cases heq : rule = r
    · subst heq
      simpa [isEnabled] using hdisabled
    · simp [heq]
  · simp [isEnabled, hlabel, Bool.and_comm]

theorem enabledRules_disable (c : Config) (r : RuleKind) :
    (c.disable r).enabledRules = c.enabledRules.filter (· ≠ r) := by
  rw [enabledRules, enabledRules, List.filter_filter]
  refine List.filter_congr fun rule _ => ?_
  rw [isEnabled_disable, Bool.and_comm]

end Config

namespace Session

variable {c : Config} {p : Program}

theorem listed_disable (c : Config) (r : RuleKind) (p : Program) (file : FileId) :
    Catalog.listed (c.disable r) p file = Catalog.listed c p file := by
  rw [c.disable_eq r]
  rfl

theorem check_disable (c : Config) (r : RuleKind) (p : Program) (k : Method) (rule : RuleKind) :
    rule.check (.ofKernel (c.disable r) p k) = rule.check (.ofKernel c p k) := by
  rw [c.disable_eq r]
  cases rule <;> rfl

theorem findings_filter_rules (rules : List RuleKind) (ctx : RuleContext) (r : RuleKind) :
    findings (rules.filter (· ≠ r)) ctx = (findings rules ctx).filter (·.rule ≠ r) := by
  induction rules with
  | nil => rfl
  | cons rule rest ih =>
    have hhead : ∀ f ∈ rule.check ctx, f.rule = rule :=
      fun f hf => (RuleKind.remark_of_finding hf).2.1
    have hsplit : findings (rule :: rest) ctx = rule.check ctx ++ findings rest ctx := rfl
    rw [hsplit, List.filter_append, ← ih]
    by_cases heq : rule = r
    · have hnone : (rule.check ctx).filter (·.rule ≠ r) = [] := by
        rw [List.filter_eq_nil_iff]
        intro f hf
        simp [hhead f hf, heq]
      rw [hnone, List.filter_cons_of_neg (by simp [heq]), List.nil_append]
    · have hall : (rule.check ctx).filter (·.rule ≠ r) = rule.check ctx := by
        rw [List.filter_eq_self]
        intro f hf
        simp [hhead f hf, heq]
      rw [hall, List.filter_cons_of_pos (by simp [heq])]
      rfl

theorem foundBy_disable (c : Config) (r : RuleKind) (p : Program) (kernels : List Method) :
    foundBy (c.disable r) p (c.disable r).enabledRules kernels =
      (foundBy c p c.enabledRules kernels).filter (·.rule ≠ r) := by
  rw [foundBy, foundBy, List.filter_flatMap]
  refine List.flatMap_congr fun k _ => ?_
  rw [← findings_filter_rules, ← Config.enabledRules_disable, findings, findings]
  exact List.flatMap_congr fun rule _ => check_disable c r p k rule

/-- **Reports do not depend on the order of the work.** Whatever a session that serves the program
has in its registry and in its cache, and whatever order the kernels of the file and the enabled
rules come in, the report is the same. It is in reading order; what it holds of one rule and one
kernel is what this rule finds about this kernel, and it holds nothing else; its numbers are those
of its findings by severity. Not running a rule takes the findings of this rule out of the report
and leaves the rest as it is. -/
theorem report_independent_of_order {s : Session} (h : s.Serves c p) (file : FileId) :
    let report := (s.inspectFile p file).1
    let kernels := Catalog.listed c p file
    (∀ (s' : Session) (kernels' : List Method) (rules' : List RuleKind), s'.Serves c p →
      kernels'.Perm kernels → rules'.Perm c.enabledRules →
        s'.inspectInOrder p file kernels' rules' = report) ∧
    report.findings.Pairwise (fun a b => (a.compare b).isLE) ∧
    (∀ r ∈ c.enabledRules, ∀ k ∈ kernels,
      (report.findings.filter fun f => f.rule = r ∧ f.kernel = k.id).Perm
        (r.check (.ofKernel c p k))) ∧
    (∀ f ∈ report.findings, f.rule ∈ c.enabledRules ∧ ∃ k ∈ kernels, f.kernel = k.id) ∧
    ((∀ severity n, (severity, n) ∈ report.counts ↔
        n = (report.findings.filter (·.severity = severity)).length ∧ 0 < n) ∧
      (report.counts.map (·.1)).Sublist Severity.all) ∧
    ∀ (r : RuleKind) (s' : Session), s'.Serves (c.disable r) p →
      (s'.inspectFile p file).1 =
        { report with findings := report.findings.filter (·.rule ≠ r) } := by
  intro report kernels
  have hlive : ∀ k ∈ kernels, p.method? k.id = some k := fun k hk => Catalog.live_of_mem_listed hk
  have hkernels : kernels.Nodup := Catalog.nodup_listed c p file
  have hrules := c.nodup_enabledRules
  have hreport : report = .ofFindings (ownerOf p file).path kernels.length
      (foundBy c p c.enabledRules kernels) :=
    h.report_eq file
  refine ⟨fun s' kernels' rules' h' hperm hperm' => ?_, ?_, fun r hr k hk => ?_, fun f hf => ?_,
    ⟨fun severity n => Report.mem_counts, report.severities_counts_sublist⟩, fun r s' h' => ?_⟩
  · rw [h'.inspectInOrder_eq (fun k hk => hlive k (hperm.mem_iff.mp hk)), hreport, hperm.length_eq]
    exact Report.ofFindings_eq_of_batches (filter_foundBy_perm hlive hkernels hrules hperm hperm')
  · rw [hreport]
    exact Report.pairwise_findings ..
  · rw [hreport, ← filter_foundBy_eq hlive hkernels hrules hr hk]
    exact (Report.findings_perm ..).filter _
  · rw [hreport, Report.mem_findings_ofFindings, mem_foundBy] at hf
    obtain ⟨k, hk, r, hr, hcheck⟩ := hf
    obtain ⟨-, hrule, hkernel⟩ := RuleKind.remark_of_finding hcheck
    exact ⟨hrule ▸ hr, k, hk, hkernel⟩
  · rw [h'.report_eq, listed_disable, foundBy_disable, hreport, Report.filter_findings]
    rfl

/-- Two kernels with a parameter of the same foreign type, which are reported at the same place in
the same words. The second one returns something. A session that has inspected them before goes
through kernels and rules backwards. -/
theorem report_of_kernels_backwards :
    let int : TypeUse := { (default : TypeUse) with type := ⟨"int", 0⟩ }
    let p :=
        Program.ofFiles [[.kernelOf "f" ["other.Vec"],
          { Method.kernelOf "g" ["other.Vec"] with result := some int }]]
    let c : Config := default
    let report := ((start c).inspectFile p ⟨0⟩).1
    let warm := ((start c).inspectFile p ⟨0⟩).2
    warm.inspectInOrder p ⟨0⟩ (Catalog.listed c p ⟨0⟩).reverse c.enabledRules.reverse = report ∧
      report.findings.length = 3 ∧
      ((start (c.disable .dataType)).inspectFile p ⟨0⟩).1.findings.length = 1 := by
  intro int p c report warm
  have hserves : (start c).Serves c p := serves_start c {} p
  obtain ⟨horder, -, -, -, -, hdisable⟩ := report_independent_of_order hserves ⟨0⟩
  have hfound : report.findings.Perm (foundBy c p c.enabledRules (Catalog.listed c p ⟨0⟩)) := by
    rw [show report = _ from hserves.report_eq ⟨0⟩]
    exact Report.findings_perm ..
  refine ⟨horder warm _ _ (hserves.inspectFile ⟨0⟩) (List.reverse_perm _) (List.reverse_perm _), ?_,
    ?_⟩
  · rw [hfound.length_eq]
    decide +kernel
  · rw [hdisable .dataType _ (serves_start _ {} p)]
    rw [(hfound.filter _).length_eq]
    decide +kernel

end Session

end KernelLint
