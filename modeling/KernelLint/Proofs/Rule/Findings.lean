import KernelLint.Proofs.Program.Live
import KernelLint.Rule.Check

/-!
# Remarks and findings

The findings of a rule are its remarks with repetitions left out: every finding is a remark of the
rule, and every remark is represented by a finding with the same message about the same target. Most
rules remark on the members of the scope, which are its live methods.
-/

namespace KernelLint

namespace Findings

variable {f : Findings} {r : Remark} {rs : List Remark}

theorem has_iff : f.has r = true ↔ ∃ g ∈ f.list, g.target = r.target ∧ g.message = r.message := by
  simp [has]

@[simp] theorem rule_register (f : Findings) (r : Remark) : (f.register r).rule = f.rule := by
  unfold register
  split <;> rfl

@[simp] theorem kernel_register (f : Findings) (r : Remark) : (f.register r).kernel = f.kernel := by
  unfold register
  split <;> rfl

theorem mem_register {g : Finding} (hg : g ∈ (f.register r).list) :
    g ∈ f.list ∨ g = { r with rule := f.rule, kernel := f.kernel } := by
  unfold register at hg
  split at hg
  · exact .inl hg
  · simpa using hg

theorem list_subset_register (f : Findings) (r : Remark) : f.list ⊆ (f.register r).list := by
  unfold register
  split
  · exact List.Subset.refl _
  · exact List.subset_append_left _ _

theorem has_register_self (f : Findings) (r : Remark) : (f.register r).has r = true := by
  unfold register
  split
  · assumption
  · simp [has]

theorem list_subset_registerAll (f : Findings) (rs : List Remark) :
    f.list ⊆ (f.registerAll rs).list := by
  induction rs generalizing f with
  | nil => exact List.Subset.refl _
  | cons r rs ih => exact fun g hg => ih (f.register r) (list_subset_register f r hg)

theorem mem_registerAll {g : Finding} (hg : g ∈ (f.registerAll rs).list) :
    g ∈ f.list ∨ g.toRemark ∈ rs ∧ g.rule = f.rule ∧ g.kernel = f.kernel := by
  induction rs generalizing f with
  | nil => exact .inl hg
  | cons r rs ih =>
    rcases ih (f := f.register r) hg with hold | ⟨hmem, hrule, hkernel⟩
    · rcases mem_register hold with hold | rfl
      · exact .inl hold
      · exact .inr ⟨by simp, rfl, rfl⟩
    · exact .inr ⟨by simp [hmem], by simpa using hrule, by simpa using hkernel⟩

theorem has_registerAll (hr : r ∈ rs) : (f.registerAll rs).has r = true := by
  induction rs generalizing f with
  | nil => simp at hr
  | cons first rs ih =>
    rcases List.mem_cons.mp hr with rfl | hrest
    · obtain ⟨g, hg, hsame⟩ := has_iff.mp (has_register_self f r)
      exact has_iff.mpr ⟨g, list_subset_registerAll _ rs hg, hsame⟩
    · exact ih (f := f.register first) hrest

end Findings

namespace RuleContext

/-- What the rules see of a kernel under a configuration. -/
def ofKernel (c : Config) (p : Program) (kernel : Method) : RuleContext :=
  ⟨p, c, kernel, p.scopeOf c.trustedNamespace c.maxInlineDepth kernel⟩

theorem mem_members {ctx : RuleContext} {m : Method} :
    m ∈ ctx.members ↔ m.id ∈ ctx.scope.members ∧ ctx.program.method? m.id = some m := by
  rw [members, List.mem_filterMap]
  constructor
  · rintro ⟨id, hid, hm⟩
    obtain rfl := Program.id_of_method? hm
    exact ⟨hid, hm⟩
  · rintro ⟨hid, hm⟩
    exact ⟨m.id, hid, hm⟩

theorem mem_onMembers {α : Type} {ctx : RuleContext} {say : Method → List α} {a : α} :
    a ∈ ctx.onMembers say ↔ ∃ m ∈ ctx.members, a ∈ say m :=
  List.mem_flatMap

end RuleContext

namespace RuleKind

variable {ctx : RuleContext} {rule : RuleKind}

theorem mem_remarks_unresolvableHelper {r : Remark} :
    r ∈ RuleKind.unresolvableHelper.remarks ctx ↔ ∃ o ∈ ctx.scope.openCalls,
      ⟨.node o.node, o.span, o.caller, Message.unresolvableHelper o.reason, .weakWarning⟩ = r := by
  rw [remarks, notices, Rule.unresolvableHelper, List.map_map, List.mem_map]
  rfl

theorem remark_of_finding {f : Finding} (hf : f ∈ rule.check ctx) :
    f.toRemark ∈ rule.remarks ctx ∧ f.rule = rule ∧ f.kernel = ctx.kernel.id := by
  rcases Findings.mem_registerAll hf with hnone | h
  · simp at hnone
  · exact h

/-- **Every remark is represented among the findings**: one of them has the same message about the
same target. -/
theorem finding_of_remark {r : Remark} (hr : r ∈ rule.remarks ctx) :
    ∃ f ∈ rule.check ctx, f.rule = rule ∧ f.target = r.target ∧ f.message = r.message := by
  obtain ⟨f, hf, hsame⟩ := Findings.has_iff.mp
    (Findings.has_registerAll (f := { rule, kernel := ctx.kernel.id }) hr)
  exact ⟨f, hf, (remark_of_finding hf).2.1, hsame⟩

end RuleKind

end KernelLint
