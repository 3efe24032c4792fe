import KernelLint.Proofs.Rule.Findings

/-!
# Where rules flag the kernel

Seven rules make the kernel a problem method at every place where they make a remark; the rule on
the result of the kernel and the rule on open calls never do. Of what the rules find, nothing that
is grave or a call into a library goes without a flag.
-/

namespace KernelLint

namespace Rule

variable {ctx : RuleContext} {m : Method} {n : Notice}

theorem flags_of_mem_onStmts {test : Stmt → Bool} {message : String}
    (hn : n ∈ onStmts ctx m test message) : n.flags = true := by
  obtain ⟨s, -, rfl⟩ := List.mem_map.mp hn
  rfl

theorem flags_of_mem_throw (hn : n ∈ throw ctx) : n.flags = true := by
  obtain ⟨m, -, hsaid⟩ := RuleContext.mem_onMembers.mp hn
  rw [List.mem_append, List.mem_append] at hsaid
  rcases hsaid with (hraise | htry) | hclause
  · exact flags_of_mem_onStmts hraise
  · exact flags_of_mem_onStmts htry
  · obtain ⟨t, -, rfl⟩ := List.mem_map.mp hclause
    rfl

theorem flags_of_mem_systemCall (hn : n ∈ systemCall ctx) : n.flags = true := by
  obtain ⟨m, -, hsaid⟩ := RuleContext.mem_onMembers.mp hn
  obtain ⟨⟨call, callee⟩, -, hcall⟩ := List.mem_flatMap.mp hsaid
  rcases List.mem_append.mp hcall with hnative | hrestricted
  · split at hnative
    · rw [List.mem_singleton.mp hnative]
      rfl
    · simp at hnative
  · split at hrestricted
    · rw [List.mem_singleton.mp hrestricted]
      rfl
    · simp at hrestricted

theorem eq_plain_of_mem_nonVoidReturn (hn : n ∈ nonVoidReturn ctx) :
    ∃ r : Remark, n = .plain r ∧ r.severity = .warning := by
  unfold nonVoidReturn at hn
  split at hn
  · simp at hn
  · split at hn
    · simp at hn
    · exact ⟨_, List.mem_singleton.mp hn, rfl⟩

theorem eq_plain_of_mem_unresolvableHelper (hn : n ∈ unresolvableHelper ctx) :
    ∃ r : Remark, n = .plain r ∧ r.severity = .weakWarning := by
  obtain ⟨o, -, rfl⟩ := List.mem_map.mp hn
  exact ⟨_, rfl, rfl⟩

end Rule

namespace RuleKind

variable {ctx : RuleContext} {rule : RuleKind} {n : Notice}

/-- **Seven rules flag the kernel wherever they make a remark**, and two never do. -/
theorem flags_iff (hn : n ∈ rule.notices ctx) :
    n.flags = true ↔ rule ≠ .nonVoidReturn ∧ rule ≠ .unresolvableHelper := by
  cases rule with
  | nonVoidReturn =>
    obtain ⟨r, rfl, -⟩ := Rule.eq_plain_of_mem_nonVoidReturn hn
    simp [Notice.plain]
  | unresolvableHelper =>
    obtain ⟨r, rfl, -⟩ := Rule.eq_plain_of_mem_unresolvableHelper hn
    simp [Notice.plain]
  | throw => simp [Rule.flags_of_mem_throw hn]
  | systemCall => simp [Rule.flags_of_mem_systemCall hn]
  | recursion =>
    obtain ⟨x, -, rfl⟩ := List.mem_map.mp hn
    simp [Notice.flagging]
  | dataType | staticTaskGraph | assert | externalLibrary =>
    obtain ⟨m, -, hsaid⟩ := RuleContext.mem_onMembers.mp hn
    obtain ⟨x, -, rfl⟩ := List.mem_map.mp hsaid
    simp [Notice.flagging]

theorem flags_of_error (hn : n ∈ rule.notices ctx) (herror : n.remark.severity = .error) :
    n.flags = true := by
  refine (flags_iff hn).mpr ⟨?_, ?_⟩
  · rintro rfl
    obtain ⟨r, rfl, hsevere⟩ := Rule.eq_plain_of_mem_nonVoidReturn hn
    cases hsevere.symm.trans herror
  · rintro rfl
    obtain ⟨r, rfl, hsevere⟩ := Rule.eq_plain_of_mem_unresolvableHelper hn
    cases hsevere.symm.trans herror

theorem notice_of_finding {f : Finding} (hf : f ∈ rule.check ctx) :
    ∃ n ∈ rule.notices ctx, n.remark = f.toRemark :=
  List.mem_map.mp (remark_of_finding hf).1

end RuleKind

end KernelLint
