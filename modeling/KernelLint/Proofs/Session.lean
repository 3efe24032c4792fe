import KernelLint.Proofs.CallGraph.Coherence
import KernelLint.Proofs.Rule.Findings
import KernelLint.Session

/-!
# Sessions that share one cache

A session serves a program under a configuration when its settings are those of the configuration
and its cache is coherent with the program. Inspecting kernels keeps this, so what a session finds
about a kernel does not depend on the kernels it inspected before.
-/

namespace KernelLint.Session

/-- The session has the settings of the configuration and a cache coherent with the program. -/
structure Serves (s : Session) (c : Config) (p : Program) : Prop where
  config_eq : s.config = c
  rules_eq : s.rules = c.enabledRules
  trusted_eq : s.scopes.trusted = c.trustedNamespace
  depth_eq : s.scopes.maxDepth = c.maxInlineDepth
  coherent : s.scopes.Coherent p

variable {s : Session} {c : Config} {p : Program} {kernel : Method}

theorem serves_start (c : Config) (registry : Registry) (p : Program) :
    (start c registry).Serves c p :=
  ⟨rfl, rfl, rfl, rfl, .of_empty rfl (Nat.zero_le _)⟩

/-- **What a session finds about a kernel** are the findings of the enabled rules on the scope
computed from scratch. -/
theorem Serves.found_inspectKernel (h : s.Serves c p) (hkernel : p.method? kernel.id = some kernel)
    (owner : Owner) :
    (s.inspectKernel p owner kernel).1 = findings c.enabledRules (.ofKernel c p kernel) := by
  have hscope := h.coherent.scope_resolve hkernel
  rw [h.trusted_eq, h.depth_eq] at hscope
  rw [inspectKernel, RuleContext.ofKernel, ← hscope, ← h.rules_eq, ← h.config_eq]

theorem Serves.inspectKernel (h : s.Serves c p) (hkernel : p.method? kernel.id = some kernel)
    (owner : Owner) : (s.inspectKernel p owner kernel).2.Serves c p where
  config_eq := h.config_eq
  rules_eq := h.rules_eq
  trusted_eq := (h.coherent.settings_resolve kernel).1.trans h.trusted_eq
  depth_eq := (h.coherent.settings_resolve kernel).2.trans h.depth_eq
  coherent := h.coherent.resolve hkernel

theorem Serves.inspectKernels (h : s.Serves c p) {kernels : List Method}
    (hlive : ∀ k ∈ kernels, p.method? k.id = some k) (owner : Owner) :
    (inspectKernels p owner kernels s).2.Serves c p := by
  induction kernels generalizing s with
  | nil => exact h
  | cons k rest ih =>
    exact ih (h.inspectKernel (hlive k (by simp)) owner) fun x hx => hlive x (by simp [hx])

theorem mem_findings {ctx : RuleContext} {rule : RuleKind} (henabled : c.isEnabled rule = true)
    {f : Finding} (hf : f ∈ rule.check ctx) : f ∈ findings c.enabledRules ctx := by
  refine List.mem_flatMap.mpr ⟨rule, ?_, hf⟩
  rw [Config.enabledRules, List.mem_filter]
  exact ⟨by cases rule <;> decide, henabled⟩

end KernelLint.Session
