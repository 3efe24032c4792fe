import KernelLint.Proofs.CallGraph.Reach
import KernelLint.Proofs.Session

/-!
# No call escapes

Every call of a member of the scope is accounted for. The walk and the three rules about calls judge
a callee by different tests in different orders, so what the verdict of the walk says about a callee
is put down first (`Inlining.Grounds`); then each rule is shown to remark on the calls it is there
for. A callee outside the project is settled by the name of its class alone. A callee of the project
is a member, restricted, part of the runtime, or the call is open.
-/

namespace KernelLint

/-! ## What a verdict says -/

/-- What is known of a callee from the verdict on it. -/
def Inlining.Grounds (p : Program) (trusted : String) (m : Method) : Inlining → Prop
  | .followed => p.isProjectMethod m = true
  | .restricted family => ∃ name, p.classNameOf? m = some name ∧
      Restricted.ofClass? name = some family
  | .intrinsic => ∃ name, p.classNameOf? m = some name ∧ Text.startsWith name trusted = true
  | .foreign => p.isProjectMethod m = false
  | .blocked _ => m.body.isNone = true ∨ m.isNative = true

theorem Program.grounds_byOrigin (p : Program) (trusted : String) (m : Method) :
    (if p.isProjectMethod m then Inlining.followed else .foreign).Grounds p trusted m := by
  by_cases hproject : p.isProjectMethod m
  · rw [if_pos hproject]
    exact hproject
  · rw [if_neg hproject]
    exact Bool.eq_false_iff.mpr hproject

theorem Program.grounds_inliningByName (p : Program) (trusted : String) (m : Method) :
    (p.inliningByName trusted m).Grounds p trusted m := by
  unfold inliningByName
  cases hname : p.classNameOf? m with
  | none => exact p.grounds_byOrigin trusted m
  | some name =>
    simp only
    cases hfamily : Restricted.ofClass? name with
    | some family => exact ⟨name, hname, hfamily⟩
    | none =>
      simp only
      by_cases htrusted : Text.startsWith name trusted
      · rw [if_pos htrusted]
        exact ⟨name, hname, htrusted⟩
      · rw [if_neg htrusted]
        exact p.grounds_byOrigin trusted m

theorem Program.grounds_inlining (p : Program) (trusted : String) (m : Method) :
    (p.inlining trusted m).Grounds p trusted m := by
  unfold inlining
  split
  · rename_i hbody
    exact .inl hbody
  · split
    · rename_i hnative
      exact .inr hnative
    · exact p.grounds_inliningByName trusted m

/-! ## What becomes of a call -/

/-- Calls of the method need no finding: the name of its class is trusted, of the platform or a
placeholder, or the method lies outside the project and has no class. -/
def Program.Exempt (p : Program) (trusted : String) (m : Method) : Prop :=
  (∃ name, p.classNameOf? m = some name ∧ (Text.startsWith name trusted = true ∨
    Text.startsWith name "java." = true ∨ Text.startsWith name "_Dummy_" = true)) ∨
  p.isProjectMethod m = false ∧ p.classNameOf? m = none

/-- Is the rule about calls that leave the kernel? -/
def RuleKind.IsAboutCalls (rule : RuleKind) : Prop :=
  rule = .systemCall ∨ rule = .externalLibrary ∨ rule = .unresolvableHelper

/-- What a call can be accounted for by. -/
inductive RuleContext.Accounts (ctx : RuleContext) (call : Expr) : Prop
  /-- The callee is a member of the scope. -/
  | listed {callee : Method} (called : ctx.program.callee? call = some callee)
      (mem : callee.id ∈ ctx.scope.members)
  /-- A rule remarks on the call. -/
  | remarked {rule : RuleKind} {r : Remark} (about : rule.IsAboutCalls) (mem : r ∈ rule.remarks ctx)
      (target : r.target = .node call.node)
  /-- The callee needs no finding. -/
  | exempt {callee : Method} (called : ctx.program.callee? call = some callee)
      (free : ctx.program.Exempt ctx.config.trustedNamespace callee)

theorem Rule.isExternal_eq_false_iff {c : Config} {name : String} :
    isExternal c name = false ↔ Text.startsWith name c.trustedNamespace = true ∨
      Text.startsWith name "java." = true ∨ Text.startsWith name "_Dummy_" = true := by
  simp only [isExternal, placeholderRoot, Config.isTrusted, Bool.not_eq_false', Bool.or_eq_true]
  rw [or_assoc, or_left_comm]

theorem Rule.mem_resolvedCalls {p : Program} {m callee : Method} {call : Expr}
    (hcall : call ∈ m.calls) (hcallee : p.callee? call = some callee) :
    (call, callee) ∈ resolvedCalls p m :=
  List.mem_filterMap.mpr ⟨call, hcall, by simp [hcallee]⟩

namespace RuleContext

variable {ctx : RuleContext} {m callee : Method} {call : Expr}

theorem accounts_restricted (hm : m ∈ ctx.members) (hcall : call ∈ m.calls)
    (hcallee : ctx.program.callee? call = some callee) {name : String} {family : Restricted}
    (hname : ctx.program.classNameOf? callee = some name)
    (hfamily : Restricted.ofClass? name = some family) :
    ctx.Accounts call := by
  have hnotice : .flagging (ctx.remark m call.node call.span
      (Message.restrictedCall family.root) .error) ∈ Rule.systemCall ctx := by
    refine mem_onMembers.mpr ⟨m, hm, List.mem_flatMap.mpr ⟨(call, callee), ?_, ?_⟩⟩
    · exact Rule.mem_resolvedCalls hcall hcallee
    · exact List.mem_append_right _ (by simp [hname, hfamily])
  exact .remarked (.inl rfl) (List.mem_map_of_mem hnotice) rfl

theorem accounts_openCall {reason : String}
    (hopen : OpenCall.of m call reason ∈ ctx.scope.openCalls) :
    ctx.Accounts call :=
  .remarked (.inr (.inr rfl)) (RuleKind.mem_remarks_unresolvableHelper.mpr ⟨_, hopen, rfl⟩) rfl

theorem accounts_outside (hm : m ∈ ctx.members) (hcall : call ∈ m.calls)
    (hcallee : ctx.program.callee? call = some callee)
    (hproject : ctx.program.isProjectMethod callee = false) : ctx.Accounts call := by
  cases hname : ctx.program.classNameOf? callee with
  | none => exact .exempt hcallee (.inr ⟨hproject, hname⟩)
  | some name =>
    cases hexternal : Rule.isExternal ctx.config name with
    | true =>
      have hnotice : .flagging (ctx.remark m call.node call.span
          Message.externalLibrary .warning) ∈ Rule.externalLibrary ctx := by
        refine mem_onMembers.mpr ⟨m, hm, List.mem_map.mpr ⟨(call, callee), ?_, rfl⟩⟩
        rw [List.mem_filter]
        exact ⟨Rule.mem_resolvedCalls hcall hcallee, by simp [hproject, hname, hexternal]⟩
      exact .remarked (.inr (.inl rfl)) (List.mem_map_of_mem hnotice) rfl
    | false => exact .exempt hcallee (.inl ⟨name, hname, Rule.isExternal_eq_false_iff.mp hexternal⟩)

end RuleContext

theorem accounts_of_mem_calls {c : Config} {p : Program} {kernel m : Method} {call : Expr}
    (hkernel : p.method? kernel.id = some kernel) (hdepth : p.methods.length ≤ c.maxInlineDepth)
    (hm : m ∈ (RuleContext.ofKernel c p kernel).members) (hcall : call ∈ m.calls) :
    (RuleContext.ofKernel c p kernel).Accounts call := by
  obtain ⟨hid, hlive⟩ := RuleContext.mem_members.mp hm
  obtain ⟨left, hmet⟩ : p.Walked c.trustedNamespace c.maxInlineDepth kernel m :=
    Program.walked_of_mem hkernel hdepth hlive hid
  have hcovered := Program.covered_tourOf hmet call hcall
  have hopen : ∀ reason, p.openReason? c.trustedNamespace call = some reason →
      (∀ callee, p.callee? call = some callee →
        callee.id ∉ (p.tourOf c.trustedNamespace c.maxInlineDepth kernel).ids) →
      (RuleContext.ofKernel c p kernel).Accounts call := by
    intro reason hreason hnew
    have hnoted := hcovered.noted reason hreason hnew
    rw [← Program.openCalls_scopeOf] at hnoted
    exact RuleContext.accounts_openCall hnoted
  cases hcallee : p.callee? call with
  | none =>
    obtain ⟨reason, hreason⟩ := Program.openReason?_of_unresolved c.trustedNamespace hcallee
    exact hopen reason hreason (by simp [hcallee])
  | some callee =>
    cases hproject : p.isProjectMethod callee with
    | false => exact RuleContext.accounts_outside hm hcall hcallee hproject
    | true =>
      have hgrounds := p.grounds_inlining c.trustedNamespace callee
      cases hverdict : p.inlining c.trustedNamespace callee with
      | followed =>
        have hlisted := hcovered.listed callee hcallee hverdict
        rw [← Program.members_scopeOf] at hlisted
        exact .listed hcallee hlisted
      | restricted family =>
        rw [hverdict] at hgrounds
        obtain ⟨name, hname, hfamily⟩ := hgrounds
        exact RuleContext.accounts_restricted hm hcall hcallee hname hfamily
      | intrinsic =>
        rw [hverdict] at hgrounds
        obtain ⟨name, hname, htrusted⟩ := hgrounds
        exact .exempt hcallee (.inl ⟨name, hname, .inl htrusted⟩)
      | foreign =>
        rw [hverdict] at hgrounds
        exact absurd (hproject.symm.trans hgrounds) (by simp)
      | blocked reason =>
        by_cases hmember : callee.id ∈ (p.tourOf c.trustedNamespace c.maxInlineDepth kernel).ids
        · -- the kernel itself, which is a member whatever the verdict on it
          rw [← Program.members_scopeOf] at hmember
          exact .listed hcallee hmember
        · refine hopen reason ?_ fun other hother => ?_
          · simp [Program.openReason?, hcallee, hverdict, hproject]
          · rwa [← Option.some.inj (hcallee.symm.trans hother)]

/-- **No call escapes silently.** In a session with every rule enabled and a depth of at least the
number of live methods, whatever kernels it inspected before, every call in a member of the scope of
a kernel is the call of a member, or it is the target of a finding about calls, or its callee is
exempt. -/
theorem no_call_escapes (c : Config) (registry : Registry) (p : Program) (owner : Owner)
    (before : List Method) (kernel m : Method) (call : Expr)
    (hbefore : ∀ k ∈ before, p.method? k.id = some k) (hkernel : p.method? kernel.id = some kernel)
    (henabled : ∀ rule, c.isEnabled rule = true) (hdepth : p.methods.length ≤ c.maxInlineDepth)
    (hm : p.method? m.id = some m)
    (hmember : m.id ∈ (p.scopeOf c.trustedNamespace c.maxInlineDepth kernel).members)
    (hcall : call ∈ m.calls) :
    let s := (Session.inspectKernels p owner before (.start c registry)).2
    let found := (s.inspectKernel p owner kernel).1
    (∃ callee, p.callee? call = some callee ∧
      callee.id ∈ (p.scopeOf c.trustedNamespace c.maxInlineDepth kernel).members) ∨
    (∃ f ∈ found, f.rule.IsAboutCalls ∧ f.target = .node call.node) ∨
    (∃ callee, p.callee? call = some callee ∧ p.Exempt c.trustedNamespace callee) := by
  intro s found
  have hserves : s.Serves c p := (Session.serves_start c registry p).inspectKernels hbefore owner
  have hfound : found = Session.findings c.enabledRules (.ofKernel c p kernel) :=
    hserves.found_inspectKernel hkernel owner
  have hctx : m ∈ (RuleContext.ofKernel c p kernel).members :=
    RuleContext.mem_members.mpr ⟨hmember, hm⟩
  cases accounts_of_mem_calls hkernel hdepth hctx hcall with
  | listed called mem => exact .inl ⟨_, called, mem⟩
  | exempt called free => exact .inr (.inr ⟨_, called, free⟩)
  | remarked about mem target =>
    obtain ⟨f, hf, hrule, htarget, -⟩ := RuleKind.finding_of_remark mem
    rw [hfound]
    exact .inr (.inl ⟨f, Session.mem_findings (henabled _) hf, hrule ▸ about, htarget.trans target⟩)

/-- A kernel that calls a helper and a method that does not exist: the second call is found, also in
a session that knows the scope from an earlier inspection. -/
theorem missing_callee_found :
    let p := Program.ofCallLists [[1, 7], [0]]
    let call := Expr.call default "" none [] (some ⟨7⟩)
    ∃ kernel, p.method? ⟨0⟩ = some kernel ∧ call ∈ kernel.calls ∧
      let s := (Session.inspectKernels p default [kernel] (.start default)).2
      ∃ f ∈ (s.inspectKernel p default kernel).1, f.rule.IsAboutCalls ∧
        f.target = .node call.node := by
  intro p call
  obtain ⟨kernel, hkernel, hcall⟩ : ∃ kernel, p.method? ⟨0⟩ = some kernel ∧ call ∈ kernel.calls :=
    ⟨_, rfl, List.mem_cons_of_mem _ (List.mem_cons_self ..)⟩
  have hlive := Program.method?_self hkernel
  have hmissing : p.callee? call = none := rfl
  refine ⟨kernel, hkernel, hcall, ?_⟩
  have haccounted := no_call_escapes default {} p default [kernel] kernel kernel call
    (fun k hk => by rw [List.mem_singleton.mp hk]; exact hlive) hlive (fun _ => rfl)
      (by decide) hlive
    (Program.kernel_mem_members ..) hcall
  simpa only [hmissing, reduceCtorEq, false_and, exists_false, false_or, or_false] using haccounted

end KernelLint
