import KernelLint.Proofs.CallGraph.Cycle
import KernelLint.Proofs.CallGraph.Reach
import KernelLint.Proofs.Rule.Findings

/-!
# Two depths

A deeper walk need not list all that a shallower one lists. A helper that the deeper walk meets for
the first time at its last level is listed without a look at its calls, and a shorter way to it that
comes later is not taken any more; the shallower walk did not get that far on the first way and
takes the second. This is the only way to lose a member (`lost_below_cutOff`). A finding is lost
only with what it rests on (`RuleKind.SeenAgain`): a member, the callers of a recursive method, or
the look at the calls of a member.
-/

namespace KernelLint

namespace Program

variable {p : Program} {trusted : String} {depth depth' : Nat} {kernel m callee : Method}

/-! ## How a member is lost -/

/-- The kernel is never lost, so a lost member has a caller. -/
theorem caller_of_lost {left : Nat} (hm : (m, left) ∈ (p.tourOf trusted depth kernel).met)
    (hlost : m.id ∉ (p.scopeOf trusted depth' kernel).members) :
    ∃ x, (x, left + 1) ∈ (p.tourOf trusted depth kernel).met ∧ p.Follows trusted x m := by
  rcases caller_tourOf hm with heq | hcaller
  · obtain rfl : m = kernel := congrArg Prod.fst heq
    exact absurd (kernel_mem_members p trusted depth' m) hlost
  · exact hcaller

/-- **A member is lost only below a cut-off.** On the way to it there is a method whose calls the
one walk looked at and the other did not, and the first lost method is called there. -/
theorem lost_below_cutOff (hkernel : p.method? kernel.id = some kernel) {left : Nat}
    (hm : (m, left) ∈ (p.tourOf trusted depth kernel).met)
    (hlost : m.id ∉ (p.scopeOf trusted depth' kernel).members) :
    ∃ x y, p.Walked trusted depth kernel x ∧ p.CutOff trusted depth' kernel x ∧
      p.Follows trusted x y ∧
      y.id ∉ (p.scopeOf trusted depth' kernel).members ∧
      Relation.ReflTransGen (p.Follows trusted) y m := by
  have hsound := sound_tourOf p trusted depth kernel
  obtain ⟨n, -, hn⟩ := hsound.chained _ hm
  -- the induction goes up the calls by which the members were met, to the kernel
  induction n generalizing m left with
  | zero =>
    obtain ⟨x, hx, -⟩ := caller_of_lost hm hlost
    obtain ⟨k, -, hk⟩ := hsound.chained _ hx
    simp only at hn hk
    omega
  | succ n ih =>
    obtain ⟨x, hx, hfollows⟩ := caller_of_lost hm hlost
    by_cases hkept : x.id ∈ (p.scopeOf trusted depth' kernel).members
    · rcases walked_or_cutOff hkernel (live_of_met hkernel hx) hkept with hwalked | hcut
      · exact absurd (hwalked.lists hfollows) hlost
      · exact ⟨x, m, ⟨left, hx⟩, hcut, hfollows, hlost, .refl⟩
    · obtain ⟨y, z, hy, hcut, hyz, hz, hreach⟩ := ih hx hkept (by simp only at hn ⊢; omega)
      exact ⟨y, z, hy, hcut, hyz, hz, hreach.tail hfollows⟩

theorem members_subset_iff (hkernel : p.method? kernel.id = some kernel) :
    (p.scopeOf trusted depth kernel).members ⊆ (p.scopeOf trusted depth' kernel).members ↔
      ∀ x y, p.Walked trusted depth kernel x → p.CutOff trusted depth' kernel x →
        p.Follows trusted x y →
        y.id ∈ (p.scopeOf trusted depth' kernel).members := by
  constructor
  · intro hsub x y hx _ hfollows
    exact hsub (hx.lists hfollows)
  · intro hcuts id hid
    rw [members_scopeOf] at hid
    obtain ⟨⟨m, left⟩, hm, rfl⟩ := Tour.mem_ids.mp hid
    by_contra hlost
    obtain ⟨x, y, hx, hcut, hfollows, hy, -⟩ := lost_below_cutOff hkernel hm hlost
    exact hy (hcuts x y hx hcut hfollows)

theorem openCall_kept (hkernel : p.method? kernel.id = some kernel) {o : OpenCall}
    (ho : o ∈ (p.scopeOf trusted depth kernel).openCalls)
    (hwalked : ∃ x, x.id = o.caller ∧ p.Walked trusted depth' kernel x) :
    o ∈ (p.scopeOf trusted depth' kernel).openCalls := by
  rw [openCalls_scopeOf] at ho ⊢
  obtain ⟨x, left, hx, call, hcall, reason, hreason, hother, rfl⟩ := opens_tourOf ho
  obtain ⟨x', hid, left', hx'⟩ := hwalked
  have hsame : p.method? x.id = some x' := by
    rw [show x.id = x'.id from hid.symm]
    exact live_of_met hkernel hx'
  obtain rfl : x = x' := Option.some.inj ((live_of_met hkernel hx).symm.trans hsame)
  refine (covered_tourOf hx' call hcall).noted reason hreason fun callee hcallee hlisted => ?_
  have hnot : p.inlining trusted callee ≠ .followed := by
    intro hfollowed
    rw [openReason?_of_followed hcallee hfollowed] at hreason
    cases hreason
  rw [← members_scopeOf] at hlisted
  exact hother callee hcallee
    (id_eq_kernel_of_not_followed (live_of_callee? hcallee) hkernel hnot hlisted)

end Program

/-! ## Findings at two depths -/

/-- The configurations may follow helpers to different depths, but the rules judge alike under
both. -/
structure Config.JudgesAs (c c' : Config) : Prop where
  trustedNamespace : c.trustedNamespace = c'.trustedNamespace
  vectorTypes : c.vectorTypes = c'.vectorTypes
  taskGraphType : c.taskGraphType = c'.taskGraphType
  taskMethod : c.taskMethod = c'.taskMethod

theorem Config.judgesAs_ofPreset (a b : Preset) : (ofPreset a).JudgesAs (ofPreset b) :=
  ⟨rfl, rfl, rfl, rfl⟩

theorem RuleContext.onMembers_again {p : Program} {c c' : Config} {kernel : Method} {s s' : Scope}
    {say : Method → List Notice} {r : Remark} (hsay : ∀ m, ∀ n ∈ say m, n.remark.method = m.id)
    (hr : r ∈ ((⟨p, c, kernel, s⟩ : RuleContext).onMembers say).map (·.remark)) :
    (r.method ∈ s.members ∨ r.method = kernel.id) ∧ (r.method ∈ s'.members →
      r ∈ ((⟨p, c', kernel, s'⟩ : RuleContext).onMembers say).map (·.remark)) := by
  obtain ⟨n, hn, rfl⟩ := List.mem_map.mp hr
  obtain ⟨m, hm, hmn⟩ := mem_onMembers.mp hn
  obtain ⟨hid, hlive⟩ := mem_members.mp hm
  have hmethod := hsay m n hmn
  refine ⟨.inl (hmethod ▸ hid), fun hagain => List.mem_map_of_mem ?_⟩
  exact mem_onMembers.mpr ⟨m, mem_members.mpr ⟨hmethod ▸ hagain, hlive⟩, hmn⟩

theorem Rule.method_of_mem_onStmts {ctx : RuleContext} {m : Method} {n : Notice}
    {test : Stmt → Bool} {message : String} (hn : n ∈ onStmts ctx m test message) :
    n.remark.method = m.id := by
  obtain ⟨s, -, rfl⟩ := List.mem_map.mp hn
  rfl

namespace RuleKind

/-- What must be seen again for a finding to be made again: the method it is in; for a cycle, the
methods that call into it; for an open call, the calls of the method it is in. -/
def SeenAgain (ctx ctx' : RuleContext) (f : Finding) : RuleKind → Prop
  | .recursion => ∀ caller ∈ ctx.members,
      (∃ callee, ctx.program.Calls caller callee ∧ callee.id = f.method) →
      caller.id ∈ ctx'.scope.members
  | .unresolvableHelper => ∃ x, x.id = f.method ∧
      ctx'.program.Walked ctx'.config.trustedNamespace ctx'.config.maxInlineDepth ctx'.kernel x
  | _ => f.method ∈ ctx'.scope.members

variable {p : Program} {kernel : Method} {c c' : Config} {s : Scope} {rule : RuleKind} {r : Remark}

theorem remark_again (s' : Scope) (hjudge : c.JudgesAs c') (hcycle : rule ≠ .recursion)
    (hopen : rule ≠ .unresolvableHelper) (hr : r ∈ rule.remarks ⟨p, c, kernel, s⟩) :
    (r.method ∈ s.members ∨ r.method = kernel.id) ∧
      (r.method ∈ s'.members → r ∈ rule.remarks ⟨p, c', kernel, s'⟩) := by
  obtain ⟨htrusted, hvector, hgraph, htask⟩ := hjudge
  cases c
  cases c'
  simp only at htrusted hvector hgraph htask
  subst htrusted hvector hgraph htask
  cases rule with
  | recursion => exact absurd rfl hcycle
  | unresolvableHelper => exact absurd rfl hopen
  | nonVoidReturn =>
    refine ⟨.inr ?_, fun _ => hr⟩
    obtain ⟨n, hn, rfl⟩ := List.mem_map.mp hr
    simp only [notices, Rule.nonVoidReturn] at hn
    split at hn
    · simp at hn
    · split at hn
      · simp at hn
      · rw [List.mem_singleton.mp hn]
        rfl
  | dataType =>
    refine RuleContext.onMembers_again (fun m n hn => ?_) hr
    obtain ⟨t, -, rfl⟩ := List.mem_map.mp hn
    rfl
  | throw =>
    refine RuleContext.onMembers_again (fun m n hn => ?_) hr
    rcases List.mem_append.mp hn with hn | hn
    · rcases List.mem_append.mp hn with hn | hn
      · exact Rule.method_of_mem_onStmts hn
      · exact Rule.method_of_mem_onStmts hn
    · obtain ⟨t, -, rfl⟩ := List.mem_map.mp hn
      rfl
  | systemCall =>
    refine RuleContext.onMembers_again (fun m n hn => ?_) hr
    obtain ⟨⟨call, callee⟩, -, hn⟩ := List.mem_flatMap.mp hn
    rcases List.mem_append.mp hn with hn | hn
    · split at hn
      · rw [List.mem_singleton.mp hn]
        rfl
      · simp at hn
    · split at hn
      · rw [List.mem_singleton.mp hn]
        rfl
      · simp at hn
  | staticTaskGraph =>
    refine RuleContext.onMembers_again (fun m n hn => ?_) hr
    obtain ⟨e, -, rfl⟩ := List.mem_map.mp hn
    rfl
  | assert =>
    exact RuleContext.onMembers_again (fun m n hn => Rule.method_of_mem_onStmts hn) hr
  | externalLibrary =>
    refine RuleContext.onMembers_again (fun m n hn => ?_) hr
    obtain ⟨call, -, rfl⟩ := List.mem_map.mp hn
    rfl

/-- A finding is made again under a configuration that judges alike when what it rests on is seen
again. -/
theorem finding_again (hkernel : p.method? kernel.id = some kernel) (hjudge : c.JudgesAs c')
    {f : Finding} (hf : f ∈ rule.check (.ofKernel c p kernel))
    (hseen : rule.SeenAgain (.ofKernel c p kernel) (.ofKernel c' p kernel) f) :
    ∃ f' ∈ rule.check (.ofKernel c' p kernel), f'.target = f.target ∧ f'.message = f.message := by
  have hr := (remark_of_finding hf).1
  have hagain : f.toRemark ∈ rule.remarks (.ofKernel c' p kernel) := by
    by_cases hcycle : rule = .recursion
    · subst hcycle
      obtain ⟨caller, hcaller, callee, hcalls, hreaches, heq⟩ := mem_remarks_recursion.mp hr
      have hmember := hseen caller hcaller ⟨callee, hcalls, (congrArg Remark.method heq).symm⟩
      have hlive := (RuleContext.mem_members.mp hcaller).2
      exact mem_remarks_recursion.mpr
        ⟨caller, RuleContext.mem_members.mpr ⟨hmember, hlive⟩, callee, hcalls, hreaches, heq⟩
    · by_cases hopen : rule = .unresolvableHelper
      · subst hopen
        obtain ⟨o, ho, hof⟩ := mem_remarks_unresolvableHelper.mp hr
        have hwalked : ∃ x, x.id = o.caller ∧
            p.Walked c.trustedNamespace c'.maxInlineDepth kernel x := by
          rw [hjudge.trustedNamespace, show o.caller = f.method from congrArg Remark.method hof]
          exact hseen
        have hkept := Program.openCall_kept hkernel ho hwalked
        rw [hjudge.trustedNamespace] at hkept
        exact mem_remarks_unresolvableHelper.mpr ⟨o, hkept, hof⟩
      · refine (remark_again _ hjudge hcycle hopen hr).2 ?_
        cases rule with
        | recursion => exact absurd rfl hcycle
        | unresolvableHelper => exact absurd rfl hopen
        | _ => exact hseen
  obtain ⟨f', hf', -, hsame⟩ := finding_of_remark hagain
  exact ⟨f', hf', hsame⟩

theorem seenAgain_of_members_subset (hjudge : c.JudgesAs c') (hopen : rule ≠ .unresolvableHelper)
    {f : Finding} (hf : f ∈ rule.check (.ofKernel c p kernel))
    (hsub : (RuleContext.ofKernel c p kernel).scope.members ⊆
      (RuleContext.ofKernel c' p kernel).scope.members) :
    rule.SeenAgain (.ofKernel c p kernel) (.ofKernel c' p kernel) f := by
  by_cases hcycle : rule = .recursion
  · subst hcycle
    intro caller hcaller _
    exact hsub (RuleContext.mem_members.mp hcaller).1
  · have hmember : f.method ∈ (RuleContext.ofKernel c p kernel).scope.members := by
      have hr := (remark_of_finding hf).1
      rcases (remark_again (RuleContext.ofKernel c' p kernel).scope hjudge hcycle hopen
        hr).1 with hmember | heq
      · exact hmember
      · rw [heq]
        exact Program.kernel_mem_members ..
    cases rule with
    | recursion => exact absurd rfl hcycle
    | unresolvableHelper => exact absurd rfl hopen
    | _ => exact hsub hmember

end RuleKind

/-- **What another depth can lose.** A method listed under one configuration and not under another
that judges alike lies below a method whose calls were looked at under the first and cut off under
the second. So nothing is lost exactly if such a method calls nothing that is lost, and nothing is
lost when the second depth is at least the number of live methods. A finding in a method that is
still listed is kept, with its target and message; for a cycle the callers count, and for an open
call the method must not be cut off. -/
theorem depth_loses_only_below_cutOff (p : Program) (c c' : Config) (kernel : Method)
    (hkernel : p.method? kernel.id = some kernel) (hjudge : c.JudgesAs c') :
    let ctx := RuleContext.ofKernel c p kernel
    let ctx' := RuleContext.ofKernel c' p kernel
    let walked := p.Walked c.trustedNamespace c.maxInlineDepth kernel
    let cutOff' := p.CutOff c.trustedNamespace c'.maxInlineDepth kernel
    (∀ m, p.method? m.id = some m → m.id ∈ ctx.scope.members → m.id ∉ ctx'.scope.members →
      ∃ x y, walked x ∧ cutOff' x ∧ p.Follows c.trustedNamespace x y ∧ y.id ∉ ctx'.scope.members ∧
        Relation.ReflTransGen (p.Follows c.trustedNamespace) y m) ∧
    (ctx.scope.members ⊆ ctx'.scope.members ↔
      ∀ x y, walked x → cutOff' x → p.Follows c.trustedNamespace x y → y.id ∈ ctx'.scope.members) ∧
    (p.methods.length ≤ c'.maxInlineDepth → ctx.scope.members ⊆ ctx'.scope.members) ∧
    (∀ rule : RuleKind, ∀ f ∈ rule.check ctx,
      (rule.SeenAgain ctx ctx' f ∨ rule ≠ .unresolvableHelper ∧
        ctx.scope.members ⊆ ctx'.scope.members) →
      ∃ f' ∈ rule.check ctx', f'.target = f.target ∧ f'.message = f.message) := by
  intro ctx ctx' walked cutOff'
  have htrusted : ctx'.scope = p.scopeOf c.trustedNamespace c'.maxInlineDepth kernel := by
    rw [hjudge.trustedNamespace]
    rfl
  have hiff : ctx.scope.members ⊆ ctx'.scope.members ↔
      ∀ x y, walked x → cutOff' x → p.Follows c.trustedNamespace x y →
        y.id ∈ ctx'.scope.members := by
    rw [htrusted]
    exact Program.members_subset_iff hkernel
  refine ⟨?_, hiff, ?_, ?_⟩
  · intro m hm hid hlost
    have hsound := Program.sound_tourOf p c.trustedNamespace c.maxInlineDepth kernel
    obtain ⟨left, hmet⟩ := hsound.mem_met_of_mem_ids hkernel hm (by rwa [← Program.members_scopeOf])
    rw [htrusted] at hlost ⊢
    exact Program.lost_below_cutOff hkernel hmet hlost
  · intro hdepth
    exact hiff.mpr fun x y _ hcut => absurd hcut (Program.not_cutOff hkernel hdepth)
  · rintro rule f hf (hseen | ⟨hopen, hsub⟩)
    · exact RuleKind.finding_again hkernel hjudge hf hseen
    · exact RuleKind.finding_again hkernel hjudge hf
        (RuleKind.seenAgain_of_members_subset hjudge hopen hf hsub)

/-- Two ways to the eleventh method, the long one first. -/
def Program.twoWays : Program :=
  ofCallLists [[1, 10], [2], [3], [4], [5], [6], [7], [8], [9], [10], [11], []]

/-- Ten levels end at the eleventh method on the long way, four take the short one and go on. -/
theorem balanced_loses_helper_of_fast :
    let p := Program.twoWays
    let scope := fun preset kernel => (RuleContext.ofKernel (.ofPreset preset) p kernel).scope
    Preset.fast.depth ≤ Preset.balanced.depth ∧ ∃ kernel, p.method? ⟨0⟩ = some kernel ∧
      ⟨11⟩ ∈ (scope .fast kernel).members ∧ ⟨11⟩ ∉ (scope .balanced kernel).members := by
  intro p scope
  refine ⟨by decide, _, rfl, ?_⟩
  decide

/-- What goes wrong there, and that the depth of the thorough preset mends it. -/
theorem helper_lost_at_cutOff_and_kept_below :
    let p := Program.twoWays
    let scope := fun preset kernel => (RuleContext.ofKernel (.ofPreset preset) p kernel).scope
    ∃ kernel, p.method? ⟨0⟩ = some kernel ∧
      (∃ x y, p.Walked Config.defaultTrustedNamespace 4 kernel x ∧
        p.CutOff Config.defaultTrustedNamespace 10 kernel x ∧
        p.Follows Config.defaultTrustedNamespace x y ∧ y.id ∉ (scope .balanced kernel).members) ∧
      (scope .fast kernel).members ⊆ (scope .thorough kernel).members := by
  intro p scope
  obtain ⟨kernel, hkernel⟩ : ∃ kernel, p.method? ⟨0⟩ = some kernel := ⟨_, rfl⟩
  obtain ⟨helper, hhelper⟩ : ∃ helper, p.method? ⟨11⟩ = some helper := ⟨_, rfl⟩
  have hlost : (p.method? ⟨0⟩).all fun kernel =>
      (scope .fast kernel).contains ⟨11⟩ && !(scope .balanced kernel).contains ⟨11⟩ := by decide
  simp only [hkernel, Option.all_some, Scope.contains, List.contains_eq_mem, Bool.and_eq_true,
    decide_eq_true_eq, Bool.not_eq_true', decide_eq_false_iff_not] at hlost
  refine ⟨kernel, hkernel, ?_, ?_⟩
  · obtain ⟨x, y, hx, hcut, hfollows, hy, -⟩ :=
      (depth_loses_only_below_cutOff p (.ofPreset .fast) (.ofPreset .balanced) kernel
        (Program.method?_self hkernel) (Config.judgesAs_ofPreset _ _)).1 helper
        (Program.method?_self hhelper) (Program.id_of_method? hhelper ▸ hlost.1)
        (Program.id_of_method? hhelper ▸ hlost.2)
    exact ⟨x, y, hx, hcut, hfollows, hy⟩
  · exact (depth_loses_only_below_cutOff p (.ofPreset .fast) (.ofPreset .thorough) kernel
      (Program.method?_self hkernel) (Config.judgesAs_ofPreset _ _)).2.2.1 (by decide)

end KernelLint
