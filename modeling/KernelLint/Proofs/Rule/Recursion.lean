import KernelLint.Proofs.CallGraph.Cycle
import KernelLint.Proofs.CallGraph.Reach
import KernelLint.Proofs.Rule.Findings

/-!
# Recursion at every depth

The search for cycles goes through the whole program; the depth of the walk only decides whose calls
it is started from. The kernel is among them at every depth, and a cycle that can be reached from a
member can be reached from the kernel, through the calls that made the member one. So a walk that
stops short of a cycle does not hide it.
-/

namespace KernelLint

namespace Program

variable {p : Program} {trusted : String} {depth : Nat} {kernel m : Method}

theorem ReachesCycle.of_reaches (hcycle : p.ReachesCycle m)
    (hreach : Relation.ReflTransGen p.Calls kernel m) : p.ReachesCycle kernel := by
  obtain ⟨x, hx, hback⟩ := hcycle
  exact ⟨x, hreach.trans hx, hback⟩

theorem reaches_of_mem_members (hkernel : p.method? kernel.id = some kernel)
    (hm : p.method? m.id = some m) (hid : m.id ∈ (p.scopeOf trusted depth kernel).members) :
    Relation.ReflTransGen p.Calls kernel m := by
  rw [members_scopeOf] at hid
  have hsound := sound_tourOf p trusted depth kernel
  obtain ⟨left, hmet⟩ := hsound.mem_met_of_mem_ids hkernel hm hid
  obtain ⟨n, hchain, -⟩ := hsound.chained _ hmet
  have hcalls : p.Follows trusted ≤ p.Calls := fun _ _ hfollows => hfollows.1
  exact Relation.ReflTransGen.mono hcalls _ _ hchain.reflTransGen

end Program

theorem RuleKind.target_of_recursion {ctx : RuleContext} {target : Target} :
    (∃ f ∈ RuleKind.recursion.check ctx, f.target = target) ↔
      ∃ caller ∈ ctx.members, ∃ callee, ctx.program.Calls caller callee ∧
        ctx.program.ReachesCycle callee ∧ target = .method callee.id := by
  constructor
  · rintro ⟨f, hf, rfl⟩
    obtain ⟨caller, hcaller, callee, hcalls, hcycle, hremark⟩ :=
      RuleKind.mem_remarks_recursion.mp (RuleKind.remark_of_finding hf).1
    exact ⟨caller, hcaller, callee, hcalls, hcycle, congrArg Remark.target hremark⟩
  · rintro ⟨caller, hcaller, callee, hcalls, hcycle, rfl⟩
    have hremark :=
      RuleKind.mem_remarks_recursion.mpr ⟨caller, hcaller, callee, hcalls, hcycle, rfl⟩
    obtain ⟨f, hf, -, htarget, -⟩ := RuleKind.finding_of_remark hremark
    exact ⟨f, hf, htarget⟩

/-- **Recursion is found exactly, at every depth.** The targets of the findings are exactly the
callees of members of the scope from which a cycle of calls can be reached, wherever in the program
it lies; and there is a finding exactly if the kernel can reach a cycle. -/
theorem recursion_exact_at_every_depth (c : Config) (p : Program) (kernel : Method)
    (hkernel : p.method? kernel.id = some kernel) :
    let scope := p.scopeOf c.trustedNamespace c.maxInlineDepth kernel
    let found := RuleKind.recursion.check (.ofKernel c p kernel)
    (∀ target, (∃ f ∈ found, f.target = target) ↔
      ∃ caller callee, p.method? caller.id = some caller ∧ caller.id ∈ scope.members ∧
        p.Calls caller callee ∧
        (∃ m, Relation.ReflTransGen p.Calls callee m ∧ Relation.TransGen p.Calls m m) ∧
        target = .method callee.id) ∧
    ((∃ f, f ∈ found) ↔
      ∃ m, Relation.ReflTransGen p.Calls kernel m ∧ Relation.TransGen p.Calls m m) := by
  intro scope found
  have htargets : ∀ target, (∃ f ∈ found, f.target = target) ↔
      ∃ caller callee, p.method? caller.id = some caller ∧ caller.id ∈ scope.members ∧
        p.Calls caller callee ∧ p.ReachesCycle callee ∧ target = .method callee.id := by
    intro target
    rw [RuleKind.target_of_recursion]
    constructor
    · rintro ⟨caller, hcaller, callee, hcalls, hcycle, htarget⟩
      obtain ⟨hid, hlive⟩ := RuleContext.mem_members.mp hcaller
      exact ⟨caller, callee, hlive, hid, hcalls, hcycle, htarget⟩
    · rintro ⟨caller, callee, hlive, hid, hcalls, hcycle, htarget⟩
      exact ⟨caller, RuleContext.mem_members.mpr ⟨hid, hlive⟩, callee, hcalls, hcycle, htarget⟩
  refine ⟨htargets, ?_, ?_⟩
  · rintro ⟨f, hf⟩
    obtain ⟨caller, callee, hlive, hid, hcalls, hcycle, -⟩ := (htargets f.target).mp ⟨f, hf, rfl⟩
    have hcaller := Program.reaches_of_mem_members hkernel hlive hid
    exact hcycle.of_reaches (hcaller.tail hcalls)
  · intro hcycle
    -- a cycle below the kernel is below one of its callees, and the kernel is a member at every
    -- depth
    obtain ⟨callee, hcallee, hbelow⟩ := Program.reachesCycle_iff_callee.mp hcycle
    obtain ⟨f, hf, -⟩ := (htargets (.method callee.id)).mpr
      ⟨kernel, callee, hkernel, Program.kernel_mem_members .., Program.mem_calleesOf.mp hcallee,
        hbelow, rfl⟩
    exact ⟨f, hf⟩

/-- A walk of one level stops before the cycle of the third and the fourth method, and the call that
leads there is found all the same. -/
theorem recursion_found_below_cutOff :
    let c : Config := { (default : Config) with maxInlineDepth := 1 }
    let p := Program.ofCallLists [[1, 4], [2], [3], [2], []]
    ∃ kernel, p.method? ⟨0⟩ = some kernel ∧
      (p.scopeOf c.trustedNamespace c.maxInlineDepth kernel).members = [⟨0⟩, ⟨1⟩, ⟨4⟩] ∧
      ∃ f, f ∈ RuleKind.recursion.check (.ofKernel c p kernel) := by
  intro c p
  obtain ⟨kernel, second, third, fourth, hkernel, hfirst, hnext, hforth, hback⟩ :
      ∃ kernel second third fourth, p.method? ⟨0⟩ = some kernel ∧ p.Calls kernel second ∧
        p.Calls second third ∧ p.Calls third fourth ∧ p.Calls fourth third :=
    ⟨_, _, _, _, rfl, ⟨_, List.mem_cons_self .., rfl⟩, ⟨_, List.mem_cons_self .., rfl⟩,
      ⟨_, List.mem_cons_self .., rfl⟩, ⟨_, List.mem_cons_self .., rfl⟩⟩
  have hmembers : (p.method? ⟨0⟩).map
      (fun kernel => (p.scopeOf c.trustedNamespace c.maxInlineDepth kernel).members) =
        some [⟨0⟩, ⟨1⟩, ⟨4⟩] := by decide
  rw [hkernel, Option.map_some, Option.some.injEq] at hmembers
  have hexact := recursion_exact_at_every_depth c p kernel (Program.method?_self hkernel)
  have hreach : Relation.ReflTransGen p.Calls kernel third := .tail (.single hfirst) hnext
  have hcycle : Relation.TransGen p.Calls third third := .tail (.single hforth) hback
  exact ⟨kernel, hkernel, hmembers, hexact.2.mpr ⟨third, hreach, hcycle⟩⟩

end KernelLint
