import KernelLint.Proofs.CallGraph.Tour
import KernelLint.Rule.Check
import Mathlib.Logic.Relation

/-!
# The search for cycles is exact

A method reaches a cycle when some chain of resolved calls leads from it to a method that calls
itself again, directly or not. The search answers exactly this. What it remembers between questions
and across searches that were broken off is only ever a method that reaches no cycle, the path leads
to the method being searched, and the fuel lasts because a path has no method twice.
-/

namespace KernelLint

namespace Program

variable {p : Program} {m callee : Method}

/-- A chain of resolved calls leads from the method to one that calls itself, directly or not. -/
def ReachesCycle (p : Program) (m : Method) : Prop :=
  ∃ x, Relation.ReflTransGen p.Calls m x ∧ Relation.TransGen p.Calls x x

theorem mem_calleesOf : callee ∈ p.calleesOf m ↔ p.Calls m callee :=
  List.mem_filterMap

theorem Calls.live (h : p.Calls m callee) : p.method? callee.id = some callee := by
  obtain ⟨call, -, hcallee⟩ := h
  exact live_of_callee? hcallee

theorem length_methods_le (p : Program) : p.methods.length ≤ p.methodSlots.size := by
  rw [methods, ← Array.length_toList]
  exact List.length_filterMap_le _ _

/-- A method reaches a cycle exactly if one of its callees does: a cycle through the method itself
goes on through a callee. -/
theorem reachesCycle_iff_callee : p.ReachesCycle m ↔
    ∃ callee ∈ p.calleesOf m, p.ReachesCycle callee := by
  constructor
  · rintro ⟨x, hreach, hcycle⟩
    rcases hreach.cases_head with rfl | ⟨callee, hcalls, hreach⟩
    · obtain ⟨callee, hcalls, hback⟩ := Relation.TransGen.head'_iff.mp hcycle
      exact ⟨callee, mem_calleesOf.mpr hcalls, m, hback, hcycle⟩
    · exact ⟨callee, mem_calleesOf.mpr hcalls, x, hreach, hcycle⟩
  · rintro ⟨callee, hcallee, x, hreach, hcycle⟩
    exact ⟨x, hreach.head (mem_calleesOf.mp hcallee), hcycle⟩

end Program

namespace Cycle

/-- No live method among the cleared ones reaches a cycle. -/
def Cleared (p : Program) (cleared : List MethodId) : Prop :=
  ∀ m, p.method? m.id = some m → m.id ∈ cleared → ¬p.ReachesCycle m

/-- The path has no method twice, and from each of its methods calls lead to `m`. -/
structure LeadsTo (p : Program) (path : List MethodId) (m : Method) : Prop where
  nodup : path.Nodup
  leads : ∀ id ∈ path, ∃ x, p.method? id = some x ∧ Relation.TransGen p.Calls x m

/-- The answer says whether `claim` holds, and what it clears is clear. -/
structure Right (p : Program) (claim : Prop) (answer : Bool × List MethodId) : Prop where
  verdict : answer.1 = true ↔ claim
  cleared : Cleared p answer.2

variable {p : Program} {path cleared : List MethodId} {m callee : Method}

theorem cleared_nil (p : Program) : Cleared p [] := by
  intro m _ hmem
  simp at hmem

theorem Cleared.cons (h : Cleared p cleared) (hlive : p.method? m.id = some m)
    (hm : ¬p.ReachesCycle m) : Cleared p (m.id :: cleared) := by
  intro x hx hmem
  rcases List.mem_cons.mp hmem with hid | hold
  · rw [hid, hlive, Option.some.injEq] at hx
    exact hx ▸ hm
  · exact h x hx hold

theorem LeadsTo.nil (p : Program) (m : Method) : LeadsTo p [] m :=
  ⟨List.nodup_nil, by simp⟩

theorem LeadsTo.cons (h : LeadsTo p path m) (hlive : p.method? m.id = some m) (hnew : m.id ∉ path)
    (hcalls : p.Calls m callee) : LeadsTo p (m.id :: path) callee := by
  refine ⟨List.nodup_cons.mpr ⟨hnew, h.nodup⟩, fun id hid => ?_⟩
  rcases List.mem_cons.mp hid with rfl | hold
  · exact ⟨m, hlive, .single hcalls⟩
  · obtain ⟨x, hx, hlead⟩ := h.leads id hold
    exact ⟨x, hx, hlead.tail hcalls⟩

theorem LeadsTo.length_le (h : LeadsTo p path m) : path.length ≤ p.methods.length :=
  Program.length_le_length_methods h.nodup fun id hid =>
    (h.leads id hid).imp fun _ hx => hx.1

theorem LeadsTo.reachesCycle (h : LeadsTo p path m) (hlive : p.method? m.id = some m)
    (hmem : m.id ∈ path) : p.ReachesCycle m := by
  obtain ⟨x, hx, hlead⟩ := h.leads m.id hmem
  obtain rfl : m = x := Option.some.inj (hlive.symm.trans hx)
  exact ⟨m, .refl, hlead⟩

theorem right_searchAny {search : List MethodId → Method → Bool × List MethodId} {ms : List Method}
    (hsearch : ∀ m ∈ ms, ∀ cleared, Cleared p cleared →
      Right p (p.ReachesCycle m) (search cleared m))
    (hcleared : Cleared p cleared) :
    Right p (∃ m ∈ ms, p.ReachesCycle m) (searchAny search cleared ms) := by
  induction ms generalizing cleared with
  | nil => exact ⟨by simp [searchAny], hcleared⟩
  | cons m ms ih =>
    have hfirst := hsearch m (by simp) cleared hcleared
    rw [searchAny]
    split
    · rename_i heq
      rw [heq] at hfirst
      exact ⟨by simpa using .inl (hfirst.verdict.mp rfl), hfirst.cleared⟩
    · rename_i heq
      rw [heq] at hfirst
      have hno : ¬p.ReachesCycle m := fun hm => by simpa using hfirst.verdict.mpr hm
      have hrest := ih (fun x hx => hsearch x (by simp [hx])) hfirst.cleared
      exact ⟨by simpa [hno] using hrest.verdict, hrest.cleared⟩

theorem right_search {fuel : Nat} (hlive : p.method? m.id = some m) (hpath : LeadsTo p path m)
    (hcleared : Cleared p cleared) (hfuel : p.methods.length < fuel + path.length) :
    Right p (p.ReachesCycle m) (search p fuel path cleared m) := by
  induction fuel generalizing path cleared m with
  | zero =>
    have hlen := hpath.length_le
    omega
  | succ fuel ih =>
    rw [search]
    simp only [List.contains_eq_mem, decide_eq_true_eq]
    split
    · rename_i hback
      exact ⟨by simpa using hpath.reachesCycle hlive hback, hcleared⟩
    · rename_i hnew
      split
      · rename_i hknown
        exact ⟨by simpa using hcleared m hlive hknown, hcleared⟩
      · have hbelow : Right p (∃ callee ∈ p.calleesOf m, p.ReachesCycle callee)
            (searchAny (search p fuel (m.id :: path)) cleared (p.calleesOf m)) := by
          refine right_searchAny (fun callee hcallee cleared hcleared => ?_) hcleared
          have hcalls := Program.mem_calleesOf.mp hcallee
          refine ih hcalls.live (hpath.cons hlive hnew hcalls) hcleared ?_
          rw [List.length_cons]
          omega
        rw [← Program.reachesCycle_iff_callee] at hbelow
        split
        · rename_i heq
          rw [heq] at hbelow
          exact hbelow
        · rename_i heq
          rw [heq] at hbelow
          have hno : ¬p.ReachesCycle m := fun hm => by simpa using hbelow.verdict.mpr hm
          exact ⟨by simpa using hno, hbelow.cleared.cons hlive hno⟩

theorem right_reaches (hlive : p.method? m.id = some m) (hcleared : Cleared p cleared) :
    Right p (p.ReachesCycle m) (reaches p cleared m) := by
  refine right_search hlive (.nil p m) hcleared ?_
  have hslots := p.length_methods_le
  rw [List.length_nil]
  omega

/-- **Of a list of calls, the search keeps exactly those whose callee reaches a cycle.** -/
theorem mem_recursive {edges : List (Method × Method)}
    (hlive : ∀ e ∈ edges, p.method? e.2.id = some e.2) (hcleared : Cleared p cleared)
    {e : Method × Method} :
    e ∈ recursive p cleared edges ↔ e ∈ edges ∧ p.ReachesCycle e.2 := by
  induction edges generalizing cleared with
  | nil => simp [recursive]
  | cons edge edges ih =>
    obtain ⟨caller, callee⟩ := edge
    have hfirst := right_reaches (hlive (caller, callee) (by simp)) hcleared
    have hrest := fun cleared (h : Cleared p cleared) => ih (fun x hx => hlive x (by simp [hx])) h
    rw [recursive]
    split
    · rename_i heq
      rw [heq] at hfirst
      rw [List.mem_cons, List.mem_cons, hrest _ hfirst.cleared]
      constructor
      · rintro (rfl | ⟨hmem, hcycle⟩)
        · exact ⟨.inl rfl, hfirst.verdict.mp rfl⟩
        · exact ⟨.inr hmem, hcycle⟩
      · rintro ⟨rfl | hmem, hcycle⟩
        · exact .inl rfl
        · exact .inr ⟨hmem, hcycle⟩
    · rename_i heq
      rw [heq] at hfirst
      rw [List.mem_cons, hrest _ hfirst.cleared]
      constructor
      · rintro ⟨hmem, hcycle⟩
        exact ⟨.inr hmem, hcycle⟩
      · rintro ⟨rfl | hmem, hcycle⟩
        · exact absurd (hfirst.verdict.mpr hcycle) (by simp)
        · exact ⟨hmem, hcycle⟩

end Cycle

/-- **The rule remarks on exactly the callees of members from which a cycle is reached.** -/
theorem RuleKind.mem_remarks_recursion {ctx : RuleContext} {r : Remark} :
    r ∈ RuleKind.recursion.remarks ctx ↔
      ∃ caller ∈ ctx.members, ∃ callee, ctx.program.Calls caller callee ∧
      ctx.program.ReachesCycle callee ∧
      r = ⟨.method callee.id, callee.nameSpan, callee.id,
        Message.recursion ++ ctx.program.helperContext caller ctx.kernel, .error⟩ := by
  have hedges : ∀ e : Method × Method,
      e ∈ (ctx.members.flatMap fun m => (ctx.program.calleesOf m).map fun callee => (m, callee)) ↔
        e.1 ∈ ctx.members ∧ ctx.program.Calls e.1 e.2 := by
    rintro ⟨caller, callee⟩
    simp only [List.mem_flatMap, List.mem_map, Prod.mk.injEq, Program.mem_calleesOf]
    constructor
    · rintro ⟨m, hm, other, hcalls, rfl, rfl⟩
      exact ⟨hm, hcalls⟩
    · rintro ⟨hm, hcalls⟩
      exact ⟨caller, hm, callee, hcalls, rfl, rfl⟩
  have hlive := fun e he => ((hedges e).mp he).2.live
  rw [RuleKind.remarks, RuleKind.notices, Rule.recursion, List.map_map, List.mem_map]
  constructor
  · rintro ⟨⟨caller, callee⟩, hmem, rfl⟩
    obtain ⟨hedge, hcycle⟩ := (Cycle.mem_recursive hlive (Cycle.cleared_nil _)).mp hmem
    obtain ⟨hcaller, hcalls⟩ := (hedges _).mp hedge
    exact ⟨caller, hcaller, callee, hcalls, hcycle, rfl⟩
  · rintro ⟨caller, hcaller, callee, hcalls, hcycle, rfl⟩
    refine ⟨(caller, callee), ?_, rfl⟩
    exact (Cycle.mem_recursive hlive (Cycle.cleared_nil _)).mpr ⟨(hedges _).mpr ⟨hcaller, hcalls⟩,
      hcycle⟩

end KernelLint
