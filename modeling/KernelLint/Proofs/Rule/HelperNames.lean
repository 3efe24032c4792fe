import KernelLint.Proofs.CallGraph.OpenCalls
import KernelLint.Proofs.Session

/-!
# Findings name their helper

A message about something inside a helper says which helper it is. Seven of the rules make their
remarks through `RuleContext.remark` or on the kernel itself, and so they do. The rule about calls
that cannot be followed words its remarks from the open calls alone: its messages end with the
reason why the call is open, and no reason looks like the name of a helper.
-/

namespace KernelLint

/-- What is said of a helper at the end of a message. -/
def Program.helperNote (p : Program) (m : Method) : String :=
  " (in helper '" ++ p.displayName m ++ "' inlined into kernel)"

/-! ## Remarks on members -/

/-- The remark is about the kernel, or about a member, which its message names when it is a
helper. -/
def RuleContext.Names (ctx : RuleContext) (r : Remark) : Prop :=
  r.method = ctx.kernel.id ∨
    ∃ m ∈ ctx.members, ∃ text, r.method = m.id ∧
      r.message = text ++ ctx.program.helperContext m ctx.kernel

namespace RuleContext

variable {ctx : RuleContext} {m : Method} {r : Remark} {n : Notice}

theorem names_remark (hm : m ∈ ctx.members) (node : NodeId) (span : Span) (message : String)
    (severity : Severity) :
    ctx.Names (ctx.remark m node span message severity) :=
  .inr ⟨m, hm, message, rfl, rfl⟩

theorem names_onStmts (hm : m ∈ ctx.members) {test : Stmt → Bool} {message : String}
    (hn : n ∈ Rule.onStmts ctx m test message) : ctx.Names n.remark := by
  obtain ⟨s, -, rfl⟩ := List.mem_map.mp hn
  exact names_remark hm ..

theorem names_throw (hn : n ∈ Rule.throw ctx) : ctx.Names n.remark := by
  obtain ⟨m, hm, hsaid⟩ := mem_onMembers.mp hn
  rw [List.mem_append, List.mem_append] at hsaid
  rcases hsaid with (hraise | htry) | hclause
  · exact names_onStmts hm hraise
  · exact names_onStmts hm htry
  · obtain ⟨t, -, rfl⟩ := List.mem_map.mp hclause
    exact names_remark hm ..

theorem names_systemCall (hn : n ∈ Rule.systemCall ctx) : ctx.Names n.remark := by
  obtain ⟨m, hm, hsaid⟩ := mem_onMembers.mp hn
  obtain ⟨⟨call, callee⟩, -, hcall⟩ := List.mem_flatMap.mp hsaid
  rcases List.mem_append.mp hcall with hnative | hrestricted
  · split at hnative
    · rw [List.mem_singleton.mp hnative]
      exact names_remark hm ..
    · simp at hnative
  · split at hrestricted
    · rw [List.mem_singleton.mp hrestricted]
      exact names_remark hm ..
    · simp at hrestricted

theorem names_nonVoidReturn (hn : n ∈ Rule.nonVoidReturn ctx) : ctx.Names n.remark := by
  unfold Rule.nonVoidReturn at hn
  split at hn
  · simp at hn
  · split at hn
    · simp at hn
    · rw [List.mem_singleton.mp hn]
      exact .inl rfl

theorem names_of_mem_remarks {rule : RuleKind} (hrecursion : rule ≠ .recursion)
    (hopen : rule ≠ .unresolvableHelper) (hr : r ∈ rule.remarks ctx) : ctx.Names r := by
  obtain ⟨n, hn, rfl⟩ := List.mem_map.mp hr
  cases rule with
  | recursion => exact absurd rfl hrecursion
  | unresolvableHelper => exact absurd rfl hopen
  | throw => exact names_throw hn
  | systemCall => exact names_systemCall hn
  | nonVoidReturn => exact names_nonVoidReturn hn
  | dataType | staticTaskGraph | assert | externalLibrary =>
    obtain ⟨m, hm, hsaid⟩ := mem_onMembers.mp hn
    obtain ⟨x, -, rfl⟩ := List.mem_map.mp hsaid
    exact names_remark hm ..

theorem Names.helperNote (h : ctx.Names r) (hne : r.method ≠ ctx.kernel.id) :
    ∃ m, ctx.program.method? r.method = some m ∧
      ∃ text, r.message = text ++ ctx.program.helperNote m := by
  rcases h with hkernel | ⟨m, hm, text, hmethod, hmessage⟩
  · exact absurd hkernel hne
  · rw [hmethod] at hne ⊢
    rw [Program.helperContext, if_neg hne] at hmessage
    exact ⟨m, (mem_members.mp hm).2, text, hmessage⟩

end RuleContext

/-! ## Remarks on open calls -/

theorem getLast?_append_text (s : String) {t : String} {last : Char}
    (h : t.toList.getLast? = some last) :
    (s ++ t).toList.getLast? = some last := by
  rw [String.toList_append, List.getLast?_append, h, Option.some_or]

namespace Program

variable {p : Program} {trusted : String} {kernel : Method} {call : Expr} {reason : String}

theorem getLast?_obstacle? (h : p.obstacle? kernel call = some reason) :
    ∃ last, reason.toList.getLast? = some last ∧ last ≠ ')' := by
  unfold obstacle? at h
  split at h
  · cases h
    exact ⟨'\'', getLast?_append_text _ (by decide), by decide⟩
  · split at h
    · cases h
    · split at h
      · cases h
        exact ⟨'s', getLast?_append_text _ (by decide), by decide⟩
      · split at h
        · cases h
          exact ⟨'e', getLast?_append_text _ (by decide), by decide⟩
        · cases h

theorem caller_of_mem_openCalls {depth : Nat} {o : OpenCall}
    (ho : o ∈ (p.scopeOf trusted depth kernel).openCalls) :
    (o.caller = kernel.id ∨ ∃ m, p.method? o.caller = some m) ∧
      ∃ call, p.obstacle? kernel call = some o.reason := by
  rw [openCalls_scopeOf] at ho
  obtain ⟨x, left, hmet, call, -, reason, hreason, hne, rfl⟩ := opens_tourOf ho
  obtain ⟨n, hchain, -⟩ := (sound_tourOf p trusted depth kernel).chained _ hmet
  refine ⟨?_, call, (obstacle?_eq_openReason? trusted hne).trans hreason⟩
  rcases hchain.end_cases with heq | ⟨hlive, -⟩
  · exact .inl (congrArg Method.id heq)
  · exact .inr ⟨x, hlive⟩

theorem unresolvableHelper_ne_named (hreason : p.obstacle? kernel call = some reason) (m : Method)
    (text : String) :
    Message.unresolvableHelper reason ≠ text ++ p.helperNote m := by
  obtain ⟨last, hlast, hne⟩ := getLast?_obstacle? hreason
  have hopen : (Message.unresolvableHelper reason).toList.getLast? = some last :=
    getLast?_append_text _ hlast
  have hnote : (text ++ p.helperNote m).toList.getLast? = some ')' :=
    getLast?_append_text _ (getLast?_append_text _ (by decide))
  intro heq
  rw [heq, hnote] at hopen
  exact hne (Option.some.inj hopen).symm

end Program

/-- **Findings name their helper, with one exception.** Whatever the configuration, a finding of a
rule other than the one about recursion that lies outside the kernel lies in a live method. Its
message ends with the name of that method unless it is about a call that cannot be followed, and
then it never does. -/
theorem finding_names_helper_iff (c : Config) (p : Program) (kernel : Method) (rule : RuleKind)
    (hrule : rule ≠ .recursion) (f : Finding) (hf : f ∈ rule.check (.ofKernel c p kernel))
    (hmethod : f.method ≠ kernel.id) :
    ∃ m, p.method? f.method = some m ∧
      ((∃ text, f.message = text ++
        (" (in helper '" ++ p.displayName m ++ "' inlined into kernel)")) ↔
        rule ≠ .unresolvableHelper) := by
  obtain ⟨hremark, -, -⟩ := RuleKind.remark_of_finding hf
  by_cases hopen : rule = .unresolvableHelper
  · subst hopen
    obtain ⟨o, ho, hsaid⟩ := RuleKind.mem_remarks_unresolvableHelper.mp hremark
    obtain ⟨hcaller, call, hobstacle⟩ := Program.caller_of_mem_openCalls ho
    have hmessage : f.message = Message.unresolvableHelper o.reason :=
      (congrArg Remark.message hsaid).symm
    have hin : f.method = o.caller := (congrArg Remark.method hsaid).symm
    rw [hin] at hmethod ⊢
    obtain ⟨m, hm⟩ := hcaller.resolve_left hmethod
    refine ⟨m, hm, ?_, fun hne => absurd rfl hne⟩
    rintro ⟨text, hnamed⟩
    exact absurd (hmessage.symm.trans hnamed) (Program.unresolvableHelper_ne_named hobstacle m text)
  · obtain ⟨m, hm, hnamed⟩ :=
      (RuleContext.names_of_mem_remarks hrule hopen hremark).helperNote hmethod
    exact ⟨m, hm, fun _ => hopen, fun _ => hnamed⟩

/-- A kernel whose helper asserts something and calls a method that does not exist. -/
def Program.astrayHelper : Program :=
  let p := (Program.empty.addFile ⟨"K.java"⟩ none [] .project).2
  let p := (p.addClass { name := "K", qualifiedName := "K", file := ⟨0⟩ }).2
  let p := (p.addMethod
    { name := "run", owner := some ⟨0⟩, file := ⟨0⟩, text := ""
      body := some (.eval default (.call default "help" none [] (some ⟨1⟩))) }).2
  let lost := Expr.call ⟨default, "missing()"⟩ "missing" none [] none
  (p.addMethod
    { name := "help", owner := some ⟨0⟩, file := ⟨0⟩, text := ""
      body := some (.block default [.assertion default lost none]) }).2

/-- There the assertion and the call are both found, and only the message about the assertion names
the helper. -/
theorem astray_helper_named :
    let p := Program.astrayHelper
    ∃ kernel, p.method? ⟨0⟩ = some kernel ∧
      ∃ f ∈ RuleKind.assert.check (.ofKernel default p kernel), ∃ m, p.method? f.method = some m ∧
        m.id ≠ kernel.id ∧
        ∃ text, f.message = text ++
          (" (in helper '" ++ p.displayName m ++ "' inlined into kernel)") := by
  intro p
  let kernel := (p.method? ⟨0⟩).get (by decide +kernel)
  let f : Finding :=
    ⟨⟨.node default, default, ⟨1⟩, Message.assertion ++ " (in helper 'K.help' inlined into kernel)",
    .error⟩, .assert, ⟨0⟩⟩
  have hfound : f ∈ RuleKind.assert.check (.ofKernel default p kernel) := by decide +kernel
  have houtside : f.method ≠ kernel.id := by decide +kernel
  obtain ⟨m, hm, hnamed⟩ := finding_names_helper_iff default p kernel .assert
    (by decide) f hfound houtside
  have hid : m.id = f.method := Program.id_of_method? hm
  exact ⟨kernel, by simp [kernel], f, hfound, m, hm, hid ▸ houtside, hnamed.mpr (by decide)⟩

/-- The message about the call does not end with the name of the helper that makes it. -/
theorem open_call_of_helper_unnamed :
    let p := Program.astrayHelper
    ∃ kernel, p.method? ⟨0⟩ = some kernel ∧
      ∃ f ∈ RuleKind.unresolvableHelper.check (.ofKernel default p kernel), f.method ≠ kernel.id ∧
        ∃ m, p.method? f.method = some m ∧ p.displayName m = "K.help" ∧
          f.message = "Helper method cannot be analyzed: Cannot resolve method 'missing()'" ∧
          ∀ text, f.message ≠ text ++ " (in helper 'K.help' inlined into kernel)" := by
  intro p
  let f : Finding := ⟨⟨.node default, default, ⟨1⟩,
    "Helper method cannot be analyzed: Cannot resolve method 'missing()'", .weakWarning⟩,
      .unresolvableHelper, ⟨0⟩⟩
  refine ⟨(p.method? ⟨0⟩).get (by decide +kernel), by simp, f, by decide +kernel, by decide +kernel,
    (p.method? ⟨1⟩).get (by decide +kernel), by simp [f], by decide +kernel, rfl, ?_⟩
  intro text heq
  have hlast : (text ++ " (in helper 'K.help' inlined into kernel)").toList.getLast? = some ')' :=
    getLast?_append_text _ (by decide +kernel)
  rw [← heq] at hlast
  exact absurd hlast (by decide +kernel)

end KernelLint
