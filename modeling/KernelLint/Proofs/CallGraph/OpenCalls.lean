import KernelLint.Proofs.CallGraph.Reach
import KernelLint.Proofs.Program.Lookup

/-!
# The open calls of a scope

The open calls against the bodies of the members. Every member is toured once, and each of its calls
is decided when the tour comes to it: by then the kernel and all callees on the way are members, so
that a callee that is skipped for being a member is the kernel or one that is followed. What the
tour notes about a call is therefore settled by the call alone (`obstacle?`), and the open calls of
a scope that is deep enough are the obstacles of its members, each as often as it occurs.
-/

namespace KernelLint

namespace Program

/-- What keeps a call below a kernel from being followed: it denotes no live method, or one of the
project other than the kernel that has no body or is native. -/
def obstacle? (p : Program) (kernel : Method) (call : Expr) : Option String :=
  match p.callee? call with
  | none => some ("Cannot resolve method '" ++ call.text ++ "'")
  | some callee =>
    if callee.id = kernel.id || !p.isProjectMethod callee then none
    else if callee.body.isNone then
      some ("Method '" ++ callee.name ++ "' has no source body available for analysis")
    else if callee.isNative then some ("Method '" ++ callee.name ++ "' is native")
    else none

/-- The open calls among some calls of a method, one for each occurrence. -/
def openAmong (p : Program) (kernel m : Method) (calls : List Expr) : List OpenCall :=
  calls.filterMap fun call => (p.obstacle? kernel call).map (OpenCall.of m call)

variable {p : Program} {trusted : String} {kernel m callee : Method} {call : Expr}

theorem inliningByName_ne_blocked (p : Program) (trusted : String) (m : Method) (reason : String) :
    p.inliningByName trusted m ≠ .blocked reason := by
  have horigin : (if p.isProjectMethod m then Inlining.followed else .foreign) ≠
      .blocked reason := by
    split <;> simp
  unfold inliningByName
  dsimp only
  split
  · exact horigin
  · split
    · simp
    · split
      · simp
      · exact horigin

theorem obstacle?_kernel (hcallee : p.callee? call = some callee) (hid : callee.id = kernel.id) :
    p.obstacle? kernel call = none := by
  simp [obstacle?, hcallee, hid]

theorem obstacle?_eq_openReason? (trusted : String)
    (hne : ∀ callee, p.callee? call = some callee → callee.id ≠ kernel.id) :
    p.obstacle? kernel call = p.openReason? trusted call := by
  unfold obstacle? openReason?
  cases hcallee : p.callee? call with
  | none => rfl
  | some callee =>
    have hid := hne callee hcallee
    dsimp only
    cases hproject : p.isProjectMethod callee with
    | false =>
      simp only [hid, decide_false, Bool.not_false, Bool.or_true, if_true,
        Bool.false_eq_true, if_false]
      split <;> rfl
    | true =>
      simp only [hid, decide_false, Bool.not_true, Bool.or_false, Bool.false_eq_true,
        if_false, inlining]
      by_cases hbody : callee.body.isNone = true
      · simp [hbody]
      · by_cases hnative : callee.isNative = true
        · simp [hbody, hnative]
        · simp only [hbody, hnative, Bool.false_eq_true, if_false]
          cases hname : p.inliningByName trusted callee with
          | blocked reason => exact absurd hname (p.inliningByName_ne_blocked trusted callee reason)
          | _ => rfl

theorem obstacle?_followed (hcallee : p.callee? call = some callee)
    (hfollowed : p.inlining trusted callee = .followed) : p.obstacle? kernel call = none := by
  by_cases hid : callee.id = kernel.id
  · exact obstacle?_kernel hcallee hid
  · rw [obstacle?_eq_openReason? trusted fun other hother => ?_]
    · exact openReason?_of_followed hcallee hfollowed
    · obtain rfl : callee = other := Option.some.inj (hcallee.symm.trans hother)
      exact hid

theorem openAmong_of_none {calls : List Expr} (hnone : p.obstacle? kernel call = none) :
    p.openAmong kernel m (call :: calls) = p.openAmong kernel m calls := by
  simp [openAmong, hnone]

theorem openAmong_of_some {calls : List Expr} {reason : String}
    (hsome : p.obstacle? kernel call = some reason) :
    p.openAmong kernel m (call :: calls) = .of m call reason :: p.openAmong kernel m calls := by
  simp [openAmong, hsome]

end Program

namespace Tour

variable {p : Program} {trusted : String} {kernel m callee : Method} {left depth : Nat}
  {call : Expr} {calls : List Expr} {t t' : Tour}

theorem Sound.obstacle?_of_mem (h : Sound p trusted kernel depth t)
    (hkernel : p.method? kernel.id = some kernel) (hcallee : p.callee? call = some callee)
    (hid : callee.id ∈ t.ids) : p.obstacle? kernel call = none := by
  have hlive := Program.live_of_callee? hcallee
  obtain ⟨left, hmet⟩ := h.mem_met_of_mem_ids hkernel hlive hid
  obtain ⟨n, hchain, -⟩ := h.chained _ hmet
  rcases hchain.end_cases with heq | ⟨-, hfollowed⟩
  · exact Program.obstacle?_kernel hcallee (congrArg Method.id heq)
  · exact Program.obstacle?_followed hcallee hfollowed

/-- The open calls of the members that were met with a level left. -/
def openBelow (p : Program) (kernel : Method) (met : List (Method × Nat)) : List OpenCall :=
  (met.filter (0 < ·.2)).flatMap fun e => p.openAmong kernel e.1 e.1.calls

/-- **What a tour adds.** Going through calls notes those of them that are open and, for each member
met on the way with a level left, the open ones of its own calls: each occurrence once. -/
theorem Visits.count_openCalls (h : Visits p trusted left m calls t t') (hcalls : calls ⊆ m.calls)
    (hm : (m, left + 1) ∈ t.met) (ht : Sound p trusted kernel depth t)
    (hkernel : p.method? kernel.id = some kernel) (hin : kernel.id ∈ t.ids) (o : OpenCall) :
    ∃ fresh, t'.met = t.met ++ fresh ∧
      t'.openCalls.count o =
        t.openCalls.count o + (p.openAmong kernel m calls).count o +
          (openBelow p kernel fresh).count o := by
  induction h with
  | done => exact ⟨[], by simp, by simp [Program.openAmong, openBelow]⟩
  | @cut m callee call calls t t' called new followed rest ih =>
    obtain ⟨hcall, hrest⟩ := List.cons_subset.mp hcalls
    have hmeet := ht.meet hm ⟨⟨_, hcall, called⟩, followed⟩ new
    obtain ⟨fresh, hmet, hcount⟩ := ih hrest (mem_met_meet.mpr (.inl hm)) hmeet (by simp [hin])
    refine ⟨(callee, 0) :: fresh, by simp [hmet, Tour.meet], ?_⟩
    have hskip : openBelow p kernel ((callee, 0) :: fresh) = openBelow p kernel fresh := by
      simp [openBelow]
    rw [hskip, Program.openAmong_of_none (Program.obstacle?_followed called followed)]
    exact hcount
  | @follow left m callee call calls t t₁ t' called new followed inside rest ihinside ihrest =>
    obtain ⟨hcall, hrest⟩ := List.cons_subset.mp hcalls
    have hmeet := ht.meet hm ⟨⟨_, hcall, called⟩, followed⟩ new
    have hcallee : (callee, left + 1) ∈ (t.meet callee (left + 1)).met :=
      mem_met_meet.mpr (.inr rfl)
    have hin' : kernel.id ∈ (t.meet callee (left + 1)).ids := by simp [hin]
    obtain ⟨below, hbelow, hinner⟩ := ihinside (List.Subset.refl _) hcallee hmeet hin'
    have hsound := inside.sound (List.Subset.refl _) hcallee hmeet
    obtain ⟨fresh, hmet, houter⟩ :=
      ihrest hrest (inside.mem_met (mem_met_meet.mpr (.inl hm))) hsound
      (inside.ids_subset hin')
    refine ⟨(callee, left + 1) :: below ++ fresh, by simp [hmet, hbelow, Tour.meet], ?_⟩
    have hsplit : openBelow p kernel ((callee, left + 1) :: below ++ fresh) =
        p.openAmong kernel callee callee.calls ++ openBelow p kernel below ++
          openBelow p kernel fresh := by
      simp [openBelow]
    have hmade : (t.meet callee (left + 1)).openCalls = t.openCalls := rfl
    rw [hsplit, Program.openAmong_of_none (Program.obstacle?_followed called followed)]
    rw [hmade] at hinner
    simp only [List.count_append]
    omega
  | @note left m call calls reason t t' reason_eq new rest ih =>
    obtain ⟨-, hrest⟩ := List.cons_subset.mp hcalls
    have hne : ∀ callee, p.callee? call = some callee → callee.id ≠ kernel.id := by
      intro callee hcallee hid
      exact new callee hcallee (hid ▸ hin)
    have hreason : p.obstacle? kernel call = some reason :=
      (Program.obstacle?_eq_openReason? trusted hne).trans reason_eq
    obtain ⟨fresh, hmet, hcount⟩ := ih hrest hm ⟨ht.nodup, ht.chained⟩ hin
    refine ⟨fresh, hmet, ?_⟩
    have hnoted : (t.note m call reason).openCalls = t.openCalls ++ [.of m call reason] := rfl
    rw [hcount, hnoted, Program.openAmong_of_some hreason, List.count_append, List.count_singleton,
      List.count_cons]
    omega
  | @pass left m callee call calls t t' called known rest ih =>
    obtain ⟨-, hrest⟩ := List.cons_subset.mp hcalls
    have hnone : p.obstacle? kernel call = none := by
      by_cases hid : callee.id ∈ t.ids
      · exact ht.obstacle?_of_mem hkernel called hid
      · obtain ⟨-, hreason⟩ := known.resolve_left hid
        rw [Program.obstacle?_eq_openReason? trusted fun other hother heq => ?_]
        · exact hreason
        · obtain rfl : callee = other := Option.some.inj (called.symm.trans hother)
          exact hid (heq ▸ hin)
    rw [Program.openAmong_of_none hnone]
    exact ih hrest hm ht hin

end Tour

namespace Program

variable {p : Program} {trusted : String} {depth : Nat} {kernel m : Method}

theorem filterMap_members_scopeOf (hkernel : p.method? kernel.id = some kernel) :
    (p.scopeOf trusted depth kernel).members.filterMap p.method? =
      (p.tourOf trusted depth kernel).met.map (·.1) := by
  rw [members_scopeOf, Tour.ids, List.filterMap_map]
  calc (p.tourOf trusted depth kernel).met.filterMap (p.method? ∘ fun e => e.1.id)
      = (p.tourOf trusted depth kernel).met.filterMap (some ∘ fun e => e.1) :=
        List.filterMap_congr fun e he => live_of_met hkernel he
    _ = (p.tourOf trusted depth kernel).met.map (·.1) := by rw [List.filterMap_eq_map]

theorem perm_openCalls_scopeOf (hkernel : p.method? kernel.id = some kernel)
    (hdepth : p.methods.length ≤ depth) :
    (p.scopeOf trusted depth kernel).openCalls.Perm
      (((p.scopeOf trusted depth kernel).members.filterMap p.method?).flatMap fun m =>
        p.openAmong kernel m m.calls) := by
  have hsome : 0 < p.methods.length := List.length_pos_of_mem (mem_methods_of_method? hkernel)
  obtain ⟨left, rfl⟩ : ∃ left, depth = left + 1 := ⟨depth - 1, by omega⟩
  have hwalked := @left_pos_tourOf p trusted (left + 1) kernel hkernel hdepth
  rw [filterMap_members_scopeOf hkernel, openCalls_scopeOf, List.flatMap_map, List.perm_iff_count]
  intro o
  obtain ⟨fresh, hmet, hcount⟩ :=
    (visits_tourOf p trusted left kernel).count_openCalls (List.Subset.refl _) (by simp)
    (.start p trusted kernel (left + 1)) hkernel (by simp [Tour.ids]) o
  have hfresh : fresh.filter (0 < ·.2) = fresh := by
    rw [List.filter_eq_self]
    intro e he
    exact decide_eq_true (hwalked e (by simp [hmet, he]))
  rw [hcount, hmet, Tour.openBelow, hfresh]
  simp

theorem callee?_removeMethod {before : Program} {h : MethodId} {removed : Method} {call : Expr}
    (hremoved : before.removeMethod h = some (removed, p)) (hcall : call.callTarget? = some h) :
    p.callee? call = none := by
  simp only [removeMethod, Option.map_eq_some_iff, Prod.mk.injEq] at hremoved
  obtain ⟨m, -, rfl, rfl⟩ := hremoved
  have hslots : ((before.clearSlot h).relinkMethod m (·.filter (· ≠ h))).bump.method? h =
      (before.clearSlot h).method? h := by
    simp [method?, bump]
  rw [callee?, hcall, Option.bind_some, hslots, method?_clearSlot, if_pos rfl]

/-- **Open calls are exact.** When as many levels are followed as there are live methods, the open
calls of a scope are the obstacles among the calls of its members, each as often as the call occurs
and with the place and the caller of the call. So a call of a removed method is listed as one that
cannot be resolved. -/
theorem openCalls_exact (p : Program) (trusted : String) (depth : Nat) (kernel : Method)
    (hkernel : p.method? kernel.id = some kernel) (hdepth : p.methods.length ≤ depth) :
    let scope := p.scopeOf trusted depth kernel
    scope.openCalls.Perm
      ((scope.members.filterMap p.method?).flatMap fun m => p.openAmong kernel m m.calls) ∧
    ∀ (before : Program) (h : MethodId) (removed : Method),
      before.removeMethod h = some (removed, p) →
      ∀ m ∈ scope.members.filterMap p.method?, ∀ call ∈ m.calls, call.callTarget? = some h →
        OpenCall.of m call ("Cannot resolve method '" ++ call.text ++ "'") ∈ scope.openCalls := by
  intro scope
  have hperm := @perm_openCalls_scopeOf p trusted depth kernel hkernel hdepth
  refine ⟨hperm, ?_⟩
  intro before h removed hremoved m hm call hcall htarget
  have hcallee := callee?_removeMethod hremoved htarget
  have hobstacle : p.obstacle? kernel call =
      some ("Cannot resolve method '" ++ call.text ++ "'") := by
    rw [obstacle?, hcallee]
  rw [hperm.mem_iff, List.mem_flatMap]
  refine ⟨m, hm, ?_⟩
  rw [openAmong, List.mem_filterMap]
  exact ⟨call, hcall, by rw [hobstacle, Option.map_some]⟩

/-- The third method is called twice by the first and once by the second. After its removal the
three calls are open. -/
theorem openCalls_of_removed :
    let p := (ofCallLists [[1, 2, 2], [2, 0], []]).edit (.removeMethod ⟨2⟩)
    ∃ kernel, p.method? ⟨0⟩ = some kernel ∧
      (p.scopeOf "api." 2 kernel).openCalls.Perm
        ([⟨0⟩, ⟨0⟩, ⟨1⟩].map fun caller =>
          ⟨default, default, "", caller, "Cannot resolve method ''"⟩) := by
  intro p
  obtain ⟨kernel, hkernel⟩ : ∃ kernel, p.method? ⟨0⟩ = some kernel := ⟨_, rfl⟩
  have hexact := (openCalls_exact p "api." 2 kernel (method?_self hkernel) (by decide)).1
  have hlisted : (p.method? ⟨0⟩).map (fun kernel =>
      ((p.scopeOf "api." 2 kernel).members.filterMap p.method?).flatMap fun m =>
        p.openAmong kernel m m.calls) =
      some ([⟨0⟩, ⟨0⟩, ⟨1⟩].map fun caller =>
        ⟨default, default, "", caller, "Cannot resolve method ''"⟩) := by decide
  rw [hkernel, Option.map_some, Option.some.injEq] at hlisted
  exact ⟨kernel, hkernel, hlisted ▸ hexact⟩

end Program

end KernelLint
