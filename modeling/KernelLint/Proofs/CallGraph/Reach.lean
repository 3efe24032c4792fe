import KernelLint.Proofs.CallGraph.Tour
import Mathlib.Logic.Relation

/-!
# What a scope contains

The members of a scope against the graph of calls. Every member other than the kernel is a live
helper at the end of a chain of followed calls inside the scope, no longer than the depth of the
walk (`Sound`). A member that was met with a level left has all its calls looked after: the callees
to be followed are members, and the calls that cannot be followed are noted (`Covered`). When the
depth is at least the number of live methods, no member is met without a level left, because the
methods being toured are all different; so the scope is then exactly what can be reached from the
kernel.
-/

namespace KernelLint

/-- A chain of `n` calls to be followed leads from the kernel to a method through members of a
list. -/
inductive Program.Chain (p : Program) (trusted : String) (within : List MethodId)
    (kernel : Method) :
    Nat → Method → Prop
  | start : Chain p trusted within kernel 0 kernel
  | step {n : Nat} {m callee : Method} (chain : Chain p trusted within kernel n m)
      (follows : p.Follows trusted m callee) (listed : callee.id ∈ within) :
      Chain p trusted within kernel (n + 1) callee

namespace Program

variable {p : Program} {trusted : String} {kernel : Method}

theorem Follows.live {m callee : Method} (h : p.Follows trusted m callee) :
    p.method? callee.id = some callee := by
  obtain ⟨⟨call, -, hcallee⟩, -⟩ := h
  exact live_of_callee? hcallee

theorem Chain.mono {within within' : List MethodId} {n : Nat} {m : Method} (hsub : within ⊆ within')
    (h : p.Chain trusted within kernel n m) : p.Chain trusted within' kernel n m := by
  induction h with
  | start => exact .start
  | step _ follows listed ih => exact .step ih follows (hsub listed)

theorem Chain.end_cases {within : List MethodId} {n : Nat} {m : Method}
    (h : p.Chain trusted within kernel n m) :
    m = kernel ∨ p.method? m.id = some m ∧ p.inlining trusted m = .followed := by
  cases h with
  | start => exact .inl rfl
  | step _ follows _ => exact .inr ⟨follows.live, follows.2⟩

theorem Chain.live {within : List MethodId} {n : Nat} {m : Method}
    (hkernel : p.method? kernel.id = some kernel) (h : p.Chain trusted within kernel n m) :
    p.method? m.id = some m := by
  rcases h.end_cases with rfl | ⟨hlive, -⟩
  · exact hkernel
  · exact hlive

theorem Chain.reflTransGen {within : List MethodId} {n : Nat} {m : Method}
    (h : p.Chain trusted within kernel n m) :
    Relation.ReflTransGen (p.Follows trusted) kernel m := by
  induction h with
  | start => exact .refl
  | step _ follows _ ih => exact ih.tail follows

end Program

namespace Tour

variable {p : Program} {trusted : String} {kernel m callee : Method} {left depth : Nat}
  {calls : List Expr} {t t' : Tour}

/-! ## A tour only grows -/

theorem Visits.met_grows (h : Visits p trusted left m calls t t') : t.met <+: t'.met := by
  induction h with
  | done => exact List.prefix_refl _
  | cut _ _ _ _ ih => exact (List.prefix_append _ _).trans ih
  | follow _ _ _ _ _ ihinside ihrest => exact ((List.prefix_append _ _).trans ihinside).trans ihrest
  | note _ _ _ ih => exact ih
  | pass _ _ _ ih => exact ih

theorem Visits.mem_met (h : Visits p trusted left m calls t t') {e : Method × Nat}
    (he : e ∈ t.met) :
    e ∈ t'.met :=
  h.met_grows.subset he

theorem Visits.ids_subset (h : Visits p trusted left m calls t t') : t.ids ⊆ t'.ids :=
  List.map_subset _ h.met_grows.subset

theorem Visits.openCalls_subset (h : Visits p trusted left m calls t t') :
    t.openCalls ⊆ t'.openCalls := by
  induction h with
  | done => exact List.Subset.refl _
  | cut _ _ _ _ ih => exact ih
  | follow _ _ _ _ _ ihinside ihrest => exact fun o ho => ihrest (ihinside ho)
  | note _ _ _ ih => exact fun o ho => ih (List.mem_append_left _ ho)
  | pass _ _ _ ih => exact ih

theorem mem_met_meet {e : Method × Nat} :
    e ∈ (t.meet m left).met ↔ e ∈ t.met ∨ e = (m, left) := by
  simp [meet]

/-! ## Members are reached by chains -/

/-- No member twice, and every member at the end of a chain that together with the levels left below
it is as long as the walk is deep. -/
structure Sound (p : Program) (trusted : String) (kernel : Method) (depth : Nat) (t : Tour) :
    Prop where
  nodup : t.ids.Nodup
  chained : ∀ e ∈ t.met, ∃ n, p.Chain trusted t.ids kernel n e.1 ∧ n + e.2 = depth

theorem Sound.start (p : Program) (trusted : String) (kernel : Method) (depth : Nat) :
    Sound p trusted kernel depth ⟨[(kernel, depth)], []⟩ := by
  refine ⟨by simp [ids], fun e he => ?_⟩
  obtain rfl : e = (kernel, depth) := by simpa using he
  exact ⟨0, .start, by omega⟩

theorem Sound.meet (h : Sound p trusted kernel depth t) (hm : (m, left + 1) ∈ t.met)
    (hfollows : p.Follows trusted m callee) (hnew : callee.id ∉ t.ids) :
    Sound p trusted kernel depth (t.meet callee left) := by
  have hsub : t.ids ⊆ (t.meet callee left).ids := by simp
  refine ⟨?_, fun e he => ?_⟩
  · rw [ids_meet, List.nodup_append]
    refine ⟨h.nodup, by simp, ?_⟩
    rintro id hid other hother rfl
    rw [List.mem_singleton] at hother
    exact hnew (hother ▸ hid)
  · rcases mem_met_meet.mp he with hold | rfl
    · obtain ⟨n, hchain, hn⟩ := h.chained e hold
      exact ⟨n, hchain.mono hsub, hn⟩
    · obtain ⟨n, hchain, hn⟩ := h.chained _ hm
      exact ⟨n + 1, .step (hchain.mono hsub) hfollows (by simp), by simp only at hn ⊢; omega⟩

theorem Visits.sound (h : Visits p trusted left m calls t t') (hcalls : calls ⊆ m.calls)
    (hm : (m, left + 1) ∈ t.met) (ht : Sound p trusted kernel depth t) :
    Sound p trusted kernel depth t' := by
  induction h with
  | done => exact ht
  | cut called new followed _ ih =>
    obtain ⟨hcall, hrest⟩ := List.cons_subset.mp hcalls
    exact ih hrest (mem_met_meet.mpr (.inl hm)) (ht.meet hm ⟨⟨_, hcall, called⟩, followed⟩ new)
  | follow called new followed inside _ ihinside ihrest =>
    obtain ⟨hcall, hrest⟩ := List.cons_subset.mp hcalls
    have hmeet := ht.meet hm ⟨⟨_, hcall, called⟩, followed⟩ new
    exact ihrest hrest (inside.mem_met (mem_met_meet.mpr (.inl hm)))
      (ihinside (List.Subset.refl _) (mem_met_meet.mpr (.inr rfl)) hmeet)
  | note _ _ _ ih =>
    exact ih (List.cons_subset.mp hcalls).2 hm ⟨ht.nodup, ht.chained⟩
  | pass _ _ _ ih => exact ih (List.cons_subset.mp hcalls).2 hm ht

theorem Sound.mem_met_of_mem_ids (h : Sound p trusted kernel depth t)
    (hkernel : p.method? kernel.id = some kernel) (hm : p.method? m.id = some m)
    (hid : m.id ∈ t.ids) :
    ∃ left, (m, left) ∈ t.met := by
  obtain ⟨⟨x, left⟩, hx, hxid⟩ := mem_ids.mp hid
  obtain ⟨n, hchain, -⟩ := h.chained _ hx
  have hlive : p.method? m.id = some x := hxid ▸ hchain.live hkernel
  have hmx : m = x := Option.some.inj (hm.symm.trans hlive)
  exact ⟨left, hmx ▸ hx⟩

theorem Sound.length_met_le (h : Sound p trusted kernel depth t)
    (hkernel : p.method? kernel.id = some kernel) : t.met.length ≤ p.methods.length := by
  have hids : t.ids.length = t.met.length := List.length_map _
  rw [← hids]
  refine Program.length_le_length_methods h.nodup fun id hid => ?_
  obtain ⟨e, he, rfl⟩ := mem_ids.mp hid
  obtain ⟨n, hchain, -⟩ := h.chained e he
  exact ⟨e.1, hchain.live hkernel⟩

theorem Visits.caller (h : Visits p trusted left m calls t t') (hcalls : calls ⊆ m.calls)
    (hm : (m, left + 1) ∈ t.met) :
    ∀ e ∈ t'.met, e ∈ t.met ∨ ∃ x, (x, e.2 + 1) ∈ t'.met ∧ p.Follows trusted x e.1 := by
  induction h with
  | done => exact fun e he => .inl he
  | cut called new followed rest ih =>
    obtain ⟨hcall, hrest⟩ := List.cons_subset.mp hcalls
    intro e he
    rcases ih hrest (mem_met_meet.mpr (.inl hm)) e he with he | hcaller
    · rcases mem_met_meet.mp he with hold | rfl
      · exact .inl hold
      · exact .inr ⟨_, rest.mem_met (mem_met_meet.mpr (.inl hm)), ⟨_, hcall, called⟩, followed⟩
    · exact .inr hcaller
  | follow called new followed inside rest ihinside ihrest =>
    obtain ⟨hcall, hrest⟩ := List.cons_subset.mp hcalls
    have hm' := inside.mem_met (mem_met_meet.mpr (.inl hm))
    intro e he
    rcases ihrest hrest hm' e he with he | hcaller
    · rcases ihinside (List.Subset.refl _) (mem_met_meet.mpr (.inr rfl)) e he with
        he | ⟨x, hx, hfollows⟩
      · rcases mem_met_meet.mp he with hold | rfl
        · exact .inl hold
        · exact .inr ⟨_, rest.mem_met hm', ⟨_, hcall, called⟩, followed⟩
      · exact .inr ⟨x, rest.mem_met hx, hfollows⟩
    · exact .inr hcaller
  | note _ _ _ ih => exact ih (List.cons_subset.mp hcalls).2 hm
  | pass _ _ _ ih => exact ih (List.cons_subset.mp hcalls).2 hm

/-! ## Open calls are calls of toured members -/

/-- The open call is a call of a member that was met with a level left, it cannot be followed, and
it is not a call of the kernel. -/
def Opens (p : Program) (trusted : String) (kernel : Method) (t : Tour) (o : OpenCall) : Prop :=
  ∃ x left, (x, left + 1) ∈ t.met ∧ ∃ call ∈ x.calls, ∃ reason,
    p.openReason? trusted call = some reason ∧
    (∀ callee, p.callee? call = some callee → callee.id ≠ kernel.id) ∧ o = .of x call reason

theorem Opens.meet {o : OpenCall} (h : Opens p trusted kernel t o) :
    Opens p trusted kernel (t.meet callee left) o := by
  obtain ⟨x, k, hx, hcall⟩ := h
  exact ⟨x, k, mem_met_meet.mpr (.inl hx), hcall⟩

theorem Visits.opens (h : Visits p trusted left m calls t t') (hcalls : calls ⊆ m.calls)
    (hm : (m, left + 1) ∈ t.met) (hkernel : kernel.id ∈ t.ids)
    (ht : ∀ o ∈ t.openCalls, Opens p trusted kernel t o) :
    ∀ o ∈ t'.openCalls, Opens p trusted kernel t' o := by
  induction h with
  | done => exact ht
  | cut _ _ _ _ ih =>
    exact ih (List.cons_subset.mp hcalls).2 (mem_met_meet.mpr (.inl hm)) (by simp [hkernel])
      fun o ho => (ht o ho).meet
  | @follow left m callee call calls t t₁ t' called new followed inside _ ihinside ihrest =>
    have hsub : t.ids ⊆ (t.meet callee (left + 1)).ids := by simp
    refine ihrest (List.cons_subset.mp hcalls).2 (inside.mem_met (mem_met_meet.mpr (.inl hm)))
      (inside.ids_subset (hsub hkernel)) ?_
    exact ihinside (List.Subset.refl _) (mem_met_meet.mpr (.inr rfl)) (hsub hkernel)
      fun o ho => (ht o ho).meet
  | @note left m call calls reason t t' reason_eq new _ ih =>
    obtain ⟨hcall, hrest⟩ := List.cons_subset.mp hcalls
    refine ih hrest hm hkernel fun o ho => ?_
    rcases List.mem_append.mp ho with hold | hnew
    · exact ht o hold
    · refine ⟨m, left, hm, call, hcall, reason, reason_eq, fun callee hcallee hid => ?_,
        by simpa using hnew⟩
      exact new callee hcallee (hid ▸ hkernel)
  | pass _ _ _ ih => exact ih (List.cons_subset.mp hcalls).2 hm hkernel ht

/-! ## Calls of toured members are looked after -/

/-- A call of `m` is looked after: its callee is a member if it is to be followed, and the call is
noted if it cannot be followed. -/
structure Covered (p : Program) (trusted : String) (t : Tour) (m : Method) (call : Expr) :
    Prop where
  listed : ∀ callee, p.callee? call = some callee → p.inlining trusted callee = .followed →
    callee.id ∈ t.ids
  noted : ∀ reason, p.openReason? trusted call = some reason →
    (∀ callee, p.callee? call = some callee → callee.id ∉ t.ids) →
    OpenCall.of m call reason ∈ t.openCalls

theorem Covered.mono {call : Expr} (hids : t.ids ⊆ t'.ids) (hopen : t.openCalls ⊆ t'.openCalls)
    (h : Covered p trusted t m call) : Covered p trusted t' m call where
  listed callee hcallee hfollowed := hids (h.listed callee hcallee hfollowed)
  noted reason hreason hnew :=
    hopen (h.noted reason hreason fun callee hcallee hid => hnew callee hcallee (hids hid))

theorem Covered.later {call : Expr} (hvisits : Visits p trusted left m calls t t') {x : Method}
    (h : Covered p trusted t x call) : Covered p trusted t' x call :=
  h.mono hvisits.ids_subset hvisits.openCalls_subset

theorem Visits.covered (h : Visits p trusted left m calls t t') :
    (∀ call ∈ calls, Covered p trusted t' m call) ∧
      ∀ x k, (x, k + 1) ∈ t'.met →
        (x, k + 1) ∈ t.met ∨ ∀ call ∈ x.calls, Covered p trusted t' x call := by
  induction h with
  | done => exact ⟨by simp, fun x k hx => .inl hx⟩
  | @cut m callee call calls t t' called new followed rest ih =>
    refine ⟨?_, fun x k hx => ?_⟩
    · rw [List.forall_mem_cons]
      refine ⟨⟨fun other hother _ => ?_, fun reason hreason _ => ?_⟩, ih.1⟩
      · obtain rfl : callee = other := Option.some.inj (called.symm.trans hother)
        exact rest.ids_subset (by simp)
      · rw [Program.openReason?_of_followed called followed] at hreason
        cases hreason
    · refine (ih.2 x k hx).imp_left fun hold => ?_
      simpa [mem_met_meet] using hold
  | @follow left m callee call calls t t₁ t' called new followed inside rest ihinside ihrest =>
    refine ⟨?_, fun x k hx => ?_⟩
    · rw [List.forall_mem_cons]
      refine ⟨⟨fun other hother _ => ?_, fun reason hreason _ => ?_⟩, ihrest.1⟩
      · obtain rfl : callee = other := Option.some.inj (called.symm.trans hother)
        exact rest.ids_subset (inside.ids_subset (by simp))
      · rw [Program.openReason?_of_followed called followed] at hreason
        cases hreason
    · rcases ihrest.2 x k hx with hinner | hcovered
      · rcases ihinside.2 x k hinner with hold | hcovered
        · rcases mem_met_meet.mp hold with hold | heq
          · exact .inl hold
          · -- the helper itself, whose calls were gone through inside
            obtain rfl : x = callee := congrArg Prod.fst heq
            exact .inr fun call hcall => (ihinside.1 call hcall).later rest
        · exact .inr fun call hcall => (hcovered call hcall).later rest
      · exact .inr hcovered
  | @note left m call calls reason t t' reason_eq new rest ih =>
    refine ⟨?_, ih.2⟩
    rw [List.forall_mem_cons]
    refine ⟨⟨fun callee hcallee hfollowed => ?_, fun other hother _ => ?_⟩, ih.1⟩
    · rw [Program.openReason?_of_followed hcallee hfollowed] at reason_eq
      cases reason_eq
    · obtain rfl : reason = other := Option.some.inj (reason_eq.symm.trans hother)
      exact rest.openCalls_subset (by simp [Tour.note])
  | @pass left m callee call calls t t' called known rest ih =>
    refine ⟨?_, ih.2⟩
    rw [List.forall_mem_cons]
    refine ⟨⟨fun other hother hfollowed => ?_, fun reason hreason hnew => ?_⟩, ih.1⟩
    · obtain rfl : callee = other := Option.some.inj (called.symm.trans hother)
      rcases known with hid | ⟨hnot, -⟩
      · exact rest.ids_subset hid
      · exact absurd hfollowed hnot
    · rcases known with hid | ⟨-, hnone⟩
      · exact absurd (rest.ids_subset hid) (hnew callee called)
      · rw [hnone] at hreason
        cases hreason

/-! ## Depth enough -/

/-- As long as the levels left make up for the live methods not met yet, every new member has a
level left: the last level would be a member more than there are live methods. -/
theorem Visits.left_pos (h : Visits p trusted left m calls t t') (hcalls : calls ⊆ m.calls)
    (hm : (m, left + 1) ∈ t.met) (ht : Sound p trusted kernel depth t)
    (hkernel : p.method? kernel.id = some kernel)
    (henough : p.methods.length ≤ t.met.length + left) :
    ∀ e ∈ t'.met, e ∈ t.met ∨ 0 < e.2 := by
  induction h with
  | done => exact fun e he => .inl he
  | cut called new followed _ _ =>
    have hmeet := ht.meet hm ⟨⟨_, (List.cons_subset.mp hcalls).1, called⟩, followed⟩ new
    have hlen := hmeet.length_met_le hkernel
    simp only [Tour.meet, List.length_append, List.length_singleton] at hlen
    omega
  | @follow left m callee call calls t t₁ t' called new followed inside rest ihinside ihrest =>
    obtain ⟨hcall, hrest⟩ := List.cons_subset.mp hcalls
    have hmeet := ht.meet hm ⟨⟨_, hcall, called⟩, followed⟩ new
    have hcallee : (callee, left + 1) ∈ (t.meet callee (left + 1)).met :=
      mem_met_meet.mpr (.inr rfl)
    have hgrow : t.met.length + 1 ≤ t₁.met.length := by
      have hlen := inside.met_grows.length_le
      simpa [Tour.meet] using hlen
    have hinner := ihinside (List.Subset.refl _) hcallee hmeet (by
      simp only [Tour.meet, List.length_append, List.length_singleton]
      omega)
    have houter := ihrest hrest (inside.mem_met (mem_met_meet.mpr (.inl hm)))
      (inside.sound (List.Subset.refl _) hcallee hmeet) (by omega)
    intro e he
    rcases houter e he with he | hpos
    · rcases hinner e he with he | hpos
      · rcases mem_met_meet.mp he with hold | rfl
        · exact .inl hold
        · exact .inr (Nat.succ_pos _)
      · exact .inr hpos
    · exact .inr hpos
  | note _ _ _ ih => exact ih (List.cons_subset.mp hcalls).2 hm ⟨ht.nodup, ht.chained⟩ henough
  | pass _ _ _ ih => exact ih (List.cons_subset.mp hcalls).2 hm ht henough

end Tour

namespace Program

variable {p : Program} {trusted : String} {depth : Nat} {kernel m callee : Method}

/-! ## The tour of a kernel -/

theorem visits_tourOf (p : Program) (trusted : String) (left : Nat) (kernel : Method) :
    Tour.Visits p trusted left kernel kernel.calls ⟨[(kernel, left + 1)], []⟩
      (p.tourOf trusted (left + 1) kernel) :=
  Tour.visits_collect ..

theorem sound_tourOf (p : Program) (trusted : String) (depth : Nat) (kernel : Method) :
    Tour.Sound p trusted kernel depth (p.tourOf trusted depth kernel) := by
  cases depth with
  | zero => exact .start p trusted kernel 0
  | succ left =>
    exact (visits_tourOf p trusted left kernel).sound (List.Subset.refl _) (by simp)
      (.start p trusted kernel (left + 1))

theorem met_tourOf_grows (p : Program) (trusted : String) (depth : Nat) (kernel : Method) :
    [(kernel, depth)] <+: (p.tourOf trusted depth kernel).met := by
  cases depth with
  | zero => exact List.prefix_refl _
  | succ left => exact (visits_tourOf p trusted left kernel).met_grows

theorem caller_tourOf {e : Method × Nat} (he : e ∈ (p.tourOf trusted depth kernel).met) :
    e = (kernel, depth) ∨
      ∃ x, (x, e.2 + 1) ∈ (p.tourOf trusted depth kernel).met ∧ p.Follows trusted x e.1 := by
  cases depth with
  | zero => exact .inl (by simpa [tourOf, Tour.collect] using he)
  | succ left =>
    refine ((visits_tourOf p trusted left kernel).caller (List.Subset.refl _)
      (by simp) e he).imp_left ?_
    exact fun hstart => by simpa using hstart

theorem opens_tourOf {o : OpenCall} (ho : o ∈ (p.tourOf trusted depth kernel).openCalls) :
    Tour.Opens p trusted kernel (p.tourOf trusted depth kernel) o := by
  cases depth with
  | zero => simp [tourOf, Tour.collect] at ho
  | succ left =>
    exact (visits_tourOf p trusted left kernel).opens (List.Subset.refl _) (by simp)
      (by simp [Tour.ids])
      (by simp) o ho

theorem covered_tourOf {left : Nat} (hm : (m, left + 1) ∈ (p.tourOf trusted depth kernel).met) :
    ∀ call ∈ m.calls, Tour.Covered p trusted (p.tourOf trusted depth kernel) m call := by
  cases depth with
  | zero => simp [tourOf, Tour.collect] at hm
  | succ below =>
    have hvisits := visits_tourOf p trusted below kernel
    rcases hvisits.covered.2 m left hm with hstart | hcovered
    · -- the kernel, whose calls were gone through on the way
      obtain rfl : m = kernel := by
        have heq : (m, left + 1) = (kernel, below + 1) := by simpa using hstart
        exact congrArg Prod.fst heq
      exact hvisits.covered.1
    · exact hcovered

theorem left_pos_tourOf (hkernel : p.method? kernel.id = some kernel)
    (hdepth : p.methods.length ≤ depth) : ∀ e ∈ (p.tourOf trusted depth kernel).met, 0 < e.2 := by
  have hsome : 0 < p.methods.length := List.length_pos_of_mem (mem_methods_of_method? hkernel)
  obtain ⟨left, rfl⟩ : ∃ left, depth = left + 1 := ⟨depth - 1, by omega⟩
  intro e he
  have hpos := (visits_tourOf p trusted left kernel).left_pos (List.Subset.refl _) (by simp)
    (.start p trusted kernel (left + 1)) hkernel (by simp only [List.length_singleton]; omega) e he
  rcases hpos with hstart | hpos
  · obtain rfl : e = (kernel, left + 1) := by simpa using hstart
    exact Nat.succ_pos left
  · exact hpos

/-! ## Members of a walk -/

/-- The walk lists the method and looks at its calls. -/
def Walked (p : Program) (trusted : String) (depth : Nat) (kernel m : Method) : Prop :=
  ∃ left, (m, left + 1) ∈ (p.tourOf trusted depth kernel).met

/-- The walk lists the method, but has no level left to look at its calls. -/
def CutOff (p : Program) (trusted : String) (depth : Nat) (kernel m : Method) : Prop :=
  (m, 0) ∈ (p.tourOf trusted depth kernel).met

theorem mem_members_of_met {e : Method × Nat} (he : e ∈ (p.tourOf trusted depth kernel).met) :
    e.1.id ∈ (p.scopeOf trusted depth kernel).members := by
  rw [members_scopeOf]
  exact Tour.mem_ids_of_mem he

theorem live_of_met (hkernel : p.method? kernel.id = some kernel) {e : Method × Nat}
    (he : e ∈ (p.tourOf trusted depth kernel).met) : p.method? e.1.id = some e.1 := by
  obtain ⟨n, hchain, -⟩ := (sound_tourOf p trusted depth kernel).chained e he
  exact hchain.live hkernel

theorem walked_or_cutOff (hkernel : p.method? kernel.id = some kernel)
    (hm : p.method? m.id = some m) (hid : m.id ∈ (p.scopeOf trusted depth kernel).members) :
    p.Walked trusted depth kernel m ∨ p.CutOff trusted depth kernel m := by
  rw [members_scopeOf] at hid
  obtain ⟨left, hmet⟩ := (sound_tourOf p trusted depth kernel).mem_met_of_mem_ids hkernel hm hid
  cases left with
  | zero => exact .inr hmet
  | succ left => exact .inl ⟨left, hmet⟩

theorem Walked.lists (h : p.Walked trusted depth kernel m) (hfollows : p.Follows trusted m callee) :
    callee.id ∈ (p.scopeOf trusted depth kernel).members := by
  obtain ⟨left, hmet⟩ := h
  obtain ⟨⟨call, hcall, hcallee⟩, hfollowed⟩ := hfollows
  rw [members_scopeOf]
  exact (covered_tourOf hmet call hcall).listed callee hcallee hfollowed

theorem kernel_mem_members (p : Program) (trusted : String) (depth : Nat) (kernel : Method) :
    kernel.id ∈ (p.scopeOf trusted depth kernel).members :=
  mem_members_of_met (e := (kernel, depth))
    ((met_tourOf_grows p trusted depth kernel).subset (by simp))

theorem not_cutOff (hkernel : p.method? kernel.id = some kernel)
    (hdepth : p.methods.length ≤ depth) :
    ¬p.CutOff trusted depth kernel m :=
  fun hcut => absurd (left_pos_tourOf hkernel hdepth _ hcut) (by simp)

theorem id_eq_kernel_of_not_followed (hm : p.method? m.id = some m)
    (hkernel : p.method? kernel.id = some kernel) (hnot : p.inlining trusted m ≠ .followed)
    (hid : m.id ∈ (p.scopeOf trusted depth kernel).members) : m.id = kernel.id := by
  have hsound := sound_tourOf p trusted depth kernel
  rw [members_scopeOf] at hid
  obtain ⟨left, hmet⟩ := hsound.mem_met_of_mem_ids hkernel hm hid
  obtain ⟨n, hchain, -⟩ := hsound.chained _ hmet
  rcases hchain.end_cases with heq | ⟨-, hfollowed⟩
  · exact congrArg Method.id heq
  · exact absurd hfollowed hnot

theorem walked_of_mem (hkernel : p.method? kernel.id = some kernel)
    (hdepth : p.methods.length ≤ depth) (hm : p.method? m.id = some m)
    (hid : m.id ∈ (p.scopeOf trusted depth kernel).members) :
    p.Walked trusted depth kernel m :=
  (walked_or_cutOff hkernel hm hid).resolve_right (not_cutOff hkernel hdepth)

/-- **A scope is sound, and complete when it is deep enough.** It begins with the kernel, has no
member twice, and every other member is a live helper to be followed at the end of a chain of at
most `depth` calls inside the scope. When the depth is at least the number of live methods, its
members are exactly the methods that can be reached from the kernel by calls to be followed. -/
theorem scope_members_reached (p : Program) (trusted : String) (depth : Nat) (kernel : Method)
    (hkernel : p.method? kernel.id = some kernel) :
    let members := (p.scopeOf trusted depth kernel).members
    members.head? = some kernel.id ∧ members.Nodup ∧
      (∀ id ∈ members, id ≠ kernel.id → ∃ m n, p.method? id = some m ∧
        p.inlining trusted m = .followed ∧ n ≤ depth ∧ p.Chain trusted members kernel n m) ∧
      (p.methods.length ≤ depth → ∀ id, id ∈ members ↔
        ∃ m, p.method? id = some m ∧ Relation.ReflTransGen (p.Follows trusted) kernel m) := by
  intro members
  have hmembers : members = (p.tourOf trusted depth kernel).ids := members_scopeOf ..
  have hsound := sound_tourOf p trusted depth kernel
  refine ⟨?_, hmembers ▸ hsound.nodup, ?_, fun hdepth id => ⟨?_, ?_⟩⟩
  · obtain ⟨rest, hrest⟩ := met_tourOf_grows p trusted depth kernel
    rw [hmembers, Tour.ids, ← hrest]
    rfl
  · rw [hmembers]
    intro id hid hne
    obtain ⟨e, he, rfl⟩ := Tour.mem_ids.mp hid
    obtain ⟨n, hchain, hn⟩ := hsound.chained e he
    rcases hchain.end_cases with heq | ⟨hlive, hfollowed⟩
    · exact absurd (congrArg Method.id heq) hne
    · exact ⟨e.1, n, hlive, hfollowed, by omega, hchain⟩
  · intro hid
    rw [hmembers] at hid
    obtain ⟨e, he, rfl⟩ := Tour.mem_ids.mp hid
    obtain ⟨n, hchain, -⟩ := hsound.chained e he
    exact ⟨e.1, hchain.live hkernel, hchain.reflTransGen⟩
  · rintro ⟨m, hm, hreach⟩
    rw [← id_of_method? hm]
    clear hm
    induction hreach with
    | refl => exact kernel_mem_members p trusted depth kernel
    | @tail x y hx hxy ih =>
      have hxlive : p.method? x.id = some x := by
        rcases hx.cases_tail with rfl | ⟨w, -, hwx⟩
        · exact hkernel
        · exact hwx.live
      exact (walked_of_mem hkernel hdepth hxlive ih).lists hxy

/-- Two cycles and a diamond below the first method, and a fifth method that nothing calls: the
members are what the first method reaches. -/
theorem scope_of_knot_reached :
    let p := ofCallLists [[1, 2], [3], [3], [0, 1], [4]]
    ∃ kernel, p.method? ⟨0⟩ = some kernel ∧
      ∀ id, id ∈ [⟨0⟩, ⟨1⟩, ⟨3⟩, ⟨2⟩] ↔
        ∃ m, p.method? id = some m ∧ Relation.ReflTransGen (p.Follows "api.") kernel m := by
  intro p
  obtain ⟨kernel, hkernel⟩ : ∃ kernel, p.method? ⟨0⟩ = some kernel := ⟨_, rfl⟩
  have hreached := (scope_members_reached p "api." 5 kernel (method?_self hkernel)).2.2.2
    (by decide)
  have hmembers : (p.method? ⟨0⟩).map (fun kernel => (p.scopeOf "api." 5 kernel).members) =
      some [⟨0⟩, ⟨1⟩, ⟨3⟩, ⟨2⟩] := by decide
  rw [hkernel, Option.map_some, Option.some.injEq] at hmembers
  rw [hmembers] at hreached
  exact ⟨kernel, hkernel, hreached⟩

end Program

end KernelLint
