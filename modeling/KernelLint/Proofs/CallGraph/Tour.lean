import KernelLint.CallGraph.Scope
import KernelLint.Proofs.Program.Live

/-!
# The walk with its levels

A tour is the walk of a scope that also remembers, for every member, how many levels were left to
walk below it when it was met: a member met with no level left is listed, but its own calls are not
looked at. Tours and walks agree on members and open calls (`walk_collect`). What a tour does with
the calls of a method is said once, by the relation `Visits` with one constructor for each thing
that can become of a call; everything that is known about scopes is proved by induction on it.
-/

namespace KernelLint

namespace Program

/-- The method calls `callee`, as far as calls are resolved. -/
def Calls (p : Program) (m callee : Method) : Prop :=
  ∃ call ∈ m.calls, p.callee? call = some callee

/-- The method calls `callee`, and the call is to be followed. -/
def Follows (p : Program) (trusted : String) (m callee : Method) : Prop :=
  p.Calls m callee ∧ p.inlining trusted callee = .followed

/-- Why a call stays open unless its callee is a member of the scope. -/
def openReason? (p : Program) (trusted : String) (call : Expr) : Option String :=
  match p.callee? call with
  | none => some ("Cannot resolve method '" ++ call.text ++ "'")
  | some callee =>
    match p.inlining trusted callee with
    | .blocked reason => if p.isProjectMethod callee then some reason else none
    | _ => none

theorem openReason?_of_followed {p : Program} {trusted : String} {call : Expr} {callee : Method}
    (hcallee : p.callee? call = some callee) (hfollowed : p.inlining trusted callee = .followed) :
    p.openReason? trusted call = none := by
  simp [openReason?, hcallee, hfollowed]

theorem openReason?_of_unresolved {p : Program} {call : Expr} (trusted : String)
    (hcallee : p.callee? call = none) : ∃ reason, p.openReason? trusted call = some reason :=
  ⟨_, by rw [openReason?, hcallee]⟩

end Program

/-- The open call that a call of `caller` becomes. -/
def OpenCall.of (caller : Method) (call : Expr) (reason : String) : OpenCall :=
  ⟨call.node, call.span, call.text, caller.id, reason⟩

/-- The members met so far, each with the levels left below it, and the open calls. -/
structure Tour where
  met : List (Method × Nat)
  openCalls : List OpenCall := []

namespace Tour

/-- The members by identity. -/
def ids (t : Tour) : List MethodId := t.met.map (·.1.id)

/-- The tour without its levels. -/
def walk (t : Tour) : Walk := ⟨t.ids, t.openCalls⟩

/-- Meet a new member. -/
def meet (t : Tour) (m : Method) (left : Nat) : Tour := { t with met := t.met ++ [(m, left)] }

/-- Note an open call. -/
def note (t : Tour) (caller : Method) (call : Expr) (reason : String) : Tour :=
  { t with openCalls := t.openCalls ++ [.of caller call reason] }

@[simp] theorem ids_meet (t : Tour) (m : Method) (left : Nat) :
    (t.meet m left).ids = t.ids ++ [m.id] := by
  simp [ids, meet]

theorem mem_ids {t : Tour} {id : MethodId} : id ∈ t.ids ↔ ∃ e ∈ t.met, e.1.id = id :=
  List.mem_map

theorem mem_ids_of_mem {t : Tour} {e : Method × Nat} (h : e ∈ t.met) : e.1.id ∈ t.ids :=
  mem_ids.mpr ⟨e, h, rfl⟩

/-- One call of `caller`; `follow` tours the helper that is met, with `left` levels below it. -/
def visitCall (p : Program) (trusted : String) (left : Nat) (follow : Method → Tour → Tour)
    (caller : Method) (t : Tour) (call : Expr) : Tour :=
  match p.callee? call with
  | none => t.note caller call ("Cannot resolve method '" ++ call.text ++ "'")
  | some callee =>
    if t.ids.contains callee.id then t
    else match p.inlining trusted callee with
      | .followed => follow callee (t.meet callee left)
      | .blocked reason => if p.isProjectMethod callee then t.note caller call reason else t
      | _ => t

/-- The tour of the calls of a method and of the helpers below it. -/
def collect (p : Program) (trusted : String) : Nat → Method → Tour → Tour
  | 0, _, t => t
  | left + 1, m, t => m.calls.foldl (visitCall p trusted left (collect p trusted left) m) t

/-! ## Tours and walks -/

theorem walk_visitCall {p : Program} {trusted : String} {left : Nat} {follow : Method → Tour → Tour}
    {followWalk : Method → Walk → Walk} (hfollow : ∀ m t, (follow m t).walk = followWalk m t.walk)
    (caller : Method) (t : Tour) (call : Expr) :
    (visitCall p trusted left follow caller t call).walk =
      Walk.visitCall p trusted followWalk caller t.walk call := by
  unfold visitCall Walk.visitCall
  cases p.callee? call with
  | none => rfl
  | some callee =>
    simp only
    by_cases hknown : t.ids.contains callee.id
    · rw [if_pos hknown, if_pos (show t.walk.members.contains callee.id from hknown)]
    · rw [if_neg hknown, if_neg (show ¬t.walk.members.contains callee.id from hknown)]
      cases p.inlining trusted callee with
      | followed =>
        simp only [hfollow]
        rw [walk, ids_meet]
        rfl
      | blocked reason =>
        simp only
        split <;> rfl
      | restricted family => rfl
      | intrinsic => rfl
      | foreign => rfl

theorem walk_collect (p : Program) (trusted : String) (depth : Nat) (m : Method) (t : Tour) :
    (collect p trusted depth m t).walk = Walk.collect p trusted depth m t.walk := by
  induction depth generalizing m t with
  | zero => rfl
  | succ left ih =>
    rw [collect, Walk.collect]
    induction m.calls generalizing t with
    | nil => rfl
    | cons call calls ihcalls =>
      rw [List.foldl_cons, List.foldl_cons, ihcalls, walk_visitCall ih]

end Tour

/-- The tour of a kernel: it is met first, with all levels below it. -/
def Program.tourOf (p : Program) (trusted : String) (depth : Nat) (kernel : Method) : Tour :=
  Tour.collect p trusted depth kernel ⟨[(kernel, depth)], []⟩

theorem Program.walk_tourOf (p : Program) (trusted : String) (depth : Nat) (kernel : Method) :
    (p.tourOf trusted depth kernel).walk = Walk.collect p trusted depth kernel ⟨[kernel.id], []⟩ :=
  Tour.walk_collect ..

theorem Program.members_scopeOf (p : Program) (trusted : String) (depth : Nat) (kernel : Method) :
    (p.scopeOf trusted depth kernel).members = (p.tourOf trusted depth kernel).ids := by
  rw [scopeOf, ← walk_tourOf]
  rfl

theorem Program.openCalls_scopeOf (p : Program) (trusted : String) (depth : Nat) (kernel : Method) :
    (p.scopeOf trusted depth kernel).openCalls = (p.tourOf trusted depth kernel).openCalls := by
  rw [scopeOf, ← walk_tourOf]
  rfl

namespace Tour

/-! ## What becomes of a call -/

/-- Going through `calls` of `m`, whose callees have `left` levels below them, leads from the first
tour to the second. -/
inductive Visits (p : Program) (trusted : String) :
    Nat → Method → List Expr → Tour → Tour → Prop
  | done {left : Nat} {m : Method} {t : Tour} : Visits p trusted left m [] t t
  /-- A new helper that is listed, but not toured itself. -/
  | cut {m callee : Method} {call : Expr} {calls : List Expr} {t t' : Tour}
      (called : p.callee? call = some callee) (new : callee.id ∉ t.ids)
      (followed : p.inlining trusted callee = .followed)
      (rest : Visits p trusted 0 m calls (t.meet callee 0) t') :
      Visits p trusted 0 m (call :: calls) t t'
  /-- A new helper that is toured before the rest of the calls. -/
  | follow {left : Nat} {m callee : Method} {call : Expr} {calls : List Expr} {t t₁ t' : Tour}
      (called : p.callee? call = some callee) (new : callee.id ∉ t.ids)
      (followed : p.inlining trusted callee = .followed)
      (inside : Visits p trusted left callee callee.calls (t.meet callee (left + 1)) t₁)
      (rest : Visits p trusted (left + 1) m calls t₁ t') :
      Visits p trusted (left + 1) m (call :: calls) t t'
  /-- An open call. -/
  | note {left : Nat} {m : Method} {call : Expr} {calls : List Expr} {reason : String} {t t' : Tour}
      (reason_eq : p.openReason? trusted call = some reason)
      (new : ∀ callee, p.callee? call = some callee → callee.id ∉ t.ids)
      (rest : Visits p trusted left m calls (t.note m call reason) t') :
      Visits p trusted left m (call :: calls) t t'
  /-- A call of a member, or one that is neither to be followed nor open. -/
  | pass {left : Nat} {m callee : Method} {call : Expr} {calls : List Expr} {t t' : Tour}
      (called : p.callee? call = some callee)
      (known : callee.id ∈ t.ids ∨
        p.inlining trusted callee ≠ .followed ∧ p.openReason? trusted call = none)
      (rest : Visits p trusted left m calls t t') :
      Visits p trusted left m (call :: calls) t t'

variable {p : Program} {trusted : String}

theorem Visits.of_visitCall {left : Nat} {m : Method} {call : Expr} {calls : List Expr}
    {t t' : Tour} (hinside : ∀ below callee t, left = below + 1 →
      Visits p trusted below callee callee.calls t (collect p trusted left callee t))
    (hrest : Visits p trusted left m calls
      (visitCall p trusted left (collect p trusted left) m t call) t') :
    Visits p trusted left m (call :: calls) t t' := by
  unfold visitCall at hrest
  cases hcallee : p.callee? call with
  | none =>
    rw [hcallee] at hrest
    exact .note (by simp [Program.openReason?, hcallee]) (by simp [hcallee]) hrest
  | some callee =>
    simp only [hcallee, List.contains_eq_mem, decide_eq_true_eq] at hrest
    split at hrest
    · rename_i hknown
      exact .pass hcallee (.inl hknown) hrest
    · rename_i hnew
      cases hinl : p.inlining trusted callee with
      | followed =>
        rw [hinl] at hrest
        cases left with
        | zero => exact .cut hcallee hnew hinl hrest
        | succ below => exact .follow hcallee hnew hinl (hinside below callee _ rfl) hrest
      | blocked reason =>
        simp only [hinl] at hrest
        by_cases hproject : p.isProjectMethod callee
        · rw [if_pos hproject] at hrest
          refine .note (by simp [Program.openReason?, hcallee, hinl, hproject]) ?_ hrest
          intro other hother
          rwa [← Option.some.inj (hcallee.symm.trans hother)]
        · rw [if_neg hproject] at hrest
          exact .pass hcallee (.inr ⟨by simp [hinl], by
            simp [Program.openReason?, hcallee, hinl, hproject]⟩) hrest
      | restricted family =>
        rw [hinl] at hrest
        exact .pass hcallee (.inr ⟨by simp [hinl], by simp [Program.openReason?, hcallee, hinl]⟩)
          hrest
      | intrinsic =>
        rw [hinl] at hrest
        exact .pass hcallee (.inr ⟨by simp [hinl], by simp [Program.openReason?, hcallee, hinl]⟩)
          hrest
      | foreign =>
        rw [hinl] at hrest
        exact .pass hcallee (.inr ⟨by simp [hinl], by simp [Program.openReason?, hcallee, hinl]⟩)
          hrest

theorem visits_foldl {left : Nat} (m : Method)
    (hinside : ∀ below callee t, left = below + 1 →
      Visits p trusted below callee callee.calls t (collect p trusted left callee t))
    (calls : List Expr) (t : Tour) :
    Visits p trusted left m calls t
      (calls.foldl (visitCall p trusted left (collect p trusted left) m) t) := by
  induction calls generalizing t with
  | nil => exact .done
  | cons call calls ih => exact .of_visitCall hinside (ih _)

/-- **A tour goes through the calls of its method.** -/
theorem visits_collect (p : Program) (trusted : String) (left : Nat) (m : Method) (t : Tour) :
    Visits p trusted left m m.calls t (collect p trusted (left + 1) m t) := by
  induction left generalizing m t with
  | zero => exact visits_foldl m (fun _ _ _ h => by omega) m.calls t
  | succ below ih =>
    refine visits_foldl m (fun other callee t h => ?_) m.calls t
    obtain rfl : below = other := by omega
    exact ih callee t

end Tour

end KernelLint
