import KernelLint.Proofs.Program.Live
import KernelLint.Proofs.Program.Lookup
import KernelLint.Proofs.Syntax.Declared

/-!
# Tidy programs

A program is tidy when the walks of its bodies are. A walk that is put together from parts is tidy
if the parts are and their variables are declared by the nodes of disjoint intervals (`Fresh`).
-/

namespace KernelLint

/-- A tidy walk over variables that are declared by nodes from `lo` on and before `hi`. -/
structure Fresh (lo hi : Nat) (visits : List Visit) : Prop where
  le : lo ≤ hi
  tidy : IsTidy visits
  between : ∀ n ∈ visits.filterMap Visit.declares?, lo ≤ n.index ∧ n.index < hi

namespace Fresh

variable {lo mid hi : Nat} {visits visits' : List Visit}

theorem nil (h : lo ≤ hi) : Fresh lo hi [] := ⟨h, ⟨by simp, by simp⟩, by simp⟩

theorem widen (h : Fresh mid hi visits) {hi' : Nat} (hlo : lo ≤ mid) (hhi : hi ≤ hi') :
    Fresh lo hi' visits := by
  have hle := h.le
  refine ⟨by omega, h.tidy, fun n hn => ?_⟩
  have := h.between n hn
  omega

theorem append (h : Fresh lo mid visits) (h' : Fresh mid hi visits') :
    Fresh lo hi (visits ++ visits') := by
  refine ⟨Nat.le_trans h.le h'.le, ⟨List.forall_mem_append.mpr ⟨h.tidy.bare, h'.tidy.bare⟩, ?_⟩,
    fun n hn => ?_⟩
  · rw [List.filterMap_append]
    refine h.tidy.nodup.append h'.tidy.nodup fun n hn hn' => ?_
    have := h.between n hn
    have := h'.between n hn'
    omega
  · have hle := h.le
    have hle' := h'.le
    rw [List.filterMap_append, List.mem_append] at hn
    rcases hn with hn | hn
    · have := h.between n hn
      omega
    · have := h'.between n hn
      omega

theorem swap (h : Fresh lo hi (visits ++ visits')) : Fresh lo hi (visits' ++ visits) := by
  have hperm : (visits' ++ visits).Perm (visits ++ visits') := List.perm_append_comm
  refine ⟨h.le, ⟨fun v hv => h.tidy.bare v (hperm.mem_iff.mp hv), ?_⟩, fun n hn => ?_⟩
  · exact ((hperm.filterMap _).nodup_iff).mpr h.tidy.nodup
  · exact h.between n ((hperm.filterMap _).mem_iff.mp hn)

theorem cons (h : Fresh lo hi visits) {v : Visit} (hnode : v.declares? = none)
    (hbare : v.isBare = true) :
    Fresh lo hi (v :: visits) := by
  refine ⟨h.le, ⟨List.forall_mem_cons.mpr ⟨hbare, h.tidy.bare⟩, ?_⟩, ?_⟩
  · rw [List.filterMap_cons, hnode]
    exact h.tidy.nodup
  · rw [List.filterMap_cons, hnode]
    exact h.between

theorem consLocal (h : Fresh lo mid visits) {l : Local} (hlo : mid ≤ l.node.index)
    (hhi : l.node.index < hi) :
    Fresh lo hi (.localVar l :: visits) := by
  have hnodes : (Visit.localVar l :: visits).filterMap Visit.declares? = l.node ::
      visits.filterMap Visit.declares? := rfl
  have hle := h.le
  refine ⟨by omega, ⟨List.forall_mem_cons.mpr ⟨rfl, h.tidy.bare⟩, ?_⟩, ?_⟩
  · rw [hnodes, List.nodup_cons]
    refine ⟨fun hmem => ?_, h.tidy.nodup⟩
    have := h.between _ hmem
    omega
  · rw [hnodes, List.forall_mem_cons]
    refine ⟨by omega, fun n hn => ?_⟩
    have := h.between n hn
    omega

end Fresh

/-! ## Lists of parts -/

theorem Handler.visitsList_filterMap (hs : List (Option Handler)) :
    Handler.visitsList (hs.filterMap id) = hs.flatMap (·.elim [] Handler.visits) := by
  induction hs with
  | nil => rfl
  | cons h rest ih =>
    cases h with
    | none => exact ih
    | some h => exact congrArg (h.visits ++ ·) ih

namespace Program

variable {p q : Program}

/-- The bodies of the program are tidy. -/
def Tidy (p : Program) : Prop := ∀ id m, p.method? id = some m → IsTidy m.visits

theorem Tidy.of_methodSlots (h : p.Tidy) (hslots : q.methodSlots = p.methodSlots) : q.Tidy := by
  intro id m hm
  refine h id m ?_
  rw [method?, ← hslots]
  exact hm

theorem tidy_empty : Program.empty.Tidy := by
  intro id m hm
  simp [method?, Program.empty] at hm

theorem Tidy.addMethod (h : p.Tidy) {m : Method} (hm : IsTidy m.visits) :
    (p.addMethod m).2.Tidy := by
  intro id x hx
  rw [method?_addMethod] at hx
  split at hx
  · cases hx
    exact hm
  · exact h id x hx

theorem nodeCount_addMethod (p : Program) (m : Method) :
    (p.addMethod m).2.nodeCount = p.nodeCount := by
  unfold Program.addMethod relinkMethod
  split <;> rfl

theorem nodeCount_addClass (p : Program) (c : TypeDecl) :
    (p.addClass c).2.nodeCount = p.nodeCount := by
  unfold Program.addClass linkClass
  split <;> rfl

end Program

end KernelLint
