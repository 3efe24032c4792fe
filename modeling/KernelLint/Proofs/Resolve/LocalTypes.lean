import KernelLint.Proofs.Resolve.Repeat
import KernelLint.Proofs.Syntax.Declared

/-!
# The types of local variables

While a body is resolved, the types of its local variables are kept on the side. What a part of a
body adds to the table, in front of what it held before, is one entry for each variable that the
walk of the resolved part meets, with the type that the variable has there (`Logs`). In a tidy walk
that is all there is to look up.
-/

namespace KernelLint

namespace Resolve

/-- The second table is the first one with new entries in front: those of the variables of the
walk. -/
def Logs (types types' : List (NodeId × ErasedType)) (visits : List Visit) : Prop :=
  ∃ entries, types' = entries ++ types ∧
    ∀ entry, entry ∈ entries ↔ ∃ l, Visit.localVar l ∈ visits ∧ entry = (l.node, l.type.type)

namespace Logs

variable {types types' types'' : List (NodeId × ErasedType)} {visits visits' : List Visit}

theorem nil : Logs types types [] := ⟨[], rfl, by simp⟩

theorem congr (h : Logs types types' visits)
    (hsame : ∀ l, Visit.localVar l ∈ visits' ↔ Visit.localVar l ∈ visits) :
    Logs types types' visits' := by
  obtain ⟨entries, htypes, hentries⟩ := h
  exact ⟨entries, htypes, by simpa only [hsame] using hentries⟩

theorem append (h : Logs types types' visits) (h' : Logs types' types'' visits') :
    Logs types types'' (visits ++ visits') := by
  obtain ⟨entries, rfl, hentries⟩ := h
  obtain ⟨entries', rfl, hentries'⟩ := h'
  refine ⟨entries' ++ entries, by rw [List.append_assoc], fun entry => ?_⟩
  rw [List.mem_append, hentries, hentries', ← exists_or]
  refine exists_congr fun l => ?_
  rw [List.mem_append]
  tauto

theorem swap (h : Logs types types' visits) (h' : Logs types' types'' visits') :
    Logs types types'' (visits' ++ visits) :=
  (h.append h').congr fun l => by rw [List.mem_append, List.mem_append, or_comm]

theorem cons (h : Logs types types' visits) {v : Visit} (hv : v.localVar? = none) :
    Logs types types' (v :: visits) := by
  refine h.congr fun l => ?_
  rw [List.mem_cons, or_iff_right]
  rintro rfl
  cases hv

theorem single (l : Local) : Logs types ((l.node, l.type.type) :: types) [.localVar l] := by
  refine ⟨[(l.node, l.type.type)], rfl, fun entry => ?_⟩
  simp only [List.mem_singleton, Visit.localVar.injEq, exists_eq_left]

theorem declare (h : Logs types types' visits) (l : Local) :
    Logs types ((l.node, l.type.type) :: types') (.localVar l :: visits) :=
  h.swap (single l)

theorem lookup (h : Logs types types' visits) (htidy : IsTidy visits) {l : Local}
    (hl : Visit.localVar l ∈ visits) :
    types'.lookup l.node = some l.type.type := by
  obtain ⟨entries, rfl, hentries⟩ := h
  rw [List.lookup_append]
  cases hfound : entries.lookup l.node with
  | none =>
    have hapart := List.lookup_eq_none_iff.mp hfound _ ((hentries _).mpr ⟨l, hl, rfl⟩)
    simp at hapart
  | some type =>
    obtain ⟨before, after, hsplit, -⟩ := List.lookup_eq_some_iff.mp hfound
    have hmem : (l.node, type) ∈ entries := by
      rw [hsplit]
      exact List.mem_append_right _ List.mem_cons_self
    obtain ⟨l', hl', hentry⟩ := (hentries _).mp hmem
    obtain ⟨hnode, rfl⟩ := Prod.mk.inj hentry
    rw [htidy.eq_of_node_eq hl hl' hnode]
    rfl

end Logs

theorem visits_of_bare {l : Local} (h : l.init.isNone = true) : l.visits = [.localVar l] := by
  rw [Local.visits_eq, Option.isNone_iff_eq_none.mp h]
  rfl

end Resolve

end KernelLint
