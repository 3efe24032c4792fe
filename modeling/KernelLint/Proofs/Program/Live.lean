import KernelLint.Program.Query
import Mathlib.Data.List.Basic
import Mathlib.Data.List.Nodup
import Mathlib.Data.List.Perm.Subperm

/-!
# Live methods

A live method is found under its own identity, and under no other. So a list of identities of live
methods that has none twice is at most as long as the program has live methods.
-/

namespace KernelLint.Program

variable {p : Program} {id : MethodId} {m : Method}

theorem slot_of_method? (h : p.method? id = some m) : p.methodSlots[id.index]? = some (some m) := by
  rw [method?, Option.join_eq_some_iff] at h
  exact h

theorem id_of_method? (h : p.method? id = some m) : m.id = id :=
  p.slots_numbered id.index (some m) (slot_of_method? h) m rfl

theorem method?_self (h : p.method? id = some m) : p.method? m.id = some m := by
  rw [id_of_method? h]
  exact h

theorem eq_of_id_eq {m' : Method} (h : p.method? m.id = some m) (h' : p.method? m'.id = some m')
    (hid : m.id = m'.id) : m = m' := by
  rw [hid, h'] at h
  exact (Option.some.inj h).symm

theorem mem_methods_of_method? (h : p.method? id = some m) : m ∈ p.methods := by
  rw [methods, List.mem_filterMap]
  refine ⟨some m, ?_, rfl⟩
  rw [Array.mem_toList_iff]
  exact Array.mem_of_getElem? (slot_of_method? h)

theorem live_of_callee? {call : Expr} (h : p.callee? call = some m) : p.method? m.id = some m := by
  rw [callee?, Option.bind_eq_some_iff] at h
  obtain ⟨target, -, htarget⟩ := h
  exact method?_self htarget

theorem length_le_length_methods {ids : List MethodId} (hnodup : ids.Nodup)
    (hlive : ∀ id ∈ ids, ∃ m, p.method? id = some m) : ids.length ≤ p.methods.length := by
  have hsub : ids ⊆ p.methods.map (·.id) := by
    intro id hid
    obtain ⟨m, hm⟩ := hlive id hid
    exact List.mem_map.mpr ⟨m, mem_methods_of_method? hm, id_of_method? hm⟩
  calc ids.length ≤ (p.methods.map (·.id)).length := (hnodup.subperm hsub).length_le
    _ = p.methods.length := List.length_map _

theorem pairwise_methods (p : Program) : p.methods.Pairwise (·.id.index < ·.id.index) := by
  rw [methods, List.pairwise_filterMap, List.pairwise_iff_getElem]
  intro i j hi hj hij m hm m' hm'
  have hslot : ∀ k (hk : k < p.methodSlots.toList.length) x, p.methodSlots.toList[k] = some x →
      x.id = ⟨k⟩ := by
    intro k hk x hx
    refine p.slots_numbered k (some x) ?_ x rfl
    rw [← Array.getElem?_toList, List.getElem?_eq_getElem hk, hx]
  rw [hslot i hi m hm, hslot j hj m' hm']
  exact hij

/-! ## Programs from lists of calls -/

/-- A statement that calls the method at a position. -/
def callOf (target : Nat) : Stmt :=
  .eval default (.call default "" none [] (some ⟨target⟩))

/-- A program of one project file with a method for every list, which calls the methods at the
positions in the list. -/
def ofCallLists (lists : List (List Nat)) : Program :=
  lists.foldl (fun p targets =>
    (p.addMethod { name := "", owner := none, file := ⟨0⟩, text := ""
                   body := some (.block default (targets.map callOf)) }).2)
    (Program.empty.addFile ⟨""⟩ none [] .project).2

end KernelLint.Program
