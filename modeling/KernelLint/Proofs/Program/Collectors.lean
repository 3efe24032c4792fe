import KernelLint.Proofs.Resolve.Agreement
import KernelLint.Proofs.Syntax.Places

/-!
# Collectors

The calls of a method and the variable that a node declares, against the places of the body. The
calls are the calls at its places, each once and in pre-order. The search for a variable fails
exactly if no place has a variable of the node, and where no node declares two variables it answers
exactly the one at such a place. Bodies of a program that is made from syntax trees are of that sort
(`Program.IsRead.localsApart`).
-/

namespace KernelLint

namespace Method

/-- The node at a place in the body. -/
def nodeAt? (m : Method) (place : List Nat) :
    Option Visit := m.body.bind fun body => (Visit.stmt body).at? place

/-- The call at a place in the body, if one stands there. -/
def callAt? (m : Method) (place : List Nat) : Option Expr := (m.nodeAt? place).bind Visit.call?

/-- The variable at a place in the body, if one stands there. -/
def localAt? (m : Method) (place : List Nat) :
    Option Local := (m.nodeAt? place).bind Visit.localVar?

/-- No node declares variables at two places of the body. -/
def LocalsApart (m : Method) : Prop :=
  ∀ place place' l l', m.localAt? place = some l → m.localAt? place' = some l' → l.node = l'.node →
    place = place'

variable {m : Method}

theorem inPreOrder_visits : InPreOrder m.nodeAt? m.visits := by
  rw [visits, Stmt.visitsOption_eq]
  cases hbody : m.body with
  | none => exact ⟨[], .nil, by simp [nodeAt?, hbody], rfl⟩
  | some body =>
    have hwalk : InPreOrder m.nodeAt? (Visit.walk (.stmt body)) := by
      have hlookup : m.nodeAt? = (Visit.stmt body).at? := by
        funext place
        rw [nodeAt?, hbody, Option.bind_some]
      rw [hlookup]
      exact Visit.inPreOrder_walk _
    simpa using hwalk

theorem inPreOrder_calls : InPreOrder m.callAt? m.calls := inPreOrder_visits.filterMap Visit.call?

theorem inPreOrder_locals : InPreOrder m.localAt? m.locals :=
  inPreOrder_visits.filterMap Visit.localVar?

theorem holds_localVar_iff {l : Local} :
    m.Holds (.localVar l) ↔ ∃ place, m.localAt? place = some l := by
  obtain ⟨places, hlists⟩ := m.inPreOrder_locals
  rw [← mem_locals, hlists.mem_found]

theorem localsApart_of_nodup (h : (m.locals.map Local.node).Nodup) : m.LocalsApart := by
  intro place place' l l' hl hl' hnode
  obtain ⟨places, hlists⟩ := m.inPreOrder_locals
  obtain ⟨i, hplace, hi⟩ := hlists.exists_index hl
  obtain ⟨j, hplace', hj⟩ := hlists.exists_index hl'
  have hsame : (m.locals.map Local.node)[i]? = (m.locals.map Local.node)[j]? := by
    rw [List.getElem?_map, List.getElem?_map, hi, hj, Option.map_some, Option.map_some, hnode]
  have hbound : i < (m.locals.map Local.node).length := by
    rw [List.length_map]
    exact (List.getElem?_eq_some_iff.mp hi).1
  obtain rfl : i = j := (List.getElem?_inj hbound h).mp hsame
  exact Option.some.inj (hplace.symm.trans hplace')

theorem localsApart_of_tidy (h : IsTidy m.visits) : m.LocalsApart := by
  apply localsApart_of_nodup
  have hnodes : m.locals.map Local.node = m.visits.filterMap Visit.declares? := by
    rw [locals, List.map_filterMap]
    rfl
  rw [hnodes]
  exact h.nodup

end Method

namespace Program

variable {m : Method} {id : NodeId} {l : Local}

theorem IsRead.localsApart {p : Program} (hp : p.IsRead) {id : MethodId}
    (hm : p.method? id = some m) : m.LocalsApart :=
  Method.localsApart_of_tidy (hp.tidy id m hm)

theorem local?_eq_none : local? m id = none ↔ ∀ place l, m.localAt? place = some l →
    l.node ≠ id := by
  constructor
  · rintro hnone place l hl rfl
    obtain ⟨l', hl'⟩ := exists_local?_of_holds (Method.holds_localVar_iff.mpr ⟨place, hl⟩)
    rw [hnone] at hl'
    cases hl'
  · intro hnowhere
    by_contra hfound
    obtain ⟨l, hl⟩ := Option.ne_none_iff_exists'.mp hfound
    obtain ⟨hholds, hnode⟩ := holds_of_local? hl
    obtain ⟨place, hplace⟩ := Method.holds_localVar_iff.mp hholds
    exact hnowhere place l hplace hnode

theorem local?_eq_some (hapart : m.LocalsApart) :
    local? m id = some l ↔ ∃ place, m.localAt? place = some l ∧ l.node = id := by
  constructor
  · intro hl
    obtain ⟨hholds, hnode⟩ := holds_of_local? hl
    obtain ⟨place, hplace⟩ := Method.holds_localVar_iff.mp hholds
    exact ⟨place, hplace, hnode⟩
  · rintro ⟨place, hplace, rfl⟩
    obtain ⟨l', hl'⟩ := exists_local?_of_holds (Method.holds_localVar_iff.mpr ⟨place, hplace⟩)
    obtain ⟨hholds, hnode⟩ := holds_of_local? hl'
    obtain ⟨place', hplace'⟩ := Method.holds_localVar_iff.mp hholds
    obtain rfl : place' = place := hapart place' place l' l hplace' hplace hnode
    rw [hl', ← hplace', hplace]

/-- **The collectors are exact.** The calls of a method are the calls at the places of its body, one
for each place and in pre-order, so that a call comes before the calls inside its qualifier and its
arguments. The search for the variable of a node answers nothing exactly if no place has one, and if
variables are apart it answers the one that some place has. -/
theorem collectors_exact (m : Method) :
    (∃ places, ListsAt m.callAt? places m.calls ∧
      ∀ (i j k : Nat) outer inner, places[i]? = some outer →
        places[j]? = some (outer ++ k :: inner) → i < j) ∧
    (∀ id, local? m id = none ↔ ∀ place l, m.localAt? place = some l → l.node ≠ id) ∧
    (m.LocalsApart → ∀ id l, local? m id = some l ↔ ∃ place, m.localAt? place = some l ∧
      l.node = id) := by
  obtain ⟨places, hlists⟩ := m.inPreOrder_calls
  refine ⟨⟨places, hlists, ?_⟩, fun id => local?_eq_none, fun hapart id l => local?_eq_some hapart⟩
  intro i j k outer inner hi hj
  exact hlists.index_lt_inside hi hj

/-- A method with a call in front of a call and inside one, and with variables in an initializer, of
a lambda, in a switch, of a loop, of a resource and of a handler. -/
def crowded : Program :=
  (Program.empty.addSource ⟨"K.java"⟩
    "class K { void k() { f(g()).h(i()); R r = (int b) -> { switch (n) { case 1: int a; } };
    for (int x : n) try (Q q = s()) { } catch (E e) { } } }" .project).2

/-- There each call is listed before the calls in its qualifier and its arguments, each variable is
found under its own node, and nothing is found under the node of a statement. -/
theorem collectors_of_crowded : ∃ m, crowded.method? ⟨0⟩ = some m ∧ m.LocalsApart ∧
    (∃ places, ListsAt m.callAt? places m.calls ∧
      ∀ (i j k : Nat) outer inner, places[i]? = some outer →
        places[j]? = some (outer ++ k :: inner) → i < j) ∧
    m.calls.map Expr.text = ["f(g()).h(i())", "f(g())", "g()", "i()", "s()"] ∧
    m.locals.map Local.name = ["r", "b", "a", "x", "q", "e"] ∧
    (∀ l ∈ m.locals, local? m l.node = some l) ∧ ∀ s ∈ m.stmts, local? m s.node = none := by
  have hfacts : (crowded.method? ⟨0⟩).map (fun m => (m.calls.map Expr.text, m.locals.map Local.name,
      m.stmts.all fun s => m.locals.all fun l => l.node ≠ s.node)) =
        some (["f(g()).h(i())", "f(g())", "g()", "i()", "s()"], ["r", "b", "a", "x", "q", "e"],
          true) := by
    decide +kernel
  obtain ⟨m, hm, hfacts⟩ := Option.map_eq_some_iff.mp hfacts
  obtain ⟨hcalls, hnames, hother⟩ := Prod.mk.inj hfacts |>.imp_right Prod.mk.inj
  have hread : crowded.IsRead := .addTree .empty _ _ _
  have hapart : m.LocalsApart := hread.localsApart hm
  obtain ⟨hlisted, hnone, hsome⟩ := collectors_exact m
  refine ⟨m, hm, hapart, hlisted, hcalls, hnames, fun l hl => ?_,
    fun s hs => (hnone s.node).mpr fun place l hl => ?_⟩
  · obtain ⟨place, hplace⟩ := Method.holds_localVar_iff.mp (Method.mem_locals.mp hl)
    exact (hsome hapart l.node l).mpr ⟨place, hplace, rfl⟩
  · have hmem : l ∈ m.locals := Method.mem_locals.mpr (Method.holds_localVar_iff.mpr ⟨place, hl⟩)
    exact of_decide_eq_true (List.all_eq_true.mp (List.all_eq_true.mp hother s hs) l hmem)

end Program

end KernelLint
