import KernelLint.Java.Source
import KernelLint.LocalMemory
import KernelLint.Proofs.Syntax.Declared
import KernelLint.Resolve.Program
import Mathlib.Data.List.Nodup

/-!
# Flows into the sizes of local arrays

The parameters that size local memory against the body of a method. A size takes its value from an
expression if only parentheses, operators before an operand, casts, binary operators and branches of
conditionals lie between the two (`Expr.Feeds`). That expression names a parameter, or a local
variable into which a value flows that takes its own value from a parameter in the same way. There
is no second variable on the way, so variables that are assigned to each other or to themselves do
no harm.
-/

namespace KernelLint

/-- The expression takes its value from the source. -/
inductive Expr.Feeds (source : Expr) : Expr → Prop
  | self : Feeds source source
  | paren {head : Excerpt} {inner : Expr} (h : Feeds source inner) :
      Feeds source (.paren head inner)
  | before {head : Excerpt} {op : String} {operand : Expr} (h : Feeds source operand) :
    Feeds source (.unary head op operand true)
  | cast {head : Excerpt} {type : TypeUse} {operand : Expr} (h : Feeds source operand) :
    Feeds source (.cast head type operand)
  | left {head : Excerpt} {op : String} {left right : Expr} (h : Feeds source left) :
    Feeds source (.binary head op left right)
  | right {head : Excerpt} {op : String} {left right : Expr} (h : Feeds source right) :
    Feeds source (.binary head op left right)
  | whenTrue {head : Excerpt} {c t f : Expr} (h : Feeds source t) :
      Feeds source (.conditional head c t f)
  | whenFalse {head : Excerpt} {c t f : Expr} (h : Feeds source f) :
      Feeds source (.conditional head c t f)

namespace Method

/-- The expression names a parameter of the method that is called `name`. -/
def IsParameter (m : Method) (name : String) (e : Expr) : Prop :=
  ∃ index q, e.nameTarget? = some (.parameter m.id index) ∧ m.params[index]? = some q ∧
    q.name = name

/-- The value flows into the variable that node `x` declares: it is the initializer, or it is
assigned to the variable, by whatever operator, anywhere in the body. -/
inductive Receives (m : Method) (x : NodeId) (value : Expr) : Prop
  | init {l : Local} (inside : m.Holds (.localVar l)) (node : l.node = x)
      (init : l.init = some value)
  | assigned {head : Excerpt} {op : String} {target : Expr}
      (inside : m.Holds (.expr (.assign head op target value)))
      (target_eq : target.strip.nameTarget? = some (.localVar x))

/-- The body allocates a local array of that size through the context. -/
inductive Allocates (m : Method) (p : Program) (contextType : String) (size : Expr) : Prop
  | mk {head : Excerpt} {kind : String} {qualifier : Expr} {rest : List Expr}
      {target : Option MethodId}
      {type : ErasedType} (kind_mem : kind ∈
        ["Float", "Int", "Double", "Long", "Byte", "HalfFloat", "Short"])
      (inside : m.Holds
        (.expr (.call head ("allocate" ++ kind ++ "LocalArray") (some qualifier)
          (size :: rest) target)))
      (typed : p.typeOf? m qualifier = some type) (single : type.dims = 0)
      (context : Text.endsWith type.name contextType = true)

end Method

namespace LocalMemory

variable {m : Method} {onLocal : NodeId → List String} {name : String} {e : Expr} {x : NodeId}

/-- The trace takes up the name at the source: that names the parameter, or a variable that adds the
name. -/
def Finds (m : Method) (onLocal : NodeId → List String) (name : String) (source : Expr) : Prop :=
  m.IsParameter name source ∨ ∃ x, source.nameTarget? = some (.localVar x) ∧ name ∈ onLocal x

theorem Finds.mem_trace {source : Expr} (h : Finds m onLocal name source) :
    name ∈ trace m onLocal source := by
  rcases h with ⟨index, q, htarget, hq, rfl⟩ | ⟨x, htarget, hmem⟩
  · cases source <;> cases htarget
    simp [trace, hq]
  · cases source <;> cases htarget
    simpa [trace] using hmem

theorem mem_trace_of_feeds {source : Expr} (h : source.Feeds e)
    (hfinds : Finds m onLocal name source) :
    name ∈ trace m onLocal e := by
  induction h with
  | self => exact hfinds.mem_trace
  | paren _ ih => simpa [trace] using ih
  | before _ ih => simpa [trace] using ih
  | cast _ ih => simpa [trace] using ih
  | left _ ih => simp [trace, ih]
  | right _ ih => simp [trace, ih]
  | whenTrue _ ih => simp [trace, ih]
  | whenFalse _ ih => simp [trace, ih]

theorem exists_feeds_of_mem_trace (h : name ∈ trace m onLocal e) :
    ∃ source, source.Feeds e ∧ Finds m onLocal name source := by
  fun_induction trace m onLocal e with
  | case1 head id qualifier index =>
    obtain ⟨q, hq, hname⟩ := Option.map_eq_some_iff.mp (Option.mem_toList.mp h)
    exact ⟨_, .self, .inl ⟨index, q, rfl, hq, hname⟩⟩
  | case2 => simp at h
  | case3 head id qualifier node => exact ⟨_, .self, .inr ⟨node, rfl, h⟩⟩
  | case4 => simp at h
  | case5 head inner ih =>
    obtain ⟨source, hfeeds, hfinds⟩ := ih h
    exact ⟨source, hfeeds.paren, hfinds⟩
  | case6 head op operand ih =>
    obtain ⟨source, hfeeds, hfinds⟩ := ih h
    exact ⟨source, hfeeds.before, hfinds⟩
  | case7 => simp at h
  | case8 head type operand ih =>
    obtain ⟨source, hfeeds, hfinds⟩ := ih h
    exact ⟨source, hfeeds.cast, hfinds⟩
  | case9 head op left right ihleft ihright =>
    rcases List.mem_append.mp h with h | h
    · obtain ⟨source, hfeeds, hfinds⟩ := ihleft h
      exact ⟨source, hfeeds.left, hfinds⟩
    · obtain ⟨source, hfeeds, hfinds⟩ := ihright h
      exact ⟨source, hfeeds.right, hfinds⟩
  | case10 head c t f ihtrue ihfalse =>
    rcases List.mem_append.mp h with h | h
    · obtain ⟨source, hfeeds, hfinds⟩ := ihtrue h
      exact ⟨source, hfeeds.whenTrue, hfinds⟩
    · obtain ⟨source, hfeeds, hfinds⟩ := ihfalse h
      exact ⟨source, hfeeds.whenFalse, hfinds⟩
  | case11 => simp at h

/-- **A trace finds what feeds the expression.** -/
theorem mem_trace : name ∈ trace m onLocal e ↔ ∃ source, source.Feeds e ∧
    Finds m onLocal name source :=
  ⟨exists_feeds_of_mem_trace, fun ⟨_, hfeeds, hfinds⟩ => mem_trace_of_feeds hfeeds hfinds⟩

theorem mem_direct : name ∈ direct m e ↔ ∃ source, source.Feeds e ∧ m.IsParameter name source := by
  rw [direct, mem_trace]
  simp [Finds]

theorem assigned?_eq_some {value : Expr} : assigned? x e = some value ↔
    ∃ head op target, e = .assign head op target value ∧
      target.strip.nameTarget? = some (.localVar x) := by
  cases e with
  | assign head op target value' =>
    rw [assigned?]
    by_cases htarget : target.strip.nameTarget? = some (.localVar x)
    · simp [htarget]
    · simp [htarget]
  | _ => simp [assigned?]

theorem local?_of_holds (hnodes : (m.locals.map Local.node).Nodup) {l : Local}
    (h : m.Holds (.localVar l)) :
    Program.local? m l.node = some l := by
  obtain ⟨other, hfound⟩ := Program.exists_local?_of_holds h
  obtain ⟨hholds, hnode⟩ := Program.holds_of_local? hfound
  have heq := List.inj_on_of_nodup_map hnodes (Method.mem_locals.mpr hholds)
    (Method.mem_locals.mpr h) hnode
  rw [hfound, heq]

theorem mem_sources (hnodes : (m.locals.map Local.node).Nodup) {value : Expr} :
    value ∈ sources m x ↔ m.Receives x value := by
  rw [sources, List.mem_append, Option.mem_toList, Option.bind_eq_some_iff, List.mem_filterMap]
  constructor
  · rintro (⟨l, hlocal, hinit⟩ | ⟨e, he, hassigned⟩)
    · obtain ⟨hholds, hnode⟩ := Program.holds_of_local? hlocal
      exact .init hholds hnode hinit
    · obtain ⟨head, op, target, rfl, htarget⟩ := assigned?_eq_some.mp hassigned
      exact .assigned (Method.mem_exprs.mp he) htarget
  · rintro (⟨hholds, rfl, hinit⟩ | ⟨hholds, htarget⟩)
    · exact .inl ⟨_, local?_of_holds hnodes hholds, hinit⟩
    · exact .inr ⟨_, Method.mem_exprs.mpr hholds, assigned?_eq_some.mpr ⟨_, _, _, rfl, htarget⟩⟩

theorem mem_flow (hnodes : (m.locals.map Local.node).Nodup) : name ∈ flow m e ↔
    ∃ source, source.Feeds e ∧ (m.IsParameter name source ∨
      ∃ x value, source.nameTarget? = some (.localVar x) ∧ m.Receives x value ∧
        ∃ origin, origin.Feeds value ∧ m.IsParameter name origin) := by
  rw [flow, mem_trace]
  simp only [Finds, List.mem_flatMap, mem_sources hnodes, mem_direct, exists_and_left]

theorem mem_sortedNames {names : List String} : name ∈ sortedNames names ↔ name ∈ names := by
  rw [sortedNames, List.mem_mergeSort, List.mem_eraseDups]

theorem mem_sizes {p : Program} {contextType : String} {size : Expr} :
    size ∈ (m.calls.filter (isAllocation p contextType m)).filterMap firstArg? ↔
      m.Allocates p contextType size := by
  rw [List.mem_filterMap]
  constructor
  · rintro ⟨call, hcall, hfirst⟩
    obtain ⟨hmem, hallocation⟩ := List.mem_filter.mp hcall
    obtain ⟨hholds, -⟩ := Method.mem_calls.mp hmem
    cases call with
    | call head id qualifier args target =>
      obtain ⟨rest, rfl⟩ : ∃ rest, args = size :: rest := List.head?_eq_some_iff.mp hfirst
      rw [isAllocation, Bool.and_eq_true, List.contains_iff_mem, Option.any_eq_true] at hallocation
      obtain ⟨hname, type, htype, hfits⟩ := hallocation
      obtain ⟨kind, hkind, rfl⟩ := List.mem_map.mp hname
      obtain ⟨q, rfl, htyped⟩ := Option.bind_eq_some_iff.mp htype
      rw [Bool.and_eq_true, decide_eq_true_eq] at hfits
      exact .mk hkind hholds htyped hfits.1 hfits.2
    | _ => cases hfirst
  · rintro ⟨hkind, hholds, htyped, hsingle, hcontext⟩
    refine ⟨_, List.mem_filter.mpr ⟨Method.mem_calls.mpr ⟨hholds, rfl⟩, ?_⟩, rfl⟩
    rw [isAllocation, Bool.and_eq_true, List.contains_iff_mem]
    refine ⟨List.mem_map_of_mem hkind, ?_⟩
    simp [htyped, hsingle, hcontext]

/-- **The parameters that size local memory are those that flow into a size in at most one hop.** In
a method whose local variables are declared by nodes of their own, a name is among them exactly if
the body allocates a local array whose size takes its value from a parameter of that name, or from a
local variable that receives a value which takes its own value from such a parameter. -/
theorem mem_params_iff_oneHop (p : Program) (contextType : String) (m : Method)
    (hnodes : (m.locals.map Local.node).Nodup) (name : String) :
    name ∈ params p contextType m ↔
      ∃ size, m.Allocates p contextType size ∧
        ∃ source, source.Feeds size ∧ (m.IsParameter name source ∨
          ∃ x value, source.nameTarget? = some (.localVar x) ∧ m.Receives x value ∧
            ∃ origin, origin.Feeds value ∧ m.IsParameter name origin) := by
  by_cases hempty : m.params.isEmpty = true
  · -- without parameters no expression names one
    have hnone : ∀ source, ¬ m.IsParameter name source := by
      rintro source ⟨index, q, -, hq, -⟩
      rw [List.isEmpty_iff.mp hempty] at hq
      simp at hq
    simp [params, hempty, hnone]
  · rw [params, if_neg hempty, mem_sortedNames, List.mem_flatMap]
    exact exists_congr fun size => and_congr mem_sizes (mem_flow hnodes)

/-- A kernel that sizes a local array by two variables. One starts as a parameter and is assigned
another one in a loop, the other takes its value from the first. -/
def sizedKernel : Program :=
  (Program.empty.addSource ⟨"K.java"⟩ "import api.KernelContext;
    class K { static void k(KernelContext c, int a, int b, int d) { int n = a; int u = n; while (d > 0) { n += -b; }
      Runnable r = () -> { float[] f = c.allocateFloatLocalArray(n > d ? (int) n : u); }; } }" .project).2.resolve

theorem oneHop_sizedKernel : ∃ m, sizedKernel.method? ⟨0⟩ = some m ∧
    (m.locals.map Local.node).Nodup ∧
    ∀ name, name ∈ ["a", "b"] ↔ ∃ size, m.Allocates sizedKernel "KernelContext" size ∧
      ∃ source, source.Feeds size ∧ (m.IsParameter name source ∨
        ∃ x value, source.nameTarget? = some (.localVar x) ∧ m.Receives x value ∧
          ∃ origin, origin.Feeds value ∧ m.IsParameter name origin) := by
  have hfacts : (sizedKernel.method? ⟨0⟩).any (fun m => (m.locals.map Local.node).Nodup ∧
    ¬ m.params.isEmpty ∧
      ((m.calls.filter (isAllocation sizedKernel "KernelContext" m)).filterMap firstArg?).flatMap
        (flow m) =
        ["a", "b"]) = true := by
    decide +kernel
  rw [Option.any_eq_true] at hfacts
  obtain ⟨m, hm, hfacts⟩ := hfacts
  rw [decide_eq_true_eq] at hfacts
  obtain ⟨hnodes, hparams, hflows⟩ := hfacts
  refine ⟨m, hm, hnodes, fun name => ?_⟩
  rw [← mem_params_iff_oneHop _ _ _ hnodes, params, if_neg hparams, mem_sortedNames, hflows]

end LocalMemory

end KernelLint
