import KernelLint.Catalog
import KernelLint.Proofs.Program.Live
import KernelLint.Proofs.Registry

/-!
# Kernels and tasks of a file

The kernels that are listed for a file are live methods of it that carry a mark, and of those with
the same text only the first one is listed. A task stands for a listed kernel that is well formed,
returns nothing and is not flagged.
-/

namespace KernelLint

theorem Program.method?_of_mem_methods {p : Program} {m : Method} (h : m ∈ p.methods) :
    p.method? m.id = some m := by
  rw [methods, List.mem_filterMap] at h
  obtain ⟨slot, hslot, rfl⟩ := h
  obtain ⟨i, hi⟩ := Array.mem_iff_getElem?.mp (Array.mem_toList_iff.mp hslot)
  have hid : m.id = ⟨i⟩ := p.slots_numbered i _ hi m rfl
  rw [method?, hid, hi]
  rfl

namespace Catalog

variable {c : Config} {p : Program} {file : FileId} {m : Method}

theorem distinctTexts_subset (ks : List (Method × Marker)) : distinctTexts ks ⊆ ks := by
  induction ks with
  | nil => exact List.Subset.refl _
  | cons k rest ih =>
    refine List.cons_subset_cons k fun x hx => ?_
    exact ih (List.mem_of_mem_filter hx)

/-- The methods listed as kernels of a file. -/
def listed (c : Config) (p : Program) (file : FileId) : List Method := (kernels c p file).map (·.1)

theorem spec_of_mem_listed (h : m ∈ listed c p file) :
    p.method? m.id = some m ∧ m.file = file ∧ (c.marker? m).isSome := by
  obtain ⟨⟨k, mark⟩, hk, rfl⟩ := List.mem_map.mp h
  obtain ⟨x, hx, hmark⟩ := List.mem_filterMap.mp (distinctTexts_subset _ hk)
  obtain ⟨found, hfound, heq⟩ := Option.map_eq_some_iff.mp hmark
  obtain ⟨rfl, rfl⟩ := Prod.mk.inj heq
  rw [Program.methodsOf, List.mem_filter, decide_eq_true_eq] at hx
  exact ⟨Program.method?_of_mem_methods hx.1, hx.2, by rw [hfound]; rfl⟩

theorem live_of_mem_listed (h : m ∈ listed c p file) : p.method? m.id = some m :=
  (spec_of_mem_listed h).1

/-! ## Each text once -/

theorem pairwise_distinctTexts (ks : List (Method × Marker)) :
    (distinctTexts ks).Pairwise fun a b => a.1.text ≠ b.1.text := by
  induction ks with
  | nil => exact .nil
  | cons k rest ih =>
    refine List.pairwise_cons.mpr ⟨fun x hx => ?_, ih.filter _⟩
    have hother := (List.mem_filter.mp hx).2
    exact Ne.symm (by simpa using hother)

theorem pairwise_listed (c : Config) (p : Program) (file : FileId) :
    (listed c p file).Pairwise fun a b => a.text ≠ b.text := by
  rw [listed, List.pairwise_map]
  exact pairwise_distinctTexts _

theorem nodup_listed (c : Config) (p : Program) (file : FileId) : (listed c p file).Nodup :=
  (pairwise_listed c p file).imp fun hne heq => hne (congrArg Method.text heq)

theorem mem_distinctTexts {ks : List (Method × Marker)} {x : Method × Marker} :
    x ∈ distinctTexts ks ↔ ks.find? (·.1.text = x.1.text) = some x := by
  induction ks with
  | nil => simp [distinctTexts]
  | cons k rest ih =>
    by_cases htext : k.1.text = x.1.text
    · simp [distinctTexts, htext, eq_comm]
    · have hne : x ≠ k := fun heq => htext (congrArg (·.1.text) heq.symm)
      simp [distinctTexts, htext, hne, Ne.symm htext, ih]

/-- The methods of a file that carry a mark. -/
def marked (c : Config) (p : Program) (file : FileId) : List Method :=
  (p.methodsOf file).filter fun m => (c.marker? m).isSome

theorem mem_marked : m ∈ marked c p file ↔
    p.method? m.id = some m ∧ m.file = file ∧ (c.marker? m).isSome := by
  rw [marked, Program.methodsOf, List.mem_filter, List.mem_filter, decide_eq_true_eq, and_assoc]
  exact and_congr_left fun _ => ⟨Program.method?_of_mem_methods, Program.mem_methods_of_method?⟩

theorem pairwise_marked (c : Config) (p : Program) (file : FileId) :
    (marked c p file).Pairwise fun a b => a.id.index < b.id.index :=
  (p.pairwise_methods.filter _).filter _

theorem mem_listed_iff_find? :
    m ∈ listed c p file ↔ (marked c p file).find? (·.text = m.text) = some m := by
  have htest : ∀ (text : String) (a : Method),
      ((c.marker? a).map fun k => (a, k)).any (·.1.text = text) =
        ((c.marker? a).isSome && decide (a.text = text)) := by
    intro text a
    cases c.marker? a <;> simp
  rw [marked, List.find?_filter, listed, kernels, List.mem_map]
  constructor
  · rintro ⟨x, hx, rfl⟩
    rw [mem_distinctTexts, List.find?_filterMap, Option.bind_eq_some_iff] at hx
    obtain ⟨a, ha, hmark⟩ := hx
    obtain ⟨mark, -, rfl⟩ := Option.map_eq_some_iff.mp hmark
    simpa only [htest, Bool.decide_and, Bool.decide_eq_true] using ha
  · intro hfirst
    have hmarked : (c.marker? m).isSome := by simpa using List.find?_some hfirst
    obtain ⟨mark, hmark⟩ := Option.isSome_iff_exists.mp hmarked
    refine ⟨(m, mark), ?_, rfl⟩
    rw [mem_distinctTexts, List.find?_filterMap, Option.bind_eq_some_iff]
    refine ⟨m, ?_, by rw [hmark]; rfl⟩
    simpa only [htest, Bool.decide_and, Bool.decide_eq_true] using hfirst

/-- **A kernel is listed** exactly when it carries a mark and no earlier one of the file has its
text. -/
theorem mem_listed_iff : m ∈ listed c p file ↔
    m ∈ marked c p file ∧ ∀ k ∈ marked c p file, k.text = m.text → m.id.index ≤ k.id.index := by
  have hsorted := pairwise_marked c p file
  rw [mem_listed_iff_find?, List.find?_eq_some_iff_append]
  constructor
  · rintro ⟨-, before, after, hsplit, hbefore⟩
    rw [hsplit] at hsorted ⊢
    obtain ⟨-, hafter, -⟩ := List.pairwise_append.mp hsorted
    refine ⟨by simp, fun k hk htext => ?_⟩
    rcases List.mem_append.mp hk with hk | hk
    · exact absurd htext (by simpa using hbefore k hk)
    · rcases List.mem_cons.mp hk with rfl | hk
      · exact Nat.le_refl _
      · exact Nat.le_of_lt ((List.pairwise_cons.mp hafter).1 k hk)
  · rintro ⟨hm, hfirst⟩
    obtain ⟨before, after, hsplit⟩ := List.append_of_mem hm
    refine ⟨by simp, before, after, hsplit, fun k hk => ?_⟩
    rw [hsplit] at hsorted hfirst
    have hlt := (List.pairwise_append.mp hsorted).2.2 k hk m (by simp)
    have hle := hfirst k (by simp [hk])
    by_cases htext : k.text = m.text
    · have := hle htext
      omega
    · simpa using htext

theorem exists_listed_of_marked (h : m ∈ marked c p file) :
    ∃ k ∈ listed c p file, k.text = m.text := by
  have hsome : ((marked c p file).find? (·.text = m.text)).isSome := by
    rw [List.find?_isSome]
    exact ⟨m, h, by simp⟩
  obtain ⟨k, hk⟩ := Option.isSome_iff_exists.mp hsome
  have htext : k.text = m.text := by simpa using List.find?_some hk
  rw [← htext] at hk
  exact ⟨k, mem_listed_iff_find?.mpr hk, htext⟩

/-- The task that stands for a kernel. -/
def task (c : Config) (p : Program) (m : Method) : Task :=
  ⟨m.id, m.signature, m.span, LocalMemory.params p c.contextType m⟩

theorem tasks_eq (c : Config) (r : Registry) (p : Program) (file : FileId) :
    tasks c r p file = ((listed c p file).filter (isRunnable r)).map (task c p) :=
  rfl

theorem isRunnable_iff {r : Registry} :
    isRunnable r m = true ↔ m.hasErrors = false ∧ m.returnsVoid = true ∧ m.text ∉ r.texts := by
  rw [isRunnable, Bool.and_eq_true, Bool.and_eq_true, Bool.not_eq_true', Bool.not_eq_true',
    ← Bool.not_eq_true (r.contains m.text), Registry.contains_iff, and_assoc]

end Catalog

/-! ## Programs from lists of kernels -/

/-- A kernel of a text, with parameters of the types after that of the context. -/
def Method.kernelOf (text : String) (types : List String) : Method :=
  let param (type : String) : Parameter :=
      { name := "", type := { (default : TypeUse) with type := ⟨type, 0⟩ } }
  { name := "", owner := none, file := ⟨0⟩, text, body := some (.block default [])
    params := (types.cons "uk.ac.manchester.tornado.api.KernelContext").map param
    result := some { (default : TypeUse) with type := ⟨"void", 0⟩ } }

/-- A program with a project file for every list, which holds the methods of the list. -/
def Program.ofFiles (lists : List (List Method)) : Program :=
  lists.foldl (fun p methods =>
    let (file, p) := p.addFile ⟨""⟩ none [] .project
    methods.foldl (fun p m => (p.addMethod { m with file }).2) p) Program.empty

end KernelLint
