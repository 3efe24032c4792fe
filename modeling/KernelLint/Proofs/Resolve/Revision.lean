import KernelLint.Proofs.CallGraph.Coherence
import KernelLint.Proofs.Registry
import KernelLint.Proofs.Resolve.Traversal

/-!
# What resolution counts

Resolution writes most of what it finds straight into the program: qualified names into signatures,
targets and types into bodies. None of this counts as an edit. What counts is the making of
stand-ins, so the revision after a resolution is the one before it plus the number of entities that
were added (`Counted`). Caches that go by the revision therefore notice a resolution exactly if it
made a stand-in; one that found everything inside the program goes unnoticed, whatever it changed.
-/

namespace KernelLint

namespace Program

/-- The number of entities that a program was ever given. -/
def entityCount (p : Program) : Nat :=
  p.files.size + p.classes.size + p.methodSlots.size + p.fields.size

/-- On the way from `p` to `q` entities were only added, and each of them was counted as one
edit. -/
structure Counted (p q : Program) : Prop where
  entities_le : p.entityCount ≤ q.entityCount
  revision_eq : q.revision = p.revision + (q.entityCount - p.entityCount)

variable {p q r : Program}

theorem Counted.of_same (hentities : q.entityCount = p.entityCount)
    (hrevision : q.revision = p.revision) :
    p.Counted q :=
  ⟨by omega, by omega⟩

theorem Counted.of_one (hentities : q.entityCount = p.entityCount + 1)
    (hrevision : q.revision = p.revision + 1) : p.Counted q :=
  ⟨by omega, by omega⟩

theorem Counted.trans (h : p.Counted q) (h' : q.Counted r) : p.Counted r := by
  have hle := h.entities_le
  have hle' := h'.entities_le
  have hrev := h.revision_eq
  have hrev' := h'.revision_eq
  exact ⟨by omega, by omega⟩

theorem Counted.revision_lt_iff (h : p.Counted q) :
    p.revision < q.revision ↔ p.entityCount < q.entityCount := by
  have hle := h.entities_le
  have hrev := h.revision_eq
  omega

/-! ## One step -/

@[simp] theorem entityCount_modifyClass (p : Program) (id : ClassId) (f : TypeDecl → TypeDecl) :
    (p.modifyClass id f).entityCount = p.entityCount := by
  simp [entityCount, modifyClass]

@[simp] theorem entityCount_modifyFile (p : Program) (id : FileId) (f : SourceFile → SourceFile) :
    (p.modifyFile id f).entityCount = p.entityCount := by
  simp [entityCount, modifyFile]

@[simp] theorem entityCount_linkClass (p : Program) (id : ClassId) (c : TypeDecl) :
    (p.linkClass id c).entityCount = p.entityCount := by
  unfold linkClass
  split <;> simp

@[simp] theorem entityCount_relinkMethod (p : Program) (m : Method)
    (change : List MethodId → List MethodId) :
    (p.relinkMethod m change).entityCount = p.entityCount := by
  unfold relinkMethod
  split <;> simp

theorem entityCount_addFile (p : Program) (path : Path) (package : Option String)
    (imports : List Import) (origin : Origin) :
    (p.addFile path package imports origin).2.entityCount = p.entityCount + 1 := by
  simp only [entityCount, addFile, pushFile, bump, Array.size_push]
  omega

theorem entityCount_addClass (p : Program) (c : TypeDecl) :
    (p.addClass c).2.entityCount = p.entityCount + 1 := by
  have hlink := p.entityCount_linkClass ⟨p.classes.size⟩ c
  simp only [entityCount, addClass, pushClass, bump, Array.size_push] at hlink ⊢
  omega

theorem entityCount_addField (p : Program) (f : Field) :
    (p.addField f).2.entityCount = p.entityCount + 1 := by
  have hlink := p.entityCount_modifyClass f.owner fun c =>
      { c with fields := c.fields ++ [⟨p.fields.size⟩] }
  simp only [entityCount, addField, pushField, bump, Array.size_push] at hlink ⊢
  omega

theorem entityCount_addMethod (p : Program) (m : Method) :
    (p.addMethod m).2.entityCount = p.entityCount + 1 := by
  have hlink := p.entityCount_relinkMethod m (· ++ [⟨p.methodSlots.size⟩])
  simp only [entityCount, addMethod, pushMethod, bump, Array.size_push] at hlink ⊢
  omega

theorem Adding.counted (h : p.Adding q) : p.Counted q := by
  cases h with
  | node => exact .of_same rfl rfl
  | file => exact .of_one (entityCount_addFile ..) rfl
  | standInClass => exact .of_one (entityCount_addClass ..) (by simp [addClass])
  | standInField => exact .of_one (entityCount_addField ..) rfl
  | standInMethod => exact .of_one (entityCount_addMethod ..) (by simp [addMethod])

theorem Resolving.counted (h : p.Resolving q) : p.Counted q := by
  cases h with
  | adding h => exact h.counted
  | body => exact .of_same (by simp [entityCount, modifyMethod]) rfl

/-! ## A whole resolution -/

theorem Resolves.counted (h : p.Resolves q) : p.Counted q := by
  induction h with
  | refl => exact .of_same rfl rfl
  | tail _ hstep ih => exact ih.trans hstep.counted

theorem counted_qualifySignatures (p : Program) : p.Counted p.qualifySignatures :=
  .of_same (by simp [entityCount, qualifySignatures]) rfl

theorem counted_resolve (p : Program) : p.Counted p.resolve :=
  p.counted_qualifySignatures.trans p.resolves_resolve.counted

end Program

/-! ## What caches notice -/

theorem ScopeCache.Coherent.of_revision_lt {cache : ScopeCache} {p q : Program}
    (h : cache.Coherent p) (hlt : p.revision < q.revision) : cache.Coherent q := by
  have hle := h.le_revision
  exact ⟨h.tagged, by omega, fun hrev => by omega⟩

theorem ScopeCache.Knows.of_revision_eq {cache : ScopeCache} {p q : Program} {id : MethodId}
    {hit : CachedScope} (h : cache.Knows p id hit) (hsame : q.revision = p.revision) :
    cache.Knows q id hit :=
  ⟨h.revision_eq.trans hsame.symm, h.remembered, h.current.trans hsame.symm⟩

/-- **Resolution is noticed exactly by its stand-ins.** The revision grows by the number of files,
classes, fields and methods that a resolution adds, and by nothing else. When it adds one, no cache
of scopes and no registry that was up to date before gives out anything from before. When it adds
none, they give out all they know from before, whatever the resolution changed. -/
theorem resolve_noticed_by_standIns (p : Program) :
    let q := p.resolve
    q.revision = p.revision + (q.entityCount - p.entityCount) ∧
    (p.revision < q.revision ↔ p.entityCount < q.entityCount) ∧
    (p.entityCount < q.entityCount →
      (∀ (cache : ScopeCache) (kernel : Method), cache.Coherent p →
        q.method? kernel.id = some kernel →
        (cache.resolve q kernel).1.scope = q.scopeOf cache.trusted cache.maxDepth kernel) ∧
      (∀ registry : Registry, registry.revision ≤ p.revision →
        (registry.sync q.revision).2.texts = [])) ∧
    (q.entityCount = p.entityCount →
      (∀ (cache : ScopeCache) (kernel : Method) (hit : CachedScope), cache.Knows p kernel.id hit →
        (cache.resolve q kernel).1 = hit) ∧
      (∀ registry : Registry, registry.revision = p.revision →
        (registry.sync q.revision).2 = registry)) := by
  intro q
  have hcounted : p.Counted q := p.counted_resolve
  refine ⟨hcounted.revision_eq, hcounted.revision_lt_iff, fun hadded => ?_, fun hnone => ?_⟩
  · have hlt := hcounted.revision_lt_iff.mpr hadded
    refine ⟨fun cache kernel hcache hkernel => ?_, fun registry hregistry => ?_⟩
    · exact (hcache.of_revision_lt hlt).scope_resolve hkernel
    · exact Registry.texts_sync_of_ne (by omega)
  · have hsame : q.revision = p.revision := by
      have hrev := hcounted.revision_eq
      omega
    refine ⟨fun cache kernel hit hknows => ?_, fun registry hregistry => ?_⟩
    · rw [(hknows.of_revision_eq hsame).resolve_eq]
    · exact Registry.sync_of_eq (hregistry.trans hsame.symm)

/-- A class with a method that calls the other one, before anything is resolved. -/
def Program.unlinkedCall : Program :=
  let p := (Program.empty.addFile ⟨"K.java"⟩ none [] .project).2
  let p := (p.addClass { name := "K", qualifiedName := "K", file := ⟨0⟩ }).2
  let p := (p.addMethod { name := "run", owner := some ⟨0⟩, file := ⟨0⟩, text := ""
                          body := some (.eval default (.call default "help" none [] none)) }).2
  (p.addMethod { name := "help", owner := some ⟨0⟩, file := ⟨0⟩, text := ""
                 body := some (.block default []) }).2

/-- There the call finds its target inside the program: the program changes, the revision does not,
and the scope that was computed before is given out again. -/
theorem linked_call_goes_unnoticed :
    let p := Program.unlinkedCall
    let q := p.resolve
    q.revision = p.revision ∧ ∃ before after, p.method? ⟨0⟩ = some before ∧
      q.method? ⟨0⟩ = some after ∧
      before.calls.map Expr.callTarget? = [none] ∧ after.calls.map Expr.callTarget? = [some ⟨1⟩] ∧
      let cache := ((ScopeCache.ofConfig default).resolve p before).2
      (cache.resolve q after).1.scope ≠ q.scopeOf cache.trusted cache.maxDepth after := by
  intro p q
  refine ⟨by decide +kernel, (p.method? ⟨0⟩).get (by decide +kernel),
    (q.method? ⟨0⟩).get (by decide +kernel), by simp, by simp, ?_, ?_, ?_⟩ <;> decide +kernel

end KernelLint
