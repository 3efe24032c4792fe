import KernelLint.Proofs.Catalog
import KernelLint.Proofs.Registry
import KernelLint.Proofs.Rule.Flags
import KernelLint.Proofs.Session

/-!
# What an inspection leaves behind

An inspected kernel is settled: the session keeps its scope, so that it would say the same about the
kernel again, and if a rule flags the kernel, the text of the kernel is in the registry. Inspecting
further kernels unsettles none, whatever state the session is in, as long as no subscriber of the
registry takes texts away. Of a session that serves a program more is known: what it says is what
the rules find from scratch, so a registry whose subscribers only listen gains exactly the texts of
the kernels that are flagged from scratch.
-/

namespace KernelLint.Session

variable {s : Session} {c : Config} {p : Program} {owner : Owner} {k kernel : Method}

/-! ## What is said about a kernel -/

/-- Nothing that was found keeps a kernel from being run. -/
def Clean (found : List Finding) : Prop :=
  ∀ f ∈ found, f.severity ≠ .error ∧ f.rule ≠ .externalLibrary

theorem flagged_iff {rules : List RuleKind} {ctx : RuleContext} : flagged rules ctx = true ↔
    ∃ f ∈ findings rules ctx, f.rule ≠ .nonVoidReturn ∧ f.rule ≠ .unresolvableHelper := by
  simp only [flagged, notices, findings, List.any_eq_true, List.mem_flatMap]
  constructor
  · rintro ⟨n, ⟨rule, hrule, hn⟩, hflags⟩
    obtain ⟨f, hf, heq, -⟩ := RuleKind.finding_of_remark (List.mem_map_of_mem hn)
    refine ⟨f, ⟨rule, hrule, hf⟩, ?_⟩
    rw [heq]
    exact (RuleKind.flags_iff hn).mp hflags
  · rintro ⟨f, ⟨rule, hrule, hf⟩, hflags⟩
    obtain ⟨n, hn, -⟩ := RuleKind.notice_of_finding hf
    rw [(RuleKind.remark_of_finding hf).2.1] at hflags
    exact ⟨n, ⟨rule, hrule, hn⟩, (RuleKind.flags_iff hn).mpr hflags⟩

theorem clean_of_not_flagged {rules : List RuleKind} {ctx : RuleContext}
    (h : flagged rules ctx = false) : Clean (findings rules ctx) := by
  intro f hf
  obtain ⟨rule, hrule, hcheck⟩ := List.mem_flatMap.mp hf
  obtain ⟨n, hn, hremark⟩ := RuleKind.notice_of_finding hcheck
  have hquiet : ¬ n.flags = true := by
    rw [flagged, List.any_eq_false] at h
    exact h n (List.mem_flatMap.mpr ⟨rule, hrule, hn⟩)
  refine ⟨fun herror => hquiet (RuleKind.flags_of_error hn ?_), fun hexternal => hquiet ?_⟩
  · rw [hremark]
    exact herror
  · refine (RuleKind.flags_iff hn).mpr ?_
    rw [← (RuleKind.remark_of_finding hcheck).2.1, hexternal]
    decide

/-- What the rules see of a kernel in the present state of the session. -/
def context (s : Session) (p : Program) (k : Method) : RuleContext :=
  ⟨p, s.config, k, (s.scopes.resolve p k).1.scope⟩

/-- What the session says about a kernel in its present state. -/
def verdict (s : Session) (p : Program) (k : Method) : List Finding :=
  findings s.rules (s.context p k)

theorem found_inspectKernel (s : Session) (p : Program) (owner : Owner) (k : Method) :
    (s.inspectKernel p owner k).1 = s.verdict p k :=
  rfl

@[simp] theorem config_inspectKernel (s : Session) (p : Program) (owner : Owner) (k : Method) :
    (s.inspectKernel p owner k).2.config = s.config :=
  rfl

theorem context_inspectKernel {hit : CachedScope} (h : s.scopes.Knows p k.id hit) (owner : Owner)
    (kernel : Method) : (s.inspectKernel p owner kernel).2.context p k = s.context p k := by
  have hlater : (s.inspectKernel p owner kernel).2.scopes.Knows p k.id hit := h.resolve kernel
  rw [context, context, hlater.resolve_eq, h.resolve_eq]
  rfl

theorem session_inspectKernels_cons (p : Program) (owner : Owner) (k : Method) (rest : List Method)
    (s : Session) : (inspectKernels p owner (k :: rest) s).2 =
      (inspectKernels p owner rest (s.inspectKernel p owner k).2).2 :=
  rfl

/-! ## What becomes of the registry -/

variable {r : Registry} {text : String}

theorem registry_inspectKernel (s : Session) (p : Program) (owner : Owner) (kernel : Method) :
    (s.inspectKernel p owner kernel).2.registry =
      (notices s.rules (s.context p kernel)).foldl (heed owner kernel.text) s.registry :=
  rfl

@[simp] theorem react_heed (owner : Owner) (text : String) (r : Registry) (n : Notice) :
    (heed owner text r n).react = r.react := by
  unfold heed
  split
  · exact Registry.react_add ..
  · rfl

theorem react_heeds (owner : Owner) (text : String) (ns : List Notice) (r : Registry) :
    (ns.foldl (heed owner text) r).react = r.react := by
  induction ns generalizing r with
  | nil => rfl
  | cons n rest ih => rw [List.foldl_cons, ih, react_heed]

theorem react_inspectKernel (s : Session) (p : Program) (owner : Owner) (k : Method) :
    (s.inspectKernel p owner k).2.registry.react = s.registry.react :=
  react_heeds ..

theorem texts_heeds (h : r.Keeps) (owner : Owner) (text : String) (ns : List Notice) :
    r.texts ⊆ (ns.foldl (heed owner text) r).texts := by
  induction ns generalizing r with
  | nil => exact List.Subset.refl _
  | cons n rest ih =>
    have hfirst : r.texts ⊆ (heed owner text r n).texts := by
      unfold heed
      split
      · exact h.texts_add owner text
      · exact List.Subset.refl _
    exact List.Subset.trans hfirst (ih (h.of_react (react_heed owner text r n)))

theorem mem_texts_heeds (h : r.Keeps) (owner : Owner) {ns : List Notice}
    (hflag : ns.any (·.flags) = true) : text ∈ (ns.foldl (heed owner text) r).texts := by
  induction ns generalizing r with
  | nil => cases hflag
  | cons n rest ih =>
    have hnext : (heed owner text r n).Keeps := h.of_react (react_heed owner text r n)
    by_cases hn : n.flags = true
    · refine texts_heeds hnext owner text rest ?_
      rw [heed, if_pos hn]
      exact h.mem_texts_add owner text
    · rw [List.any_cons, Bool.eq_false_iff.mpr hn, Bool.false_or] at hflag
      exact ih hnext hflag

theorem heeds_of_mem (h : text ∈ r.texts) (owner : Owner) (ns : List Notice) :
    ns.foldl (heed owner text) r = r := by
  induction ns with
  | nil => rfl
  | cons n rest ih =>
    have hfirst : heed owner text r n = r := by
      unfold heed
      split
      · exact Registry.add_of_mem h owner
      · rfl
    rw [List.foldl_cons, hfirst, ih]

theorem heeds_eq (h : r.Passive) (owner : Owner) (text : String) (ns : List Notice) :
    ns.foldl (heed owner text) r = if ns.any (·.flags) then (r.add owner text).2 else r := by
  induction ns with
  | nil => rfl
  | cons n rest ih =>
    by_cases hn : n.flags = true
    · have hin : text ∈ (r.add owner text).2.texts := h.keeps.mem_texts_add owner text
      rw [List.foldl_cons, heed, if_pos hn, heeds_of_mem hin, List.any_cons, hn,
        Bool.true_or, if_pos rfl]
    · rw [List.foldl_cons, heed, if_neg hn, ih, List.any_cons, Bool.eq_false_iff.mpr hn,
        Bool.false_or]

/-! ## Settled kernels -/

/-- The session keeps the scope of the kernel, and the kernel is in the registry if it is
flagged. -/
structure Settled (s : Session) (p : Program) (k : Method) : Prop where
  known : ∃ hit, s.scopes.Knows p k.id hit
  registered : flagged s.rules (s.context p k) = true → k.text ∈ s.registry.texts

theorem settled_inspectKernel (h : s.registry.Keeps) (p : Program) (owner : Owner) (k : Method) :
    (s.inspectKernel p owner k).2.Settled p k := by
  have hknows := s.scopes.knows_resolve p k
  have hsame : (s.inspectKernel p owner k).2.context p k = s.context p k := by
    have hagain : (s.inspectKernel p owner k).2.scopes.resolve p k =
        ((s.scopes.resolve p k).1, _) := hknows.resolve_eq
    rw [context, hagain]
    rfl
  refine ⟨⟨_, hknows⟩, fun hflag => ?_⟩
  rw [hsame] at hflag
  exact mem_texts_heeds h owner hflag

theorem Settled.inspectKernel (h : s.Settled p k) (hkeeps : s.registry.Keeps) (owner : Owner)
    (kernel : Method) : (s.inspectKernel p owner kernel).2.Settled p k := by
  obtain ⟨hit, hknows⟩ := h.known
  refine ⟨⟨hit, hknows.resolve kernel⟩, fun hflag => ?_⟩
  rw [context_inspectKernel hknows owner kernel] at hflag
  exact texts_heeds hkeeps owner kernel.text _ (h.registered hflag)

theorem Settled.inspectKernels (h : s.Settled p k) (hkeeps : s.registry.Keeps) (owner : Owner)
    (kernels : List Method) : (inspectKernels p owner kernels s).2.Settled p k := by
  induction kernels generalizing s with
  | nil => exact h
  | cons x rest ih =>
    exact ih (h.inspectKernel hkeeps owner x) (hkeeps.of_react (react_inspectKernel s p owner x))

/-- **Every inspected kernel is settled**, whatever state the session was in, when no subscriber of
its registry takes texts away. -/
theorem settled_inspectKernels {kernels : List Method} (hk : k ∈ kernels)
    (hkeeps : s.registry.Keeps) (owner : Owner) :
    (inspectKernels p owner kernels s).2.Settled p k := by
  induction kernels generalizing s with
  | nil => simp at hk
  | cons x rest ih =>
    have hlater := hkeeps.of_react (react_inspectKernel s p owner x)
    rcases List.mem_cons.mp hk with rfl | hrest
    · exact (settled_inspectKernel hkeeps p owner k).inspectKernels hlater owner rest
    · exact ih hrest hlater

/-! ## Sessions that serve a program -/

theorem Serves.context_eq (h : s.Serves c p) (hlive : p.method? k.id = some k) :
    s.context p k = .ofKernel c p k := by
  have hscope := h.coherent.scope_resolve hlive
  rw [h.trusted_eq, h.depth_eq] at hscope
  rw [context, RuleContext.ofKernel, ← hscope, ← h.config_eq]

theorem Serves.verdict_eq (h : s.Serves c p) (hlive : p.method? k.id = some k) :
    s.verdict p k = findings c.enabledRules (.ofKernel c p k) :=
  h.found_inspectKernel hlive default

theorem Serves.withRegistry (h : s.Serves c p) (registry : Registry) :
    { s with registry }.Serves c p :=
  ⟨h.config_eq, h.rules_eq, h.trusted_eq, h.depth_eq, h.coherent⟩

/-- The texts of the kernels of a file that are flagged from scratch. -/
def flaggedTexts (c : Config) (p : Program) (file : FileId) : List String :=
  ((Catalog.listed c p file).filter fun k =>
    flagged c.enabledRules (.ofKernel c p k)).map (·.text)

theorem mem_flaggedTexts {file : FileId} {text : String} :
    text ∈ flaggedTexts c p file ↔ ∃ k ∈ Catalog.listed c p file,
      flagged c.enabledRules (.ofKernel c p k) = true ∧ text = k.text := by
  simp only [flaggedTexts, List.mem_map, List.mem_filter]
  constructor
  · rintro ⟨k, ⟨hk, hflag⟩, rfl⟩
    exact ⟨k, hk, hflag, rfl⟩
  · rintro ⟨k, hk, hflag, rfl⟩
    exact ⟨k, ⟨hk, hflag⟩, rfl⟩

theorem react_inspectKernels (p : Program) (owner : Owner) (kernels : List Method) (s : Session) :
    (inspectKernels p owner kernels s).2.registry.react = s.registry.react := by
  induction kernels generalizing s with
  | nil => rfl
  | cons k rest ih => rw [session_inspectKernels_cons, ih, react_inspectKernel]

theorem Serves.registry_inspectKernels (h : s.Serves c p) (hpassive : s.registry.Passive)
    {kernels : List Method} (hlive : ∀ k ∈ kernels, p.method? k.id = some k) (owner : Owner) :
    (Session.inspectKernels p owner kernels s).2.registry = s.registry.addAll
      ((kernels.filter fun k => flagged c.enabledRules (.ofKernel c p k)).map
        fun k => (k.text, owner)) := by
  induction kernels generalizing s with
  | nil => rfl
  | cons k rest ih =>
    have hk := hlive k (by simp)
    have hrest := ih (h.inspectKernel hk owner)
      (hpassive.of_react (react_inspectKernel s p owner k)) fun x hx => hlive x (by simp [hx])
    rw [session_inspectKernels_cons, hrest, registry_inspectKernel, h.context_eq hk, h.rules_eq,
      heeds_eq hpassive]
    by_cases hflag : flagged c.enabledRules (.ofKernel c p k) = true
    · rw [List.filter_cons, if_pos hflag, if_pos (show (notices _ _).any _ = true from hflag)]
      rfl
    · rw [List.filter_cons, if_neg hflag, if_neg (show ¬ (notices _ _).any _ = true from hflag)]

/-! ## Whole files -/

/-- The session with its registry moved to the revision of the program. -/
def synced (s : Session) (p : Program) : Session :=
  { s with registry := (s.registry.sync p.revision).2 }

/-- The owner under which the kernels of a file are flagged. -/
def ownerOf (p : Program) (file : FileId) : Owner :=
  ⟨file, ((p.file? file).map (·.path)).getD ⟨""⟩⟩

theorem session_inspectFile_eq (s : Session) (p : Program) (file : FileId) :
    (s.inspectFile p file).2 =
    (inspectKernels p (ownerOf p file) (Catalog.listed s.config p file) (s.synced p)).2 :=
  rfl

theorem react_inspectFile (s : Session) (p : Program) (file : FileId) :
    (s.inspectFile p file).2.registry.react = s.registry.react := by
  rw [session_inspectFile_eq, react_inspectKernels]
  exact Registry.react_sync ..

theorem settled_inspectFile (hkeeps : s.registry.Keeps) {file : FileId}
    (hk : k ∈ Catalog.listed s.config p file) : (s.inspectFile p file).2.Settled p k := by
  rw [session_inspectFile_eq]
  exact settled_inspectKernels hk (hkeeps.of_react (Registry.react_sync ..)) _

theorem Serves.inspectFile (h : s.Serves c p) (file : FileId) :
    (s.inspectFile p file).2.Serves c p := by
  rw [session_inspectFile_eq]
  exact (h.withRegistry _).inspectKernels (fun k hk => Catalog.live_of_mem_listed hk) _

/-- The texts of the kernels of a file that are flagged from scratch, with the owner of the file. -/
def flaggedEntries (c : Config) (p : Program) (file : FileId) : List (String × Owner) :=
  (flaggedTexts c p file).map fun text => (text, ownerOf p file)

/-- **An inspection flags, one after another, the texts that are flagged from scratch**, when the
subscribers only listen. -/
theorem Serves.registry_inspectFile (h : s.Serves c p) (hpassive : s.registry.Passive)
    (file : FileId) : (s.inspectFile p file).2.registry =
      (s.registry.sync p.revision).2.addAll (flaggedEntries c p file) := by
  rw [session_inspectFile_eq, h.config_eq, flaggedEntries, flaggedTexts, List.map_map]
  exact (h.withRegistry _).registry_inspectKernels (hpassive.of_react (Registry.react_sync ..))
    (fun k hk => Catalog.live_of_mem_listed hk) (ownerOf p file)

theorem Serves.revision_inspectFile (h : s.Serves c p) (hpassive : s.registry.Passive)
    (file : FileId) : (s.inspectFile p file).2.registry.revision = p.revision := by
  rw [h.registry_inspectFile hpassive,
    (hpassive.of_react (Registry.react_sync ..)).revision_addAll, Registry.revision_sync]

theorem Serves.mem_texts_inspectFile (h : s.Serves c p) (hpassive : s.registry.Passive)
    {file : FileId} {text : String} : text ∈ (s.inspectFile p file).2.registry.texts ↔
      text ∈ (s.registry.sync p.revision).2.texts ∨ text ∈ flaggedTexts c p file := by
  rw [h.registry_inspectFile hpassive,
    (hpassive.of_react (Registry.react_sync ..)).mem_texts_addAll, flaggedEntries, List.map_map]
  simp

end KernelLint.Session
