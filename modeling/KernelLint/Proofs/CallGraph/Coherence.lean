import KernelLint.CallGraph.Cache
import KernelLint.Proofs.Program.Edit
import KernelLint.Proofs.Program.Live

/-!
# The cache of scopes over whole runs

A program is edited while scopes are asked for through one cache. The cache is coherent with the
program: its entries belong to the revision last looked at, and as long as the program is still at
that revision, they are what a computation from scratch gives. Edits that count leave this revision
behind, refused edits change nothing, and a look at another revision empties the cache, so coherence
is kept by every step. Hence no stale scope is ever given out, in whatever order edits, questions
and invalidations come.
-/

namespace KernelLint

namespace ScopeCache

/-- What ties a cache to the program it serves. -/
structure Coherent (cache : ScopeCache) (p : Program) : Prop where
  /-- The entries belong to the revision last looked at. -/
  tagged : ∀ e ∈ cache.entries, e.2.scope.revision = cache.revision
  /-- The cache is not ahead of the program. -/
  le_revision : cache.revision ≤ p.revision
  /-- At the revision of the program, the entries are the scopes of live kernels. -/
  computed : cache.revision = p.revision → ∀ e ∈ cache.entries, ∃ kernel,
    p.method? e.1 = some kernel ∧ e.2.scope = p.scopeOf cache.trusted cache.maxDepth kernel

theorem Coherent.of_empty {cache : ScopeCache} {p : Program} (hempty : cache.entries = [])
    (hle : cache.revision ≤ p.revision) : cache.Coherent p := by
  refine ⟨?_, hle, fun _ => ?_⟩ <;> simp [hempty]

theorem Coherent.invalidate {cache : ScopeCache} {p : Program} (h : cache.Coherent p) :
    cache.invalidate.Coherent p :=
  .of_empty rfl h.le_revision

theorem Coherent.edit {cache : ScopeCache} {p : Program} (h : cache.Coherent p) (e : Edit) :
    cache.Coherent (p.edit e) := by
  rcases p.edit_eq_or_revision_edit e with hsame | hnext
  · rw [hsame]
    exact h
  · have hle := h.le_revision
    exact ⟨h.tagged, by omega, fun hrev => by omega⟩

/-! ## Looking at a revision -/

@[simp] theorem revision_sync (cache : ScopeCache) (revision : Nat) :
    (cache.sync revision).revision = revision := by
  unfold sync
  split <;> simp_all

@[simp] theorem trusted_sync (cache : ScopeCache) (revision : Nat) :
    (cache.sync revision).trusted = cache.trusted := by
  unfold sync
  split <;> rfl

@[simp] theorem maxDepth_sync (cache : ScopeCache) (revision : Nat) :
    (cache.sync revision).maxDepth = cache.maxDepth := by
  unfold sync
  split <;> rfl

@[simp] theorem hits_sync (cache : ScopeCache) (revision : Nat) :
    (cache.sync revision).hits = cache.hits := by
  unfold sync
  split <;> rfl

@[simp] theorem misses_sync (cache : ScopeCache) (revision : Nat) :
    (cache.sync revision).misses = cache.misses := by
  unfold sync
  split <;> rfl

theorem sync_of_revision_eq {cache : ScopeCache} {revision : Nat} (h : cache.revision = revision) :
    cache.sync revision = cache :=
  if_pos h

theorem Coherent.sync {cache : ScopeCache} {p : Program} (h : cache.Coherent p) :
    (cache.sync p.revision).Coherent p := by
  by_cases hrev : cache.revision = p.revision
  · rw [sync_of_revision_eq hrev]
    exact h
  · exact .of_empty (by simp [ScopeCache.sync, hrev]) (by simp)

/-! ## Entries -/

theorem mem_entries_of_remembered? {cache : ScopeCache} {id : MethodId} {hit : CachedScope}
    (h : cache.remembered? id = some hit) : (id, hit) ∈ cache.entries := by
  obtain ⟨before, after, hsplit, -⟩ := List.lookup_eq_some_iff.mp h
  rw [hsplit]
  simp

theorem remembered?_compute_self (cache : ScopeCache) (p : Program) (kernel : Method) :
    (cache.compute p kernel).2.remembered? kernel.id = some (cache.compute p kernel).1 := by
  simp [compute, remembered?]

theorem remembered?_compute_of_ne {cache : ScopeCache} {p : Program} {kernel : Method}
    {id : MethodId} (hne : id ≠ kernel.id) :
    (cache.compute p kernel).2.remembered? id = cache.remembered? id := by
  simp only [compute, remembered?]
  rw [List.lookup_cons, beq_false_of_ne hne]
  induction cache.entries with
  | nil => rfl
  | cons e rest ih =>
    by_cases he : e.1 = kernel.id
    · have hid : id ≠ e.1 := by rw [he]; exact hne
      rw [List.filter_cons_of_neg (by simp [he]), List.lookup_cons, beq_false_of_ne hid]
      exact ih
    · rw [List.filter_cons_of_pos (by simp [he]), List.lookup_cons, List.lookup_cons]
      cases id == e.1 with
      | true => rfl
      | false => exact ih

theorem mem_entries_compute {cache : ScopeCache} {p : Program} {kernel : Method}
    {e : MethodId × CachedScope} (h : e ∈ (cache.compute p kernel).2.entries) :
    e = (kernel.id, (cache.compute p kernel).1) ∨ e ∈ cache.entries := by
  rcases List.mem_cons.mp h with rfl | hold
  · exact .inl rfl
  · exact .inr (List.mem_of_mem_filter hold)

/-! ## Asking for a scope -/

/-- What a question does: it looks at the revision and then either finds an entry or computes one.
An entry that is found is never refused, since a coherent cache holds no entry of another
revision. -/
theorem Coherent.resolve_cases {cache : ScopeCache} {p : Program} (h : cache.Coherent p)
    (kernel : Method) :
    (∃ hit, (cache.sync p.revision).remembered? kernel.id = some hit ∧
      cache.resolve p kernel =
        (hit, { cache.sync p.revision with hits := (cache.sync p.revision).hits + 1 })) ∨
    (cache.sync p.revision).remembered? kernel.id = none ∧
      cache.resolve p kernel = (cache.sync p.revision).compute p kernel := by
  cases hentry : (cache.sync p.revision).remembered? kernel.id with
  | none => exact .inr ⟨rfl, by simp [resolve, hentry]⟩
  | some hit =>
    have hrev : hit.scope.revision = p.revision := by
      have htag := h.sync.tagged _ (mem_entries_of_remembered? hentry)
      rwa [revision_sync] at htag
    exact .inl ⟨hit, rfl, by simp [resolve, hentry, hrev]⟩

theorem Coherent.compute {cache : ScopeCache} {p : Program} {kernel : Method} (h : cache.Coherent p)
    (hrev : cache.revision = p.revision) (hlive : p.method? kernel.id = some kernel) :
    (cache.compute p kernel).2.Coherent p := by
  refine ⟨fun e he => ?_, h.le_revision, fun _ e he => ?_⟩
  · rcases mem_entries_compute he with rfl | hold
    · exact hrev.symm
    · exact h.tagged e hold
  · rcases mem_entries_compute he with rfl | hold
    · exact ⟨kernel, hlive, rfl⟩
    · exact h.computed hrev e hold

theorem Coherent.resolve {cache : ScopeCache} {p : Program} {kernel : Method} (h : cache.Coherent p)
    (hlive : p.method? kernel.id = some kernel) : (cache.resolve p kernel).2.Coherent p := by
  rcases h.resolve_cases kernel with ⟨hit, -, heq⟩ | ⟨-, heq⟩
  · rw [heq]
    exact ⟨h.sync.tagged, h.sync.le_revision, h.sync.computed⟩
  · rw [heq]
    exact h.sync.compute (revision_sync ..) hlive

/-- **No stale scope is given out**: the answer is the scope computed from scratch. -/
theorem Coherent.scope_resolve {cache : ScopeCache} {p : Program} {kernel : Method}
    (h : cache.Coherent p) (hlive : p.method? kernel.id = some kernel) :
    (cache.resolve p kernel).1.scope = p.scopeOf cache.trusted cache.maxDepth kernel := by
  rcases h.resolve_cases kernel with ⟨hit, hentry, heq⟩ | ⟨-, heq⟩
  · obtain ⟨k, hk, hscope⟩ :=
      h.sync.computed (revision_sync ..) _ (mem_entries_of_remembered? hentry)
    have hkernel : k = kernel := Option.some.inj (hk.symm.trans hlive)
    rw [heq, hscope, hkernel, trusted_sync, maxDepth_sync]
  · rw [heq]
    simp [ScopeCache.compute]

theorem Coherent.revision_resolve {cache : ScopeCache} {p : Program} (h : cache.Coherent p)
    (kernel : Method) : (cache.resolve p kernel).2.revision = p.revision := by
  rcases h.resolve_cases kernel with ⟨hit, -, heq⟩ | ⟨-, heq⟩
  · rw [heq]
    exact revision_sync ..
  · rw [heq]
    exact revision_sync ..

theorem Coherent.settings_resolve {cache : ScopeCache} {p : Program} (h : cache.Coherent p)
    (kernel : Method) : (cache.resolve p kernel).2.trusted = cache.trusted ∧
      (cache.resolve p kernel).2.maxDepth = cache.maxDepth := by
  rcases h.resolve_cases kernel with ⟨hit, -, heq⟩ | ⟨-, heq⟩
  · rw [heq]
    exact ⟨trusted_sync .., maxDepth_sync ..⟩
  · rw [heq]
    exact ⟨trusted_sync .., maxDepth_sync ..⟩

theorem Coherent.count_resolve {cache : ScopeCache} {p : Program} (h : cache.Coherent p)
    (kernel : Method) : (cache.resolve p kernel).2.hits + (cache.resolve p kernel).2.misses =
      cache.hits + cache.misses + 1 := by
  rcases h.resolve_cases kernel with ⟨hit, -, heq⟩ | ⟨-, heq⟩
  · rw [heq]
    simp only [hits_sync, misses_sync]
    omega
  · rw [heq]
    simp only [ScopeCache.compute, hits_sync, misses_sync]
    omega

theorem Coherent.remembered?_resolve_self {cache : ScopeCache} {p : Program} (h : cache.Coherent p)
    (kernel : Method) :
    (cache.resolve p kernel).2.remembered? kernel.id = some (cache.resolve p kernel).1 := by
  rcases h.resolve_cases kernel with ⟨hit, hentry, heq⟩ | ⟨-, heq⟩
  · rw [heq]
    exact hentry
  · rw [heq]
    exact remembered?_compute_self ..

theorem Coherent.remembered?_resolve {cache : ScopeCache} {p : Program} (h : cache.Coherent p)
    (hrev : cache.revision = p.revision) {id : MethodId} {hit : CachedScope}
    (hentry : cache.remembered? id = some hit) (kernel : Method) :
    (cache.resolve p kernel).2.remembered? id = some hit := by
  have hsync := sync_of_revision_eq hrev
  rcases h.resolve_cases kernel with ⟨hit', -, heq⟩ | ⟨hnone, heq⟩
  · rw [heq, hsync]
    exact hentry
  · rw [hsync] at hnone heq
    have hne : id ≠ kernel.id := by
      rintro rfl
      simp [hnone] at hentry
    rw [heq, remembered?_compute_of_ne hne]
    exact hentry

theorem Coherent.resolve_of_remembered? {cache : ScopeCache} {p : Program} (h : cache.Coherent p)
    (hrev : cache.revision = p.revision) {kernel : Method} {hit : CachedScope}
    (hentry : cache.remembered? kernel.id = some hit) :
    cache.resolve p kernel = (hit, { cache with hits := cache.hits + 1 }) := by
  rcases h.resolve_cases kernel with ⟨hit', hentry', heq⟩ | ⟨hnone, -⟩
  · rw [sync_of_revision_eq hrev] at hentry' heq
    rw [heq, Option.some.inj (hentry'.symm.trans hentry)]
  · rw [sync_of_revision_eq hrev, hentry] at hnone
    cases hnone

/-! ## Scopes that stay known -/

/-- The cache answers with `hit` about the kernel `id` of the program. -/
structure Knows (cache : ScopeCache) (p : Program) (id : MethodId) (hit : CachedScope) : Prop where
  revision_eq : cache.revision = p.revision
  remembered : cache.remembered? id = some hit
  current : hit.scope.revision = p.revision

variable {cache : ScopeCache} {p : Program} {kernel : Method} {id : MethodId} {hit : CachedScope}

theorem resolve_known_or_computed (cache : ScopeCache) (p : Program) (kernel : Method) :
    (∃ hit, (cache.sync p.revision).Knows p kernel.id hit ∧ cache.resolve p kernel =
        (hit, { cache.sync p.revision with hits := (cache.sync p.revision).hits + 1 })) ∨
      cache.resolve p kernel = (cache.sync p.revision).compute p kernel := by
  unfold resolve
  dsimp only
  split
  · rename_i hit hentry
    split
    · rename_i hrev
      exact .inl ⟨hit, ⟨revision_sync .., hentry, hrev⟩, rfl⟩
    · exact .inr rfl
  · exact .inr rfl

theorem Knows.resolve_eq (h : cache.Knows p kernel.id hit) :
    cache.resolve p kernel = (hit, { cache with hits := cache.hits + 1 }) := by
  simp [ScopeCache.resolve, sync_of_revision_eq h.revision_eq, h.remembered, h.current]

theorem knows_resolve (cache : ScopeCache) (p : Program) (kernel : Method) :
    (cache.resolve p kernel).2.Knows p kernel.id (cache.resolve p kernel).1 := by
  rcases cache.resolve_known_or_computed p kernel with ⟨hit, hknows, heq⟩ | heq
  · rw [heq]
    exact ⟨hknows.revision_eq, hknows.remembered, hknows.current⟩
  · rw [heq]
    exact ⟨revision_sync .., remembered?_compute_self .., rfl⟩

theorem Knows.resolve (h : cache.Knows p id hit) (kernel : Method) :
    (cache.resolve p kernel).2.Knows p id hit := by
  by_cases hid : id = kernel.id
  · subst hid
    rw [h.resolve_eq]
    exact ⟨h.revision_eq, h.remembered, h.current⟩
  · have hsync := sync_of_revision_eq h.revision_eq
    rcases cache.resolve_known_or_computed p kernel with ⟨other, -, heq⟩ | heq
    · rw [heq, hsync]
      exact ⟨h.revision_eq, h.remembered, h.current⟩
    · rw [heq, hsync]
      refine ⟨h.revision_eq, ?_, h.current⟩
      rw [remembered?_compute_of_ne hid]
      exact h.remembered

/-! ## Answers that do not depend on other questions -/

theorem scope_resolve_congr {cache' : ScopeCache}
    (hentry : (cache'.sync p.revision).remembered? kernel.id =
      (cache.sync p.revision).remembered? kernel.id)
    (htrusted : cache'.trusted = cache.trusted) (hdepth : cache'.maxDepth = cache.maxDepth) :
    (cache'.resolve p kernel).1.scope = (cache.resolve p kernel).1.scope := by
  have hcomputed : ((cache'.sync p.revision).compute p kernel).1.scope =
      ((cache.sync p.revision).compute p kernel).1.scope := by
    simp only [compute, trusted_sync, maxDepth_sync, htrusted, hdepth]
  unfold resolve
  simp only [hentry]
  split
  · split
    · rfl
    · exact hcomputed
  · exact hcomputed

theorem scope_resolve_resolve (cache : ScopeCache) (p : Program) {other : Method}
    (hsame : other.id = kernel.id → other = kernel) :
    ((cache.resolve p other).2.resolve p kernel).1.scope = (cache.resolve p kernel).1.scope := by
  by_cases hid : kernel.id = other.id
  · rw [hsame hid.symm, (cache.knows_resolve p kernel).resolve_eq]
  · have hsync := sync_of_revision_eq (cache.knows_resolve p other).revision_eq
    rcases cache.resolve_known_or_computed p other with ⟨hit, -, heq⟩ | heq
    · rw [heq] at hsync ⊢
      refine scope_resolve_congr ?_ (trusted_sync ..) (maxDepth_sync ..)
      rw [hsync]
      rfl
    · rw [heq] at hsync ⊢
      refine scope_resolve_congr ?_ (trusted_sync ..) (maxDepth_sync ..)
      rw [hsync, remembered?_compute_of_ne hid]

end ScopeCache

/-! ## Runs -/

/-- A step of the work with a program and its cache. -/
inductive Request where
  | edit (e : Edit)
  /-- Ask for the scope of a live method. -/
  | resolve (kernel : MethodId)
  | invalidate

/-- Does the request ask for a scope? -/
def Request.isResolve : Request → Bool
  | .resolve _ => true
  | _ => false

/-- A program with the one cache that serves it. -/
structure Bench where
  program : Program
  cache : ScopeCache
  /-- The number of scopes asked for so far. -/
  asked : Nat := 0

namespace Bench

/-- A program with a cache that was not used yet. -/
def start (p : Program) (trusted : String) (depth : Nat) : Bench :=
  { program := p, cache := { trusted, maxDepth := depth } }

/-- One step; there is no scope of a method that is not live. -/
def step (b : Bench) : Request → Bench
  | .edit e => { b with program := b.program.edit e }
  | .resolve id =>
    match b.program.method? id with
    | some kernel =>
      { b with cache := (b.cache.resolve b.program kernel).2, asked := b.asked + 1 }
    | none => b
  | .invalidate => { b with cache := b.cache.invalidate }

/-- Steps one after another. -/
def run (b : Bench) (requests : List Request) : Bench := requests.foldl step b

/-- What holds of a program and its cache at every moment of a run. -/
structure Sound (trusted : String) (depth : Nat) (b : Bench) : Prop where
  coherent : b.cache.Coherent b.program
  trusted_eq : b.cache.trusted = trusted
  depth_eq : b.cache.maxDepth = depth
  counted : b.cache.hits + b.cache.misses = b.asked

variable {trusted : String} {depth : Nat} {b : Bench}

theorem step_resolve {id : MethodId} {kernel : Method} (h : b.program.method? id = some kernel) :
    b.step (.resolve id) =
      { b with cache := (b.cache.resolve b.program kernel).2, asked := b.asked + 1 } := by
  simp [step, h]

theorem sound_start (p : Program) : Sound trusted depth (start p trusted depth) :=
  ⟨.of_empty rfl (Nat.zero_le _), rfl, rfl, rfl⟩

theorem Sound.step (h : Sound trusted depth b) (request : Request) :
    Sound trusted depth (b.step request) := by
  cases request with
  | edit e => exact ⟨h.coherent.edit e, h.trusted_eq, h.depth_eq, h.counted⟩
  | invalidate => exact ⟨h.coherent.invalidate, h.trusted_eq, h.depth_eq, h.counted⟩
  | resolve id =>
    cases hlive : b.program.method? id with
    | none =>
      have hsame : b.step (.resolve id) = b := by simp [Bench.step, hlive]
      rw [hsame]
      exact h
    | some kernel =>
      rw [step_resolve hlive]
      obtain ⟨htrusted, hdepth⟩ := h.coherent.settings_resolve kernel
      have hcount := h.coherent.count_resolve kernel
      exact ⟨h.coherent.resolve (Program.method?_self hlive), htrusted.trans h.trusted_eq,
        hdepth.trans h.depth_eq, by rw [hcount, h.counted]⟩

theorem Sound.run (h : Sound trusted depth b) (requests : List Request) :
    Sound trusted depth (b.run requests) := by
  induction requests generalizing b with
  | nil => exact h
  | cons request rest ih => exact ih (h.step request)

/-! ## Runs of questions -/

/-- A scope that is remembered for the current revision of the program. -/
def Remembers (b : Bench) (id : MethodId) (hit : CachedScope) : Prop :=
  b.cache.revision = b.program.revision ∧ b.cache.remembered? id = some hit

theorem Remembers.step {id : MethodId} {hit : CachedScope} (hb : Sound trusted depth b)
    (h : b.Remembers id hit) {request : Request} (hask : request.isResolve) :
    (b.step request).Remembers id hit ∧ (b.step request).program = b.program := by
  cases request with
  | edit e => simp [Request.isResolve] at hask
  | invalidate => simp [Request.isResolve] at hask
  | resolve other =>
    cases hlive : b.program.method? other with
    | none =>
      have hsame : b.step (.resolve other) = b := by simp [Bench.step, hlive]
      rw [hsame]
      exact ⟨h, rfl⟩
    | some kernel =>
      rw [step_resolve hlive]
      exact ⟨⟨hb.coherent.revision_resolve kernel, hb.coherent.remembered?_resolve h.1 h.2 kernel⟩,
        rfl⟩

theorem Remembers.run {id : MethodId} {hit : CachedScope} (hb : Sound trusted depth b)
    (h : b.Remembers id hit) {requests : List Request} (hask : ∀ c ∈ requests, c.isResolve) :
    (b.run requests).Remembers id hit ∧ (b.run requests).program = b.program := by
  induction requests generalizing b with
  | nil => exact ⟨h, rfl⟩
  | cons request rest ih =>
    obtain ⟨hnext, hprogram⟩ := h.step hb (hask request (by simp))
    obtain ⟨hlast, hsame⟩ := ih (hb.step request) hnext fun c hc => hask c (by simp [hc])
    exact ⟨hlast, hsame.trans hprogram⟩

/-- **The cache is coherent over whole runs.** Whatever edits, questions and invalidations went
before, the scope of a live kernel is the one computed from scratch on the program as it is now, it
carries the current revision and so does every entry left in the cache, every question so far was a
hit or a miss, and the same question asked again after nothing but questions is a hit with the very
same answer. -/
theorem resolve_coherent_over_runs (p : Program) (trusted : String) (depth : Nat)
    (requests : List Request) (id : MethodId) (kernel : Method)
    (hlive : ((start p trusted depth).run requests).program.method? id = some kernel) :
    let b := (start p trusted depth).run requests
    let given := (b.cache.resolve b.program kernel).1
    let b' := b.step (.resolve id)
    given.scope = b.program.scopeOf trusted depth kernel ∧
      given.scope.revision = b.program.revision ∧
      (∀ e ∈ b'.cache.entries, e.2.scope.revision = b.program.revision) ∧
      b'.cache.hits + b'.cache.misses = b'.asked ∧
      ∀ questions : List Request, (∀ c ∈ questions, c.isResolve) →
        let later := b'.run questions
        later.cache.resolve later.program kernel =
          (given, { later.cache with hits := later.cache.hits + 1 }) := by
  intro b given b'
  have hb : Sound trusted depth b := (sound_start p).run requests
  have hself : b.program.method? kernel.id = some kernel := Program.method?_self hlive
  have hb' : Sound trusted depth b' := hb.step _
  have hstep :
      b' = { b with cache := (b.cache.resolve b.program kernel).2, asked := b.asked + 1 } :=
    step_resolve hlive
  have hrev : b'.cache.revision = b.program.revision := by
    rw [hstep]
    exact hb.coherent.revision_resolve kernel
  have hscope : given.scope = b.program.scopeOf trusted depth kernel := by
    rw [← hb.trusted_eq, ← hb.depth_eq]
    exact hb.coherent.scope_resolve hself
  refine ⟨hscope, ?_, ?_, hb'.counted, ?_⟩
  · rw [hscope]
    rfl
  · intro e he
    rw [hb'.coherent.tagged e he, hrev]
  · intro questions hask later
    have hremember : b'.Remembers kernel.id given := by
      refine ⟨by rw [hrev, hstep], ?_⟩
      rw [hstep]
      exact hb.coherent.remembered?_resolve_self kernel
    obtain ⟨hlater, -⟩ := hremember.run hb' hask
    exact (hb'.run questions).coherent.resolve_of_remembered? hlater.1 hlater.2

/-- A first method that called the second and now calls the third: the scope follows the edit, and
the refused renaming in between did no harm. -/
theorem resolve_follows_body_edit :
    let b := (start (.ofCallLists [[1], [2], []]) "api." 10).run
      [.resolve ⟨0⟩, .edit (.renameMethod ⟨9⟩ "none"), .resolve ⟨0⟩,
        .edit (.replaceBody ⟨0⟩ (some (Program.callOf 2)) "{ }"), .resolve ⟨1⟩]
    ∃ kernel, b.program.method? ⟨0⟩ = some kernel ∧
      (b.cache.resolve b.program kernel).1.scope.members = [⟨0⟩, ⟨2⟩] := by
  intro b
  refine ⟨_, rfl, ?_⟩
  have h := resolve_coherent_over_runs (.ofCallLists [[1], [2], []]) "api." 10
    [.resolve ⟨0⟩, .edit (.renameMethod ⟨9⟩ "none"), .resolve ⟨0⟩,
      .edit (.replaceBody ⟨0⟩ (some (Program.callOf 2)) "{ }"), .resolve ⟨1⟩] ⟨0⟩ _ rfl
  rw [show (b.cache.resolve b.program _).1.scope = _ from h.1]
  decide

end Bench

end KernelLint
