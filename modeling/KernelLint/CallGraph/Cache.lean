import KernelLint.CallGraph.Scope

/-!
# Scopes remembered

A cache of scopes by kernel. It belongs to one revision of the program: a look at another revision
empties it first, and an entry of another revision is never given out.
-/

namespace KernelLint

/-- A remembered scope, with the number of the computation that made it. -/
structure CachedScope where
  scope : Scope
  serial : Nat
  deriving DecidableEq

/-- The scopes computed so far, with the settings they are computed under. -/
structure ScopeCache where
  maxDepth : Nat := Config.defaultDepth
  trusted : String := Config.defaultTrustedNamespace
  /-- At most one entry for a kernel. -/
  entries : List (MethodId × CachedScope) := []
  /-- The revision last looked at. -/
  revision : Nat := 0
  hits : Nat := 0
  misses : Nat := 0
  deriving DecidableEq

namespace ScopeCache

/-- An empty cache under a configuration. -/
def ofConfig (c : Config) : ScopeCache :=
  { maxDepth := c.maxInlineDepth, trusted := c.trustedNamespace }

def remembered? (cache : ScopeCache) (kernel : MethodId) : Option CachedScope :=
  cache.entries.lookup kernel

/-- Move to a revision, forgetting everything when it is another one. -/
def sync (cache : ScopeCache) (revision : Nat) : ScopeCache :=
  if cache.revision = revision then cache
  else { cache with revision, entries := [] }

/-- Forget every scope. -/
def invalidate (cache : ScopeCache) : ScopeCache := { cache with entries := [] }

/-- Compute the scope of a kernel and remember it. -/
def compute (cache : ScopeCache) (p : Program) (kernel : Method) : CachedScope × ScopeCache :=
  let fresh : CachedScope := ⟨p.scopeOf cache.trusted cache.maxDepth kernel, cache.misses⟩
  let others := cache.entries.filter (·.1 ≠ kernel.id)
  (fresh, { cache with misses := cache.misses + 1, entries := (kernel.id, fresh) :: others })

/-- The scope of a kernel, remembered or computed. -/
def resolve (cache : ScopeCache) (p : Program) (kernel : Method) : CachedScope × ScopeCache :=
  let cache := cache.sync p.revision
  match cache.remembered? kernel.id with
  | some hit =>
    if hit.scope.revision = p.revision then (hit, { cache with hits := cache.hits + 1 })
    else cache.compute p kernel
  | none => cache.compute p kernel

def size (cache : ScopeCache) : Nat := cache.entries.length

end ScopeCache

end KernelLint
