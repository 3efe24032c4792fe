import KernelLint.Proofs.Program.Grounded
import KernelLint.Proofs.Resolve.Growth
import KernelLint.Proofs.Text.Segments

/-!
# What names mean as a program grows

A simple name is looked up in a list of offers: qualified names, some of which stand only if there
is such a class. The list is settled by the classes and imports around the place, which do not
change; only the classes that there are do. So new classes change the meaning of a name if and only
if one of them alone does (`taken_of_single`), and as long as they do not, a name that is qualified
once stays as it is (`qualify_qualify`).
-/

namespace KernelLint

/-- A qualified name that a simple name can stand for: in any case, or if there is such a class. -/
structure Offer where
  qualified : String
  isCertain : Bool

/-- The first offer that stands where there are the given classes. -/
def taken (has : String → Bool) (offers : List Offer) : Option String :=
  (offers.find? fun o => o.isCertain || has o.qualified).map (·.qualified)

theorem taken_append (has : String → Bool) (offers offers' : List Offer) :
    taken has (offers ++ offers') = (taken has offers <|> taken has offers') := by
  rw [taken, taken, taken, List.find?_append]
  cases offers.find? fun o => o.isCertain || has o.qualified <;> rfl

theorem taken_cons (has : String → Bool) (o : Offer) (offers : List Offer) :
    taken has (o :: offers) = if o.isCertain || has o.qualified then some o.qualified
    else taken has offers := by
  rw [taken, List.find?_cons]
  split <;> simp_all [taken]

theorem taken_of_single {has has' : String → Bool} {offers : List Offer}
    (hmore : ∀ n, has n = true → has' n = true) (hsingle : ∀ n, has' n = true → has n = false →
      taken (fun m => has m || decide (m = n)) offers = taken has offers) :
    taken has' offers = taken has offers := by
  induction offers with
  | nil => rfl
  | cons o rest ih =>
    rw [taken_cons, taken_cons]
    by_cases hold : o.isCertain || has o.qualified
    · have hnew : o.isCertain || has' o.qualified := by
        rw [Bool.or_eq_true] at hold ⊢
        exact hold.imp_right (hmore _)
      rw [if_pos hold, if_pos hnew]
    · rw [if_neg hold]
      simp only [Bool.or_eq_true, not_or, Bool.not_eq_true] at hold
      by_cases hnew : has' o.qualified = true
      · have h := hsingle o.qualified hnew hold.2
        rw [taken_cons, taken_cons] at h
        simpa [hold, hnew] using h
      · rw [if_neg (by simp [hold.1, hnew])]
        refine ih fun n hn hnone => ?_
        have hne : o.qualified ≠ n := by
          rintro rfl
          exact hnew hn
        have h := hsingle n hn hnone
        rw [taken_cons, taken_cons] at h
        simpa [hold, hne] using h

/-! ## Offers -/

/-- What a class around a place offers for a name: itself under its own name, else its member of
that name. -/
def TypeDecl.offer (name : String) (c : TypeDecl) : Offer :=
  if c.name = name then ⟨c.qualifiedName, true⟩ else ⟨c.qualifiedName ++ "." ++ name, false⟩

/-- The name as that of a class of the package. -/
def packaged (package : Option String) (name : String) : String :=
  match package with
  | some package => package ++ "." ++ name
  | none => name

/-- What a file offers for a name: its package, an import of that single type, a class that needs no
import, and the imports on demand. -/
def SourceFile.offers (name : String) (f : SourceFile) : List Offer :=
  let packages := (f.imports.filter fun i => i.onDemand && !i.isStatic).map (·.path)
  let certain := (Program.qualifySingle? name f).toList ++ (Library.implicitClass? name).toList
  let fallback := (packages.find? fun package => !Text.startsWith package "java.").toList ++
    packages.head?.toList
  ⟨packaged f.package name, false⟩ :: (certain.map (⟨·, true⟩) ++
    (packages.map (⟨· ++ "." ++ name, false⟩) ++ fallback.map (⟨· ++ "." ++ name, true⟩)))

namespace Program

/-- All that is offered for a name at a place. -/
def offers (p : Program) (name : String) (site : Site) : List Offer :=
  ((p.enclosing site.owner).filterMap fun id => (p.class? id).map (·.offer name)) ++
    ((p.siteFile? site).map (·.offers name)).getD []

variable {p q r : Program}

theorem taken_enclosing (p : Program) (name : String) (ids : List ClassId) :
    taken p.hasClass (ids.filterMap fun id => (p.class? id).map (·.offer name)) =
      (ids.filterMap p.class?).findSome? fun c =>
        if c.name = name then some c.qualifiedName
        else if p.hasClass (c.qualifiedName ++ "." ++ name) then
          some (c.qualifiedName ++ "." ++ name) else none := by
  induction ids with
  | nil => rfl
  | cons id rest ih =>
    cases hc : p.class? id with
    | none => simpa [List.filterMap_cons, hc] using ih
    | some c =>
      simp only [List.filterMap_cons, hc, Option.map_some, List.findSome?_cons, taken_cons, ih]
      by_cases hname : c.name = name
      · simp [TypeDecl.offer, hname]
      · by_cases hnested : p.hasClass (c.qualifiedName ++ "." ++ name) = true <;>
          simp [TypeDecl.offer, hname, hnested]

theorem taken_certain (has : String → Bool) (o : Option String) (offers : List Offer) :
    taken has (o.toList.map (⟨·, true⟩) ++ offers) = (o <|> taken has offers) := by
  cases o with
  | none => rfl
  | some n => simp [taken_cons]

theorem taken_uncertain (has : String → Bool) (names : List String) (offers : List Offer) :
    taken has (names.map (⟨·, false⟩) ++ offers) = (names.find? has <|> taken has offers) := by
  induction names with
  | nil => rfl
  | cons n rest ih =>
    rw [List.map_cons, List.cons_append, taken_cons, ih, List.find?_cons]
    cases h : has n <;> simp

theorem taken_file (p : Program) (name : String) (f : SourceFile) :
    taken p.hasClass (f.offers name) =
      (p.qualifyPackage? name f <|> qualifySingle? name f <|> Library.implicitClass? name <|>
        p.qualifyOnDemand? name f) := by
  let full (package : String) : String := package ++ "." ++ name
  let packages := (f.imports.filter fun i => i.onDemand && !i.isStatic).map (·.path)
  have hfallback : ∀ o : Option String,
    o.toList.map (fun package => (⟨package ++ "." ++ name, true⟩ : Offer)) =
      (o.map full).toList.map (⟨·, true⟩) := by
    intro o
    cases o <;> rfl
  have hondemand :
    taken p.hasClass (packages.map (fun package => ⟨package ++ "." ++ name, false⟩) ++
      ((packages.find? fun package => !Text.startsWith package "java.").toList ++
        packages.head?.toList).map
        fun package => ⟨package ++ "." ++ name, true⟩) = p.qualifyOnDemand? name f := by
    have hpackages : packages.map (fun package => (⟨package ++ "." ++ name, false⟩ : Offer)) =
        (packages.map full).map (⟨·, false⟩) := by simp [full]
    rw [hpackages, taken_uncertain, List.map_append, hfallback, hfallback, taken_certain,
      ← List.append_nil (((packages.head?).map full).toList.map _), taken_certain]
    simp [taken, qualifyOnDemand?, packages, full]
  rw [SourceFile.offers, taken_cons]
  dsimp only
  rw [List.map_append, List.append_assoc, taken_certain, taken_certain, hondemand]
  have hpackage : p.qualifyPackage? name f =
      if p.hasClass (packaged f.package name) then some (packaged f.package name) else none := rfl
  rw [hpackage]
  cases p.hasClass (packaged f.package name) <;> simp

/-- **A simple name means the first offer that stands.** -/
theorem qualifySimple?_eq_taken (p : Program) (name : String) (site : Site) :
    p.qualifySimple? name site = taken p.hasClass (p.offers name site) := by
  rw [offers, taken_append, taken_enclosing, qualifySimple?, qualifyEnclosing?]
  cases p.siteFile? site with
  | none => rfl
  | some f =>
    rw [Option.bind_some, Option.map_some, Option.getD_some, taken_file]

end Program

/-! ## Places stay as they are -/

/-- What a class is looked up by. -/
def TypeDecl.label (c : TypeDecl) : String × String × Option ClassId :=
  (c.name, c.qualifiedName, c.outer)

/-- What a file says about names. -/
def SourceFile.header (f : SourceFile) : Option String × List Import := (f.package, f.imports)

/-- The place is in the program. -/
structure Site.IsIn (site : Site) (p : Program) : Prop where
  file : site.file.index < p.files.size
  owner : ∀ o ∈ site.owner, o.index < p.classes.size

namespace Program

/-- Everything of the first program is in the second one, with the same names. -/
structure Extends (p q : Program) : Prop where
  type : ∀ {id c}, p.class? id = some c → ∃ c', q.class? id = some c' ∧ c'.label = c.label
  file : ∀ {id f}, p.file? id = some f → ∃ f', q.file? id = some f' ∧ f'.header = f.header

variable {p q r : Program}

theorem Grows.extends (h : p.Grows q) : p.Extends q where
  type := by
    intro id c hc
    obtain ⟨c', hc', hgrows⟩ := h.type hc
    exact ⟨c', hc',
      by rw [TypeDecl.label, hgrows.name_eq, hgrows.qualifiedName_eq, hgrows.outer_eq]; rfl⟩
  file := by
    intro id f hf
    obtain ⟨f', hf', hgrows⟩ := h.file hf
    exact ⟨f', hf', by rw [hgrows.same]; rfl⟩

theorem Extends.refl (p : Program) : p.Extends p := (Grows.refl p).extends

theorem Extends.trans (h : p.Extends q) (h' : q.Extends r) : p.Extends r where
  type := by
    intro id c hc
    obtain ⟨c', hc', hlabel⟩ := h.type hc
    obtain ⟨c'', hc'', hlabel'⟩ := h'.type hc'
    exact ⟨c'', hc'', hlabel'.trans hlabel⟩
  file := by
    intro id f hf
    obtain ⟨f', hf', hheader⟩ := h.file hf
    obtain ⟨f'', hf'', hheader'⟩ := h'.file hf'
    exact ⟨f'', hf'', hheader'.trans hheader⟩

theorem exists_class?_of_lt {id : ClassId} (h : id.index < p.classes.size) :
    ∃ c, p.class? id = some c :=
  ⟨_, Array.getElem?_eq_getElem h⟩

theorem exists_file?_of_lt {id : FileId} (h : id.index < p.files.size) : ∃ f, p.file? id = some f :=
  ⟨_, Array.getElem?_eq_getElem h⟩

/-- A class stands inside earlier ones only, so its own position bounds the classes around it. -/
theorem Extends.enclosingUpTo (h : p.Extends q) (hp : p.Grounded) {n n' : Nat} {id : ClassId}
    (hn : id.index < n) (hn' : id.index < n') (hid : id.index < p.classes.size) :
    q.enclosingUpTo n' (some id) = p.enclosingUpTo n (some id) ∧
      ∀ o ∈ p.enclosingUpTo n (some id), o.index < p.classes.size := by
  induction n generalizing n' id with
  | zero => omega
  | succ n ih =>
    obtain ⟨n', rfl⟩ : ∃ k, n' = k + 1 := ⟨n' - 1, by omega⟩
    obtain ⟨c, hc⟩ := exists_class?_of_lt hid
    obtain ⟨c', hc', hlabel⟩ := h.type hc
    have houter : c'.outer = c.outer := congrArg (·.2.2) hlabel
    rw [Program.enclosingUpTo, Program.enclosingUpTo, hc, hc', Option.bind_some,
      Option.bind_some, houter]
    cases hc_outer : c.outer with
    | none =>
      have hnone : ∀ (x : Program) k, x.enclosingUpTo k none = [] := fun x k => by cases k <;> rfl
      simp [hnone, hid]
    | some o =>
      have hlt := (hp.class? hc).outer o hc_outer
      obtain ⟨hsame, hin⟩ := @ih n' o (by omega) (by omega) (by omega)
      rw [hsame, List.forall_mem_cons]
      exact ⟨rfl, hid, hin⟩

theorem Extends.enclosing (h : p.Extends q) (hp : p.Grounded) {owner : Option ClassId}
    (howner : ∀ o ∈ owner, o.index < p.classes.size) :
    q.enclosing owner = p.enclosing owner ∧ ∀ o ∈ p.enclosing owner, o.index < p.classes.size := by
  cases owner with
  | none => exact ⟨rfl, by simp [Program.enclosing, Program.enclosingUpTo]⟩
  | some id =>
    have hid := howner id rfl
    obtain ⟨c, hc⟩ := exists_class?_of_lt hid
    obtain ⟨c', hc', -⟩ := h.type hc
    have hid' := index_lt_of_class? hc'
    exact h.enclosingUpTo hp (by omega) (by omega) hid

theorem Extends.siteFile? (h : p.Extends q) (hp : p.Grounded) {site : Site} (hsite : site.IsIn p) :
    q.siteFile? site = q.file? site.file := by
  obtain ⟨hsame, hin⟩ := h.enclosing hp hsite.owner
  refine if_pos ?_
  rw [hsame, List.all_eq_true]
  intro o ho
  obtain ⟨c, hc⟩ := exists_class?_of_lt (hin o ho)
  obtain ⟨c', hc', -⟩ := h.type hc
  simp [hc']

theorem Extends.offers (h : p.Extends q) (hp : p.Grounded) {site : Site} (hsite : site.IsIn p)
    (name : String) :
    q.offers name site = p.offers name site := by
  obtain ⟨hsame, hin⟩ := h.enclosing hp hsite.owner
  obtain ⟨f, hf⟩ := exists_file?_of_lt hsite.file
  obtain ⟨f', hf', hheader⟩ := h.file hf
  have hfile : f'.offers name = f.offers name := by
    have hpackage : f'.package = f.package := congrArg (·.1) hheader
    have himports : f'.imports = f.imports := congrArg (·.2) hheader
    simp only [SourceFile.offers, qualifySingle?, hpackage, himports]
  have hclasses : (p.enclosing site.owner).filterMap (fun id => (q.class? id).map (·.offer name)) =
      (p.enclosing site.owner).filterMap fun id => (p.class? id).map (·.offer name) := by
    refine List.filterMap_congr fun id hid => ?_
    obtain ⟨c, hc⟩ := exists_class?_of_lt (hin id hid)
    obtain ⟨c', hc', hlabel⟩ := h.type hc
    have hname : c'.name = c.name := congrArg (·.1) hlabel
    have hqualified : c'.qualifiedName = c.qualifiedName := congrArg (·.2.1) hlabel
    rw [hc, hc', Option.map_some, Option.map_some, TypeDecl.offer, TypeDecl.offer,
      hname, hqualified]
  rw [Program.offers, Program.offers, h.siteFile? hp hsite, (Extends.refl p).siteFile? hp hsite,
    hf, hf', hsame, hclasses, Option.map_some, Option.map_some, hfile]

/-! ## Classes by name -/

theorem hasClass_iff {name : String} :
    p.hasClass name = true ↔ ∃ id c, p.class? id = some c ∧ c.qualifiedName = name := by
  rw [hasClass, findClass?, List.find?_isSome]
  constructor
  · rintro ⟨c, hmem, hname⟩
    obtain ⟨i, hi⟩ := List.mem_iff_getElem?.mp hmem
    rw [Array.getElem?_toList] at hi
    exact ⟨⟨i⟩, c, hi, by simpa using hname⟩
  · rintro ⟨id, c, hc, rfl⟩
    exact ⟨c, Array.mem_toList_iff.mpr (Array.mem_of_getElem? hc), by simp⟩

theorem Extends.hasClass (h : p.Extends q) {name : String} (hname : p.hasClass name = true) :
    q.hasClass name = true := by
  obtain ⟨id, c, hc, hqualified⟩ := hasClass_iff.mp hname
  obtain ⟨c', hc', hlabel⟩ := h.type hc
  exact hasClass_iff.mpr ⟨id, c', hc', (congrArg (·.2.1) hlabel).trans hqualified⟩

theorem Extends.new_of_hasClass (h : p.Extends q) {name : String} (hname : q.hasClass name = true)
    (hnone : p.hasClass name = false) :
    ∃ id c, q.class? id = some c ∧ p.class? id = none ∧ c.qualifiedName = name := by
  obtain ⟨id, c, hc, hqualified⟩ := hasClass_iff.mp hname
  refine ⟨id, c, hc, ?_, hqualified⟩
  cases hold : p.class? id with
  | none => rfl
  | some d =>
    obtain ⟨d', hd', hlabel⟩ := h.type hold
    obtain rfl := Option.some.inj (hd'.symm.trans hc)
    have hyes : p.hasClass name = true :=
      hasClass_iff.mpr ⟨id, d, hold, (congrArg (·.2.1) hlabel).symm.trans hqualified⟩
    rw [hnone] at hyes
    cases hyes

theorem hasClass_addClass (p : Program) (c : TypeDecl) (name : String) :
    (p.addClass c).2.hasClass name = (p.hasClass name || decide (name = c.qualifiedName)) := by
  have hfound : ∀ id, (∃ x, (p.addClass c).2.class? id = some x ∧ x.qualifiedName = name) ↔
      (∃ x, p.class? id = some x ∧ x.qualifiedName = name) ∨ c.qualifiedName = name ∧
        id = ⟨p.classes.size⟩ :=
    fun id => p.exists_class?_addClass id fun _ _ => .rfl
  rw [Bool.eq_iff_iff, Bool.or_eq_true, decide_eq_true_eq, hasClass_iff, hasClass_iff]
  simp only [hfound, exists_or, exists_and_left, exists_eq, and_true, @eq_comm _ name]

theorem hasClass_stubClass (p : Program) (name other : String) :
    (p.stubClass name).2.hasClass other = (p.hasClass other || decide (other = name)) := by
  unfold stubClass
  split
  · rename_i c hfound
    have hname : p.hasClass name = true := by simp [hasClass, hfound]
    by_cases heq : other = name
    · simp [heq, hname]
    · simp [heq]
  · have hsame : p.stubFile.2.hasClass other = p.hasClass other := by
      unfold stubFile
      split <;> rfl
    rw [← hsame]
    exact hasClass_addClass _ _ other

theorem qualifySimple?_stubClass (hp : p.Grounded) {site : Site} (hsite : site.IsIn p)
    {new : String} (hdotted : Text.isDotted new = true) (name : String) :
    (p.stubClass new).2.qualifySimple? name site =
      taken (fun m => p.hasClass m || decide (m = new)) (p.offers name site) := by
  have hextends := (p.adds_stubClass hdotted).grows.extends
  rw [qualifySimple?_eq_taken, hextends.offers hp hsite name]
  congr 1
  exact funext (p.hasClass_stubClass new)

/-- **Names keep their meaning** as a program gets more classes, if each new class alone lets them
keep it. -/
theorem Extends.qualifySimple? (h : p.Extends q) (hp : p.Grounded) {site : Site}
    (hsite : site.IsIn p) {name : String}
    (hsteady : ∀ id c, q.class? id = some c → p.class? id = none →
      Text.isDotted c.qualifiedName = true ∧
      (p.stubClass c.qualifiedName).2.qualifySimple? name site = p.qualifySimple? name site) :
    q.qualifySimple? name site = p.qualifySimple? name site := by
  rw [qualifySimple?_eq_taken, qualifySimple?_eq_taken, h.offers hp hsite]
  refine taken_of_single (fun _ => h.hasClass) fun n hn hnone => ?_
  obtain ⟨id, c, hc, hnew, rfl⟩ := h.new_of_hasClass hn hnone
  obtain ⟨hdotted, hsame⟩ := hsteady id c hc hnew
  rw [qualifySimple?_stubClass hp hsite hdotted, qualifySimple?_eq_taken] at hsame
  exact hsame

/-! ## Qualified names -/

theorem SourceFile.eq_of_undotted_offer {name : String} {f : SourceFile} {o : Offer}
    (ho : o ∈ f.offers name) (hundotted : Text.isDotted o.qualified = false) :
    o.qualified = name := by
  have hdotted : ∀ package, Text.isDotted (package ++ "." ++ name) = true :=
    fun _ => Text.isDotted_qualified ..
  simp only [SourceFile.offers, List.mem_cons, List.mem_append, List.mem_map] at ho
  rcases ho with rfl | ⟨n, hn, rfl⟩ | ⟨package, -, rfl⟩ | ⟨package, -, rfl⟩
  · dsimp only at hundotted ⊢
    unfold packaged at hundotted ⊢
    split at hundotted
    · simp [hdotted] at hundotted
    · rfl
  · dsimp only at hundotted ⊢
    rcases hn with hn | hn
    · obtain ⟨i, hfind, rfl⟩ := Option.map_eq_some_iff.mp (Option.mem_toList.mp hn)
      have hfound := List.find?_some hfind
      simp only [Bool.and_eq_true, decide_eq_true_eq] at hfound
      rw [← hfound.2, Text.lastSegment_of_undotted hundotted]
    · have himplicit := Option.mem_toList.mp hn
      unfold Library.implicitClass? at himplicit
      split at himplicit
      · cases himplicit
        simp [Text.isDotted] at hundotted
      · cases himplicit
  · simp [hdotted] at hundotted
  · simp [hdotted] at hundotted

theorem eq_of_qualifySimple?_undotted (hp : p.Grounded) {name qualified : String} {site : Site}
    (h : p.qualifySimple? name site = some qualified)
    (hundotted : Text.isDotted qualified = false) :
    qualified = name := by
  rw [qualifySimple?_eq_taken] at h
  obtain ⟨o, hfind, rfl⟩ := Option.map_eq_some_iff.mp h
  rcases List.mem_append.mp (List.mem_of_find?_eq_some hfind) with ho | ho
  · obtain ⟨id, -, hoffer⟩ := List.mem_filterMap.mp ho
    obtain ⟨c, hc, rfl⟩ := Option.map_eq_some_iff.mp hoffer
    unfold TypeDecl.offer at hundotted ⊢
    split at hundotted
    · rename_i hname
      rw [if_pos hname, ← hname]
      exact (hp.class? hc).named.resolve_right (by simp [hundotted])
    · simp at hundotted
  · cases hfile : p.siteFile? site with
    | none => simp [hfile] at ho
    | some f => exact SourceFile.eq_of_undotted_offer (by simpa [hfile] using ho) hundotted

theorem qualify_undotted {name : String} {site : Site} (h : Text.isDotted name = false) :
    p.qualify name site =
      if isBuiltinName name || p.hasClass name then name
      else (p.qualifySimple? name site).getD name := by
  rw [qualify, Text.splitFirst?_eq_none h]

theorem qualify_dotted {name : String} {site : Site} (h : Text.isDotted name = true) :
    ∃ rest, name = Text.firstSegment name ++ "." ++ rest ∧ ∀ p : Program, p.qualify name site =
      if isBuiltinName name || p.hasClass name then name
      else if Text.startsUppercase (Text.firstSegment name) then
        ((p.qualifySimple? (Text.firstSegment name) site).map (· ++ "." ++ rest)).getD name
      else name := by
  obtain ⟨rest, hsplit⟩ := Text.splitFirst?_of_dotted h
  refine ⟨rest, (Text.isDotted_of_splitFirst? hsplit).2.2, fun p => ?_⟩
  rw [qualify, hsplit]

theorem qualify_of_rooted {name : String} {site : Site} (hdotted : Text.isDotted name = true)
    (hrooted : Text.startsUppercase (Text.firstSegment name) = true →
      (p.qualifySimple? (Text.firstSegment name) site).getD (Text.firstSegment name) =
        Text.firstSegment name) :
    p.qualify name site = name := by
  obtain ⟨rest, hname, hqualify⟩ := qualify_dotted hdotted
  rw [hqualify p]
  split
  · rfl
  · split
    · rename_i hupper
      have hroot := hrooted hupper
      cases hmeans : p.qualifySimple? (Text.firstSegment name) site with
      | none => rfl
      | some w =>
        rw [hmeans, Option.getD_some] at hroot
        rw [Option.map_some, Option.getD_some, hroot, ← hname]
    · rfl

theorem qualify_of_undotted (hp : p.Grounded) {name : String} {site : Site}
    (hundotted : Text.isDotted (p.qualify name site) = false) : p.qualify name site = name := by
  cases hdotted : Text.isDotted name with
  | true =>
    obtain ⟨rest, -, hqualify⟩ := @qualify_dotted name site hdotted
    rw [hqualify p] at hundotted ⊢
    split
    · rfl
    · rename_i hunknown
      rw [if_neg hunknown] at hundotted
      split
      · rename_i hupper
        rw [if_pos hupper] at hundotted
        cases hmeans : p.qualifySimple? (Text.firstSegment name) site with
        | none => rfl
        | some w => simp [hmeans] at hundotted
      · rfl
  | false =>
    rw [qualify_undotted hdotted] at hundotted ⊢
    split
    · rfl
    · rename_i hunknown
      rw [if_neg hunknown] at hundotted
      cases hmeans : p.qualifySimple? name site with
      | none => rfl
      | some w =>
        rw [hmeans, Option.getD_some] at hundotted
        exact eq_of_qualifySimple?_undotted hp hmeans hundotted

theorem qualify_of_known {name : String} {site : Site}
    (h : (isBuiltinName name || p.hasClass name) = true) :
    p.qualify name site = name := if_pos h

/-- A name that comes from being qualified stays as it is, if its own first segment keeps its
meaning and does not stand for something else. -/
theorem qualify_of_qualified (hp : p.Grounded) (hextends : p.Extends q) {name : String}
    {site : Site} (hsame : q.qualifySimple? (Text.firstSegment (p.qualify name site)) site =
      p.qualifySimple? (Text.firstSegment (p.qualify name site)) site)
    (hrooted : q.hasClass (p.qualify name site) = false →
      Text.isDotted (p.qualify name site) = true →
      Text.startsUppercase (Text.firstSegment (p.qualify name site)) = true →
        (q.qualifySimple? (Text.firstSegment (p.qualify name site)) site).getD
          (Text.firstSegment (p.qualify name site)) = Text.firstSegment (p.qualify name site)) :
    q.qualify (p.qualify name site) site = p.qualify name site := by
  by_cases hknown : (isBuiltinName (p.qualify name site) || q.hasClass (p.qualify name site)) = true
  · exact qualify_of_known hknown
  obtain ⟨-, hnew⟩ : isBuiltinName (p.qualify name site) = false ∧
      q.hasClass (p.qualify name site) = false := by
    simpa using hknown
  cases hdotted : Text.isDotted (p.qualify name site) with
  | true => exact qualify_of_rooted hdotted (hrooted hnew hdotted)
  | false =>
    -- The name was kept, so it meant nothing or itself at the time.
    have hkept := qualify_of_undotted hp hdotted
    rw [hkept] at hsame hdotted hknown ⊢
    rw [Text.firstSegment_of_undotted hdotted] at hsame
    have hunknown : ¬(isBuiltinName name || p.hasClass name) = true := by
      rw [Bool.or_eq_true] at hknown ⊢
      exact fun h => hknown (h.imp_right hextends.hasClass)
    rw [qualify_undotted hdotted, if_neg hunknown] at hkept
    rw [qualify_undotted hdotted, if_neg hknown, hsame]
    exact hkept

/-- **A name that is qualified stays as it is** when it is qualified again, if its first segment
keeps its meaning and the first segment of that meaning stands for itself. -/
theorem qualify_qualify (hp : p.Grounded) (hgrows : p.Extends q) {name : String} {site : Site}
    (hsame : q.qualifySimple? (Text.firstSegment name) site =
      p.qualifySimple? (Text.firstSegment name) site)
    (hrooted : ∀ w, p.qualifySimple? (Text.firstSegment name) site = some w →
      Text.startsUppercase (Text.firstSegment w) = true →
        (q.qualifySimple? (Text.firstSegment w) site).getD (Text.firstSegment w) =
          Text.firstSegment w) :
    q.qualify (p.qualify name site) site = p.qualify name site := by
  by_cases hknown : (isBuiltinName name || p.hasClass name) = true
  · have hknown' : (isBuiltinName name || q.hasClass name) = true := by
      rw [Bool.or_eq_true] at hknown ⊢
      exact hknown.imp_right hgrows.hasClass
    rw [qualify_of_known hknown, qualify_of_known hknown']
  · cases hdotted : Text.isDotted name with
    | true =>
      obtain ⟨rest, hname, hqualify⟩ := @qualify_dotted name site hdotted
      rw [hqualify p, if_neg hknown]
      by_cases hupper : Text.startsUppercase (Text.firstSegment name) = true
      · rw [if_pos hupper]
        cases hmeans : p.qualifySimple? (Text.firstSegment name) site with
        | none =>
          rw [Option.map_none, Option.getD_none]
          exact qualify_of_rooted hdotted fun _ => by rw [hsame, hmeans]; rfl
        | some w =>
          rw [Option.map_some, Option.getD_some]
          refine qualify_of_rooted (Text.isDotted_qualified w rest) ?_
          rw [Text.firstSegment_qualified]
          exact hrooted w hmeans
      · rw [if_neg hupper]
        exact qualify_of_rooted hdotted fun h => absurd h hupper
    | false =>
      rw [Text.firstSegment_of_undotted hdotted] at hsame hrooted
      have hagain : q.qualifySimple? name site = none ∨ q.qualifySimple? name site = some name →
          q.qualify name site = name := by
        intro h
        rw [qualify_undotted hdotted]
        rcases h with h | h <;> simp [h]
      rw [qualify_undotted hdotted, if_neg hknown]
      cases hmeans : p.qualifySimple? name site with
      | none => exact hagain (.inl (hsame.trans hmeans))
      | some w =>
        cases hw : Text.isDotted w with
        | true => exact qualify_of_rooted hw (hrooted w hmeans)
        | false =>
          obtain rfl := eq_of_qualifySimple?_undotted hp hmeans hw
          exact hagain (.inr (hsame.trans hmeans))

end Program

end KernelLint
