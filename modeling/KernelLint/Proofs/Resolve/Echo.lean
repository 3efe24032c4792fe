import KernelLint.Proofs.Resolve.Lasting
import KernelLint.Proofs.Resolve.Targets

/-!
# Looking things up again

A computation is repeated in the program that the whole resolution leaves, with what it answered in
the place of what it was asked (`Resolve.Echoes`). It answers the same once more and adds nothing,
provided that the names it qualifies keep their meaning and that what it did not find is still not
to be found.
-/

namespace KernelLint

namespace Resolve

/-! ## Repeated computations -/

/-- From the given state, on the way from `p` to `q`, the first computation only adds. The second
one, run in `q`, answers what the first one answered and leaves `q` as it is. -/
structure Echoes {α : Type} (p q : Program) (x y : Resolve α) (s : Resolution) : Prop where
  adds : p.Resolves s.program → s.program.Adds (x s).2.program
  again : p.Resolves s.program → (x s).2.program.Resolves q →
    y ⟨q, s.localTypes⟩ = ((x s).1, ⟨q, (x s).2.localTypes⟩)

variable {α β : Type} {p q : Program} {x y : Resolve α} {f g : α → Resolve β} {s : Resolution}

theorem Echoes.pure (a : α) : Echoes p q (pure a) (pure a) s :=
  ⟨fun _ => .refl s.program, fun _ _ => rfl⟩

theorem Echoes.of_advances (hx : Advances x)
    (h : p.Resolves s.program → s.program.Resolves q → (x s).2.program.Resolves q →
      y ⟨q, s.localTypes⟩ = ((x s).1, ⟨q, (x s).2.localTypes⟩)) : Echoes p q x y s :=
  ⟨fun _ => hx.adds s, fun hs hq => h hs ((hx.adds s).resolves.trans hq) hq⟩

theorem Echoes.of_get {f : Resolution → Resolve α} (hf : Advances (get >>= f))
    (h : p.Resolves s.program → s.program.Resolves q → Echoes p q (f s) (f ⟨q, s.localTypes⟩) s) :
    Echoes p q (get >>= f) (get >>= f) s :=
  .of_advances hf fun hs hresolves hq => (h hs hresolves).again hs hq

theorem Echoes.bind_yields {Q : Program → α → Prop} (hx : Echoes p q x y s) (hyields : Yields p x Q)
    (hf : (∀ r, (x s).2.program.Grows r → Q r (x s).1) →
      Echoes p q (f (x s).1) (g (x s).1) (x s).2) :
    Echoes p q (x >>= f) (y >>= g) s := by
  have hnext : p.Resolves s.program →
      p.Resolves (x s).2.program ∧ Echoes p q (f (x s).1) (g (x s).1) (x s).2 := by
    intro hs
    exact ⟨hs.trans (hx.adds hs).resolves, hf fun r hr => hyields.holds s r hs.grows hr⟩
  refine ⟨fun hs => ?_, fun hs hq => ?_⟩
  · obtain ⟨hs', hthen⟩ := hnext hs
    exact (hx.adds hs).trans (hthen.adds hs')
  · obtain ⟨hs', hthen⟩ := hnext hs
    rw [bind_apply, hx.again hs ((hthen.adds hs').resolves.trans hq)]
    exact hthen.again hs' hq

theorem Echoes.bind (hx : Echoes p q x y s) (hf : Echoes p q (f (x s).1) (g (x s).1) (x s).2) :
    Echoes p q (x >>= f) (y >>= g) s := by
  refine ⟨fun hs => ?_, fun hs hq => ?_⟩
  · exact (hx.adds hs).trans (hf.adds (hs.trans (hx.adds hs).resolves))
  · have hs' := hs.trans (hx.adds hs).resolves
    rw [bind_apply, hx.again hs ((hf.adds hs').resolves.trans hq)]
    exact hf.again hs' hq

theorem Echoes.onProgram {g : Program → α × Program} (hg : ∀ r : Program, r.Adds (g r).2)
    (h : p.Resolves s.program → (g s.program).2.Resolves q → g q = ((g s.program).1, q)) :
    Echoes p q (onProgram g) (Resolve.onProgram g) s := by
  refine ⟨fun _ => hg s.program, fun hs hq => ?_⟩
  change ((g q).1, (⟨(g q).2, s.localTypes⟩ : Resolution)) = _
  rw [h hs hq]
  rfl

theorem Echoes.orElse {first second : Resolve (Option α)} (hfirst : Echoes p q first first s)
    (hsecond : (first s).1 = none → Echoes p q second second (first s).2) :
    Echoes p q (Resolve.orElse first second) (Resolve.orElse first second) s := by
  refine hfirst.bind ?_
  cases hfound : (first s).1 with
  | some a => exact .pure (some a)
  | none => exact hsecond hfound

/-! ## Classes -/

theorem echoes_classByName (name : String) : Echoes p q (classByName name) (classByName name) s :=
  .onProgram (·.adds_classByName name) fun _ hq => Program.classByName_again _ name hq.grows

theorem echoes_objectClass : Echoes p q objectClass objectClass s :=
  .onProgram (fun r => r.adds_stubClass (by decide)) fun _ hq =>
    Program.stubClass_again _ _ hq.grows

theorem echoes_classOfType (t : ErasedType) : Echoes p q (classOfType t) (classOfType t) s := by
  unfold classOfType
  split
  · exact echoes_objectClass.bind (.pure _)
  · split
    · exact .pure none
    · exact echoes_classByName t.name

end Resolve

/-- What there is to know about a place between two programs: nothing refers to what is not there,
and stand-ins keep out of the way of searches for methods. -/
structure Site.Calm (p q : Program) (site : Site) : Prop where
  grounded : p.Grounded
  quiet : p.Quiet q
  isIn : site.IsIn p

theorem Site.IsIn.grows {p r : Program} {site : Site} (h : site.IsIn p) (hgrows : p.Grows r) :
    site.IsIn r where
  file := by
    obtain ⟨f, hf⟩ := Program.exists_file?_of_lt h.file
    obtain ⟨f', hf', -⟩ := hgrows.file hf
    exact (Array.getElem?_eq_some_iff.mp hf').1
  owner := by
    intro o ho
    obtain ⟨c, hc⟩ := Program.exists_class?_of_lt (h.owner o ho)
    obtain ⟨c', hc', -⟩ := hgrows.type hc
    exact Program.index_lt_of_class? hc'

theorem Site.Calm.later {p q r : Program} {site : Site} (h : site.Calm p q)
    (hsteps : p.Resolves r) : site.Calm r q where
  grounded := h.grounded.resolves hsteps
  quiet := h.quiet.later hsteps.grows
  isIn := h.isIn.grows hsteps.grows

namespace Resolve

variable {p q : Program} {site : Site} {s : Resolution}

theorem echoes_superReceiver (h : site.Calm p q) :
    Echoes p q (superReceiver site.owner) (superReceiver site.owner) s := by
  refine .of_get (advances_superReceiver site.owner) fun hs hresolves => ?_
  cases howner : site.owner with
  | none => exact .pure none
  | some o =>
    obtain ⟨c, hc⟩ := Program.exists_class?_of_lt ((h.later hs).isIn.owner o howner)
    obtain ⟨c', hc', hcgrows⟩ := hresolves.grows.type hc
    simp only [Option.bind_some, hc, hc', hcgrows.superName_eq]
    cases c.superName with
    | some name => exact echoes_classByName name
    | none => exact echoes_objectClass.bind (.pure _)

end Resolve

/-! ## Types -/

/-- All targets in the expression are in the program and fit. -/
def Expr.IsAimed (p : Program) (e : Expr) :
    Prop := ∃ scope, ∀ spot ∈ e.spots scope, spot.expr.WellAimed p

namespace Resolution

variable {r q : Program} {owner : Option ClassId} {types : List (NodeId × ErasedType)}

theorem targetType?_again (h : r.Grows q) {head : Excerpt} {id : String} {qualifier : Option Expr}
    {d : Declaration} (haimed : (Expr.name head id qualifier (some d)).WellAimed r) :
    (⟨q, types⟩ : Resolution).targetType? d = (⟨r, types⟩ : Resolution).targetType? d := by
  cases d with
  | method _ => rfl
  | localVar _ => rfl
  | parameter method i =>
    obtain ⟨m, hm, -⟩ := haimed
    obtain ⟨m', hm', hsame, -⟩ := h.method?_of_some hm
    have hparams : m'.params = m.params := by rw [hsame]
    simp only [targetType?, hm, hm', Option.bind_some, hparams]
  | field field =>
    obtain ⟨f, hf, -⟩ := haimed
    simp only [targetType?, hf, h.field hf]
  | type type =>
    obtain ⟨c, hc⟩ := haimed
    obtain ⟨c', hc', hgrows⟩ := h.type hc
    simp only [targetType?, hc, hc', Option.map_some, TypeDecl.type, hgrows.qualifiedName_eq]

theorem selfType?_again (h : r.Grows q) (howner : ∀ o ∈ owner, o.index < r.classes.size)
    (isSuper : Bool) :
    (⟨q, types⟩ : Resolution).selfType? owner isSuper =
      (⟨r, types⟩ : Resolution).selfType? owner isSuper := by
  cases owner with
  | none => rfl
  | some o =>
    obtain ⟨c, hc⟩ := Program.exists_class?_of_lt (howner o rfl)
    obtain ⟨c', hc', hgrows⟩ := h.type hc
    simp only [selfType?, Option.bind_some, hc, hc', TypeDecl.type, hgrows.superName_eq,
      hgrows.qualifiedName_eq]

/-- **Types stay the same**, as long as the targets that they are read off are in the program. -/
theorem typeOf?_again (h : r.Grows q) (howner : ∀ o ∈ owner, o.index < r.classes.size)
    {scope : List Local} :
    (e : Expr) → (∀ spot ∈ e.spots scope, spot.expr.WellAimed r) →
      (⟨q, types⟩ : Resolution).typeOf? owner e = (⟨r, types⟩ : Resolution).typeOf? owner e
  | .literal .., _ => rfl
  | .self _ isSuper, _ => selfType?_again h howner isSuper
  | .name _ _ qualifier (some d), haimed => by
    rw [Expr.spots, List.forall_mem_cons] at haimed
    exact targetType?_again h haimed.1
  | .name _ id (some qualifier) none, haimed => by
    rw [Expr.spots, List.forall_mem_cons, Expr.spotsOption] at haimed
    rw [typeOf?, typeOf?, typeOf?_again h howner qualifier haimed.2]
  | .name _ _ none none, _ => rfl
  | .call _ _ _ _ none, _ => rfl
  | .call _ _ _ _ (some method), haimed => by
    rw [Expr.spots, List.forall_mem_cons] at haimed
    obtain ⟨m, hm, -⟩ := haimed.1
    obtain ⟨m', hm', hsame, -⟩ := h.method?_of_some hm
    have hresult : m'.result = m.result := by rw [hsame]
    simp only [typeOf?, Option.bind_some, hm, hm', hresult]
  | .create .., _ => rfl
  | .cast .., _ => rfl
  | .paren _ inner, haimed => by
    rw [Expr.spots, List.forall_mem_cons] at haimed
    exact typeOf?_again h howner inner haimed.2
  | .assign _ _ target _, haimed => by
    rw [Expr.spots, List.forall_mem_cons, List.forall_mem_append] at haimed
    exact typeOf?_again h howner target haimed.2.1
  | .unary _ op operand _, haimed => by
    rw [Expr.spots, List.forall_mem_cons] at haimed
    rw [typeOf?, typeOf?, typeOf?_again h howner operand haimed.2]
  | .binary _ op left right, haimed => by
    rw [Expr.spots, List.forall_mem_cons, List.forall_mem_append] at haimed
    rw [typeOf?, typeOf?, typeOf?_again h howner left haimed.2.1,
      typeOf?_again h howner right haimed.2.2]
  | .conditional _ _ whenTrue _, haimed => by
    rw [Expr.spots, List.forall_mem_cons, List.forall_mem_append, List.forall_mem_append] at haimed
    exact typeOf?_again h howner whenTrue haimed.2.1.2
  | .index _ array _, haimed => by
    rw [Expr.spots, List.forall_mem_cons, List.forall_mem_append] at haimed
    rw [typeOf?, typeOf?, typeOf?_again h howner array haimed.2.1]
  | .newArray .., _ => rfl
  | .lambda .., _ => rfl
  | .other .., _ => rfl

end Resolution

namespace Resolve

variable {p q : Program} {site : Site} {s : Resolution}

theorem typeOf?_later (h : site.Calm p q) {r : Program} (hr : p.Resolves r)
    (hq : r.Grows q) {e : Expr} (haimed : e.IsAimed r) (types : List (NodeId × ErasedType)) :
    (⟨q, types⟩ : Resolution).typeOf? site.owner e =
      (⟨r, types⟩ : Resolution).typeOf? site.owner e := by
  obtain ⟨scope, haimed⟩ := haimed
  exact Resolution.typeOf?_again hq (h.later hr).isIn.owner e haimed

/-! ## What a qualifier looks into -/

theorem echoes_receiver (h : site.Calm p q) {qualifier : Expr}
    (haimed : qualifier.IsAimed s.program) :
    Echoes p q (receiver qualifier site.owner) (receiver qualifier site.owner) s := by
  have hadvances := advances_receiver qualifier site.owner
  unfold receiver at hadvances ⊢
  revert hadvances
  split <;> intro hadvances
  · exact .pure none
  · exact .pure _
  · exact echoes_superReceiver h
  · refine .of_get hadvances fun hs hresolves => ?_
    rw [typeOf?_later h hs hresolves.grows haimed]
    cases s.typeOf? site.owner qualifier with
    | none => exact .pure none
    | some t => exact echoes_classOfType t

theorem exists_class?_of_classOfType {t : ErasedType} {s : Resolution} {id : ClassId}
    (h : (classOfType t s).1 = some id) : ∃ c, (classOfType t s).2.program.class? id = some c := by
  unfold classOfType at h ⊢
  split at h
  · rename_i hdims
    cases h
    rw [if_pos hdims]
    exact Option.isSome_iff_exists.mp (s.program.class?_stubClass Library.objectClass)
  · rename_i hdims
    rw [if_neg hdims]
    split at h
    · cases h
    · rename_i hknown
      rw [if_neg hknown]
      exact Program.exists_class?_of_classByName h

theorem exists_class?_of_superReceiver {owner : Option ClassId} {s : Resolution} {id : ClassId}
    (h : (superReceiver owner s).1 = some id) :
    ∃ c, (superReceiver owner s).2.program.class? id = some c := by
  simp only [superReceiver, bind_apply, get_apply] at h ⊢
  cases hc : owner.bind s.program.class? with
  | none =>
    rw [hc] at h
    cases h
  | some c =>
    simp only [hc] at h ⊢
    cases hsuper : c.superName with
    | some name =>
      simp only [hsuper] at h ⊢
      exact Program.exists_class?_of_classByName h
    | none =>
      simp only [hsuper] at h ⊢
      cases h
      exact Option.isSome_iff_exists.mp (s.program.class?_stubClass Library.objectClass)

theorem exists_class?_of_receiver {qualifier : Expr} {owner : Option ClassId} {s : Resolution}
    {id : ClassId} (haimed : qualifier.IsAimed s.program)
    (h : (receiver qualifier owner s).1 = some id) :
    ∃ c, (receiver qualifier owner s).2.program.class? id = some c := by
  unfold receiver at h ⊢
  split at h
  · cases h
  · cases h
    obtain ⟨scope, haimed⟩ := haimed
    rw [Expr.spots, List.forall_mem_cons] at haimed
    exact haimed.1
  · exact exists_class?_of_superReceiver h
  · simp only [bind_apply, get_apply] at h ⊢
    cases htype : s.typeOf? owner qualifier with
    | none =>
      rw [htype] at h
      cases h
    | some t =>
      simp only [htype] at h ⊢
      exact exists_class?_of_classOfType h

end Resolve

/-! ## Names -/

namespace Program

variable {p q : Program}

/-- The simple name means the same at the place in all programs on the way, and the first segment of
its meaning stands for itself in the end. -/
structure Steady (p q : Program) (name : String) (site : Site) : Prop where
  same : ∀ {r}, p.Extends r → r.Extends q → r.qualifySimple? name site = p.qualifySimple? name site
  rooted : ∀ w, p.qualifySimple? name site = some w →
    Text.startsUppercase (Text.firstSegment w) = true →
    (q.qualifySimple? (Text.firstSegment w) site).getD (Text.firstSegment w) = Text.firstSegment w

/-- The first segment of a name that was qualified means the same at the place in all programs on
the way, and in the end it does not stand for something else, unless the name is that of a class. -/
structure Rests (p q : Program) (name : String) (site : Site) : Prop where
  same : ∀ {r}, p.Extends r → r.Extends q →
    r.qualifySimple? (Text.firstSegment name) site = p.qualifySimple? (Text.firstSegment name) site
  rooted : q.hasClass name = false → Text.isDotted name = true →
    Text.startsUppercase (Text.firstSegment name) = true →
    (q.qualifySimple? (Text.firstSegment name) site).getD (Text.firstSegment name) =
      Text.firstSegment name

/-- No new class is the member class of that name of any class. -/
def Unnested (p q : Program) (name : String) : Prop :=
  ∀ d ∈ p.newClasses q, ∀ c ∈ q.classes.toList, d.qualifiedName ≠ c.qualifiedName ++ "." ++ name

/-- No new field of that name is in a class that is extended or in one around the place. -/
def Unfielded (p q : Program) (name : String) (site : Site) : Prop :=
  ∀ f ∈ p.newFields q, f.name = name →
    (∀ c ∈ q.classes.toList, q.superClass? c.id ≠ some f.owner) ∧ f.owner ∉ p.enclosing site.owner

instance (p q : Program) (name : String) : Decidable (p.Unnested q name) :=
  inferInstanceAs (Decidable (∀ d ∈ p.newClasses q, ∀ c ∈ q.classes.toList,
    d.qualifiedName ≠ c.qualifiedName ++ "." ++ name))

instance (p q : Program) (name : String) (site : Site) : Decidable (p.Unfielded q name site) :=
  inferInstanceAs (Decidable (∀ f ∈ p.newFields q, f.name = name →
    (∀ c ∈ q.classes.toList, q.superClass? c.id ≠ some f.owner) ∧ f.owner ∉ p.enclosing site.owner))

theorem Unfielded.extended {r : Program} {name : String} {site : Site} (h : p.Unfielded q name site)
    (hgrows : p.Grows r) {id : FieldId} {f : Field} (hf : q.field? id = some f)
    (hnone : r.field? id = none) (hname : f.name = name) :
    (∀ sub, q.superClass? sub ≠ some f.owner) ∧ f.owner ∉ p.enclosing site.owner := by
  have hnew : p.field? id = none := by
    cases hold : p.field? id with
    | none => rfl
    | some g => simp [hgrows.field hold] at hnone
  obtain ⟨hextended, hapart⟩ := h f (mem_newFields.mpr ⟨id, hf, hnew⟩) hname
  refine ⟨fun sub hsub => ?_, hapart⟩
  cases hc : q.class? sub with
  | none => simp [superClass?, hc] at hsub
  | some c =>
    have hid := q.classes_numbered sub.index c hc
    refine hextended c (Array.mem_toList_iff.mpr (Array.mem_of_getElem? hc)) ?_
    rw [hid]
    exact hsub

theorem ownField?_addStubField (p : Program) {owner : ClassId} {c : TypeDecl}
    (hc : p.class? owner = some c) (name : String) (type : ErasedType) :
    (p.addStubField owner name type).2.ownField? owner name =
      some (p.addStubField owner name type).1 :=
  p.freshNode.2.ownField?_addField_self (c := c) hc

theorem Resolves.findField?_eq {r : Program} (h : r.Resolves q) (hr : r.Grounded)
    (hgrows : p.Grows r) {id : ClassId} {name : String} {site : Site}
    (hfields : p.Unfielded q name site)
    (hnew : ∀ fid f, q.field? fid = some f → r.field? fid = none →
      ¬ (id = f.owner ∧ name = f.name)) :
    q.findField? id name = r.findField? id name := by
  cases hfound : r.findField? id name with
  | some field => exact Resolves.findField? hr h hfound
  | none =>
    exact h.findFieldUpTo_eq_none hr hfound
      (fun _ _ hf hnone hname => (hfields.extended hgrows hf hnone hname).1) hnew

end Program

namespace Resolve

variable {p q : Program} {site : Site} {s : Resolution}

theorem echoes_type (name : String) :
    Echoes p q (do return (← classByName name).map Declaration.type)
      (do return (← classByName name).map Declaration.type) s :=
  (echoes_classByName name).bind (.pure _)

theorem echoes_classNamed {name : String}
    (hsteady : Text.startsUppercase name = true → p.Steady q name site) :
    Echoes p q (classNamed name site) (classNamed name site) s := by
  have hadvances := advances_classNamed name site
  unfold classNamed at hadvances ⊢
  cases hupper : Text.startsUppercase name with
  | false => exact .pure none
  | true =>
    rw [hupper] at hadvances
    refine .of_get hadvances fun hs hresolves => ?_
    have hthen := (hsteady hupper).same hs.grows.extends hresolves.grows.extends
    have hnow := (hsteady hupper).same (hs.trans hresolves).grows.extends (.refl q)
    rw [hthen, hnow]
    cases p.qualifySimple? name site with
    | none => exact .pure none
    | some w => exact echoes_type w

theorem findSome?_congr {α β : Type} {f g : α → Option β} {xs : List α} (h : ∀ x ∈ xs, f x = g x) :
    xs.findSome? f = xs.findSome? g := by
  induction xs with
  | nil => rfl
  | cons x rest ih =>
    obtain ⟨hx, hrest⟩ := List.forall_mem_cons.mp h
    rw [List.findSome?_cons, List.findSome?_cons, hx, ih hrest]

theorem findSome?_enclosing (h : site.Calm p q) {r : Program} (hr : p.Resolves r)
    (hq : r.Resolves q) {name : String} (hfields : p.Unfielded q name site) :
    (q.enclosing site.owner).findSome? (q.findField? · name) =
      (r.enclosing site.owner).findSome? (r.findField? · name) := by
  have hcalm := h.later hr
  have hsame := (hr.grows.extends.enclosing h.grounded h.isIn.owner).1
  rw [(hq.grows.extends.enclosing hcalm.grounded hcalm.isIn.owner).1]
  refine findSome?_congr fun id hid => ?_
  refine hq.findField?_eq hcalm.grounded hr.grows hfields fun fid f hf hnone heq => ?_
  refine (hfields.extended hr.grows hf hnone heq.2.symm).2 ?_
  rw [← hsame, ← heq.1]
  exact hid

/-- No new field or class is what the name should have denoted. A variable in scope comes before all
fields, and a field that a qualified name denotes is there for good. -/
def Unmissed (p q : Program) (site : Site) (name : String) (qualifier : Option Expr) :
    Option Declaration → Prop
  | some (.localVar _) => True
  | some (.parameter _ _) => True
  | some (.field _) => qualifier.isNone = true → p.Unfielded q name site
  | some _ => p.Unfielded q name site
  | none => p.Unfielded q name site ∧ (qualifier.isSome = true → p.Unnested q name)

instance (p q : Program) (site : Site) (name : String) (qualifier : Option Expr) :
    (target : Option Declaration) → Decidable (Unmissed p q site name qualifier target)
  | some (.localVar _) => inferInstanceAs (Decidable True)
  | some (.parameter _ _) => inferInstanceAs (Decidable True)
  | some (.field _) => inferInstanceAs
      (Decidable (qualifier.isNone = true → p.Unfielded q name site))
  | some (.type _) => inferInstanceAs (Decidable (p.Unfielded q name site))
  | some (.method _) => inferInstanceAs (Decidable (p.Unfielded q name site))
  | none => inferInstanceAs (Decidable (p.Unfielded q name site ∧
      (qualifier.isSome = true → p.Unnested q name)))

theorem unfielded_of_unmissed {name : String} {found : Option ClassId}
    (h : Unmissed p q site name none (found.map .type)) : p.Unfielded q name site := by
  cases found with
  | none => exact h.1
  | some id => exact h

theorem exists_type_of_classNamed (name : String) (site : Site) (s : Resolution) :
    ∃ found : Option ClassId, (classNamed name site s).1 = found.map .type := by
  unfold classNamed
  split
  · exact ⟨none, rfl⟩
  · rw [bind_apply, get_apply]
    cases s.program.qualifySimple? name site with
    | none => exact ⟨none, rfl⟩
    | some w => exact ⟨_, rfl⟩

theorem echoes_simpleTarget (h : site.Calm p q) {name : String} (names : Names)
    (hsteady : Text.startsUppercase name = true → p.Steady q name site)
    (hunmissed : Unmissed p q site name none (simpleTarget name names site s).1) :
    Echoes p q (simpleTarget name names site) (simpleTarget name names site) s := by
  refine .of_get (advances_simpleTarget name names site) fun hs hresolves => ?_
  rw [simpleTarget, bind_apply, get_apply] at hunmissed
  dsimp only at hunmissed ⊢
  cases hlookup : names.lookup name with
  | some d => exact .pure _
  | none =>
    rw [hlookup] at hunmissed
    cases hfield : (s.program.enclosing site.owner).findSome? (s.program.findField? · name) with
    | some f =>
      simp only [hfield] at hunmissed ⊢
      rw [findSome?_enclosing h hs hresolves (hunmissed rfl), hfield]
      exact .pure _
    | none =>
      simp only [hfield] at hunmissed ⊢
      obtain ⟨found, hfound⟩ := exists_type_of_classNamed name site s
      rw [hfound] at hunmissed
      rw [findSome?_enclosing h hs hresolves (unfielded_of_unmissed hunmissed), hfield]
      exact echoes_classNamed hsteady

theorem echoes_memberTarget (h : site.Calm p q) {id : ClassId} {c : TypeDecl}
    (hc : s.program.class? id = some c) {name : String} {qualifier : Expr}
    (hunmissed : Unmissed p q site name (some qualifier) (memberTarget id name s).1) :
    Echoes p q (memberTarget id name) (memberTarget id name) s := by
  refine .of_advances (advances_memberTarget id name) fun hs hresolves hq => ?_
  have hcalm := h.later hs
  obtain ⟨c', hc', hcgrows⟩ := hresolves.grows.type hc
  simp only [memberTarget, bind_apply, get_apply] at hq hunmissed ⊢
  cases hfield : s.program.findField? id name with
  | some f =>
    rw [hresolves.findField? hcalm.grounded hfield]
    rfl
  | none =>
    simp only [hfield, hc] at hq hunmissed ⊢
    cases hknown : Library.staticFieldType? c.qualifiedName name with
    | some type =>
      -- The field that was made is the one to be found from now on.
      simp only [hknown] at hq ⊢
      have hadds := s.program.adds_addStubField hc hfield hknown
      have hmade : (s.program.addStubField id name type).2.findField? id name =
          some (s.program.addStubField id name type).1 := by
        rw [Program.findField?, Program.chainLimit, Program.findFieldUpTo,
          Program.ownField?_addStubField _ hc name type]
        rfl
      have hagain := Program.Resolves.findField? (hcalm.grounded.resolves hadds.resolves) hq hmade
      rw [hagain]
      rfl
    | none =>
      simp only [hknown] at hunmissed ⊢
      have hfields : p.Unfielded q name site := by
        revert hunmissed
        cases s.program.findClass? (c.qualifiedName ++ "." ++ name) with
        | none => exact fun hunmissed => hunmissed.1
        | some d => exact fun hunmissed => hunmissed
      -- A new field of the class would be a known one.
      have hnone : q.findField? id name = none := by
        rw [hresolves.findField?_eq hcalm.grounded hs.grows hfields, hfield]
        rintro fid f hf hnone ⟨rfl, rfl⟩
        obtain ⟨-, d, hd, hfknown⟩ := hresolves.grows.newField hf hnone
        obtain rfl := Option.some.inj (hd.symm.trans hc')
        rw [hcgrows.qualifiedName_eq, hknown] at hfknown
        cases hfknown
      simp only [hnone, hc', hcgrows.qualifiedName_eq, hknown]
      cases hnested : s.program.findClass? (c.qualifiedName ++ "." ++ name) with
      | some d =>
        obtain ⟨d', hd', hdgrows⟩ := hresolves.grows.findClass? hnested
        rw [hd', Option.map_some, hdgrows.id_eq]
        rfl
      | none =>
        rw [hnested] at hunmissed
        cases hnew : q.findClass? (c.qualifiedName ++ "." ++ name) with
        | none => rfl
        | some d =>
          obtain ⟨hd, hqualified⟩ := Program.class?_of_findClass? hnew
          have hmade : p.class? d.id = none := by
            cases hold : p.class? d.id with
            | none => rfl
            | some x =>
              obtain ⟨y, hy, -⟩ := hs.grows.type hold
              rw [hresolves.grows.new_of_findClass? hnew hnested] at hy
              cases hy
          rw [← hcgrows.qualifiedName_eq] at hqualified
          have hmem : c' ∈ q.classes.toList := Array.mem_toList_iff.mpr (Array.mem_of_getElem? hc')
          exact absurd hqualified (hunmissed.2 rfl d
            (Program.mem_newClasses.mpr ⟨d.id, hd, hmade⟩) c' hmem)

theorem echoes_memberOf (h : site.Calm p q) {qualifier : Expr}
    (haimed : qualifier.IsAimed s.program) {name : String} (text : String)
    (hunmissed : Unmissed p q site name (some qualifier) (memberOf qualifier name text site s).1) :
    Echoes p q (memberOf qualifier name text site) (memberOf qualifier name text site) s := by
  refine (echoes_receiver h haimed).bind ?_
  rw [memberOf, bind_apply] at hunmissed
  cases hfound : (receiver qualifier site.owner s).1 with
  | some id =>
    rw [hfound] at hunmissed
    obtain ⟨c, hc⟩ := exists_class?_of_receiver haimed hfound
    exact echoes_memberTarget h hc hunmissed
  | none =>
    dsimp only
    split
    · exact echoes_type _
    · exact .pure none

theorem echoes_nameTarget (h : site.Calm p q) {name : String} {qualifier : Option Expr}
    (haimed : ∀ e ∈ qualifier, e.IsAimed s.program) (text : String) (names : Names)
    (hsteady : qualifier = none → Text.startsUppercase name = true → p.Steady q name site)
    (hunmissed : Unmissed p q site name qualifier (nameTarget name qualifier text names site s).1) :
    Echoes p q (nameTarget name qualifier text names site)
      (nameTarget name qualifier text names site) s := by
  cases qualifier with
  | none => exact echoes_simpleTarget h names (hsteady rfl) hunmissed
  | some e => exact echoes_memberOf h (haimed e rfl) text hunmissed

/-! ## Calls -/

/-- The method that a search answers, if any, is the best one for the number of arguments in the
end. -/
def KeepsMethod (q : Program) (arity : Nat) (target : Option MethodId) :
    Prop := ∀ m, target = some m → q.BestFor m arity

theorem Echoes.search {first second : Resolve (Option MethodId)} {arity : Nat}
    (hfirst : KeepsMethod q arity (first s).1 → Echoes p q first first s)
    (hsecond : KeepsMethod q arity (second (first s).2).1 → Echoes p q second second (first s).2)
    (hkeeps : KeepsMethod q arity (Resolve.orElse first second s).1) :
    Echoes p q (Resolve.orElse first second) (Resolve.orElse first second) s := by
  rw [Resolve.orElse, bind_apply] at hkeeps
  cases hfound : (first s).1 with
  | some m =>
    rw [hfound] at hkeeps hfirst
    exact (hfirst hkeeps).orElse (by simp [hfound])
  | none =>
    rw [hfound] at hkeeps hfirst
    exact (hfirst nofun).orElse fun _ => hsecond hkeeps

theorem echoes_objectMethod (name : String) (arity : Nat) :
    Echoes p q (onProgram (·.objectMethod name arity)) (onProgram (·.objectMethod name arity)) s :=
  .onProgram (·.adds_objectMethod name arity) fun _ hq => Program.objectMethod_again _ hq.grows

theorem echoes_findMethodAmong (h : site.Calm p q) (name : String) {arity : Nat}
    (hkeeps : KeepsMethod q arity
      (Program.findMethodAmong name arity (p.enclosing site.owner) s.program).1) :
    Echoes p q (onProgram (Program.findMethodAmong name arity (p.enclosing site.owner)))
      (onProgram (Program.findMethodAmong name arity (p.enclosing site.owner))) s := by
  refine .onProgram (Program.adds_findMethodAmong name arity _) fun hs hq => ?_
  have hcalm := h.later hs
  have hin := ((Program.Extends.refl p).enclosing h.grounded h.isIn.owner).2
  refine Program.findMethodAmong_again hcalm.grounded hcalm.quiet (fun id hid => ?_) hq.grows hkeeps
  obtain ⟨c, hc⟩ := Program.exists_class?_of_lt (hin id hid)
  obtain ⟨c', hc', -⟩ := hs.grows.type hc
  exact ⟨c', hc'⟩

theorem echoes_staticImportMethod (h : site.Calm p q) {name : String} {arity : Nat}
    (hkeeps : KeepsMethod q arity (s.program.staticImportMethod site.file name arity).1) :
    Echoes p q (onProgram (·.staticImportMethod site.file name arity))
      (onProgram (·.staticImportMethod site.file name arity)) s := by
  refine .onProgram (·.adds_staticImportMethod site.file name arity) fun hs hq => ?_
  have hcalm := h.later hs
  exact Program.staticImportMethod_again hcalm.grounded hcalm.quiet hcalm.isIn.file hq.grows hkeeps

theorem echoes_findMethodIn (h : site.Calm p q) {id : ClassId} {c : TypeDecl}
    (hc : s.program.class? id = some c) {name : String} {arity : Nat}
    (hkeeps : KeepsMethod q arity (s.program.findMethodIn id name arity).1) :
    Echoes p q (onProgram (·.findMethodIn id name arity))
      (onProgram (·.findMethodIn id name arity)) s := by
  refine .onProgram (Program.adds_findMethodUpTo name arity _ id) fun hs hq => ?_
  have hcalm := h.later hs
  exact Program.findMethodIn_again hcalm.grounded hcalm.quiet hc hq.grows hkeeps

theorem echoes_callTarget (h : site.Calm p q) {name : String} {qualifier : Option Expr}
    {arity : Nat} (haimed : ∀ e ∈ qualifier, e.IsAimed s.program)
    (hkeeps : KeepsMethod q arity (callTarget name qualifier arity site s).1) :
    Echoes p q (callTarget name qualifier arity site) (callTarget name qualifier arity site) s := by
  cases qualifier with
  | none =>
    refine .of_get (advances_callTarget name none arity site) fun hs hresolves => ?_
    have hthen := (hs.grows.extends.enclosing h.grounded h.isIn.owner).1
    have hnow := ((hs.trans hresolves).grows.extends.enclosing h.grounded h.isIn.owner).1
    rw [callTarget, bind_apply, get_apply] at hkeeps
    dsimp only at hkeeps ⊢
    rw [hthen] at hkeeps ⊢
    rw [hnow]
    refine .search (echoes_findMethodAmong h name) (fun hkeeps => ?_) hkeeps
    exact .search (echoes_staticImportMethod h) (fun _ => echoes_objectMethod name arity) hkeeps
  | some e =>
    have haimed := haimed e rfl
    refine (echoes_receiver h haimed).bind ?_
    rw [callTarget, bind_apply] at hkeeps
    cases hfound : (receiver e site.owner s).1 with
    | none => exact .pure none
    | some id =>
      rw [hfound] at hkeeps
      obtain ⟨c, hc⟩ := exists_class?_of_receiver haimed hfound
      exact .search (echoes_findMethodIn h hc) (fun _ => echoes_objectMethod name arity) hkeeps

/-! ## Types and declarations -/

theorem qualify_again (h : site.Calm p q) {r : Program} (hr : p.Resolves r) (hq : r.Grows q)
    {name : String} (hsteady : p.Steady q (Text.firstSegment name) site) :
    q.qualify (r.qualify name site) site = r.qualify name site := by
  have hthen := hsteady.same hr.grows.extends hq.extends
  have hnow := hsteady.same (hr.grows.trans hq).extends (.refl q)
  refine Program.qualify_qualify (h.later hr).grounded hq.extends
    (hnow.trans hthen.symm) fun w hw => ?_
  exact hsteady.rooted w (hthen.symm.trans hw)

theorem qualify_rests (h : site.Calm p q) {r : Program} (hr : p.Resolves r) (hq : r.Grows q)
    {name : String} (hrests : p.Rests q (r.qualify name site) site) :
    q.qualify (r.qualify name site) site = r.qualify name site := by
  have hthen := hrests.same hr.grows.extends hq.extends
  have hnow := hrests.same (hr.grows.trans hq).extends (.refl q)
  exact Program.qualify_of_qualified (h.later hr).grounded hq.extends
    (hnow.trans hthen.symm) hrests.rooted

theorem qualify_var (r : Program) (site : Site) : r.qualify "var" site = "var" :=
  Program.qualify_of_known (by simp [Program.isBuiltinName])

theorem eq_var_of_qualify {r : Program} (hr : r.Grounded) {name : String}
    (h : r.qualify name site = "var") :
    name = "var" := by
  have hundotted : Text.isDotted (r.qualify name site) = false := by
    rw [h]
    decide
  exact (Program.qualify_of_undotted hr hundotted).symm.trans h

theorem echoes_qualifyUse (h : site.Calm p q) {u : TypeUse}
    (hsteady : p.Steady q (Text.firstSegment u.type.name) site) :
    Echoes p q (qualifyUse u site) (qualifyUse (qualifyUse u site s).1 site) s := by
  refine .of_advances (advances_qualifyUse u site) fun hs hresolves _ => ?_
  have hagain := qualify_again h hs hresolves.grows hsteady
  have hsame : q.qualifyUse (s.program.qualifyUse u site) site = s.program.qualifyUse u site := by
    simp only [Program.qualifyUse, Program.qualifyType, hagain]
  exact congrArg (·, (⟨q, s.localTypes⟩ : Resolution)) hsame

theorem echoes_findConstructor? {α : Type} (h : site.Calm p q) (type : ErasedType) (arity : Nat)
    (put : Option MethodId → α) :
    Echoes p q (do return put ((← get).program.findConstructor? type arity))
      (do return put ((← get).program.findConstructor? type arity)) s := by
  refine .of_get (Advances.get.bind fun _ => .pure _) fun hs hresolves => ?_
  rw [hresolves.grows.findConstructor? (h.later hs).grounded]
  exact .pure _

theorem declare_again {s : Resolution} (head : Anchor) (name : String) {type type' : TypeUse}
    (init : Option Expr) (names : Names)
    (hsame : q.qualifyUse type' site = s.program.qualifyUse type site) :
    declare head name type' init names site ⟨q, s.localTypes⟩ =
      ((declare head name type init names site s).1,
        ⟨q, (declare head name type init names site s).2.localTypes⟩) := by
  change (((Local.mk head name (q.qualifyUse type' site) init,
    (name, Declaration.localVar head.node) :: names),
    (⟨q, (head.node, (q.qualifyUse type' site).type) :: s.localTypes⟩ : Resolution)) :
    (Local × Names) × Resolution) = _
  rw [hsame]
  rfl

theorem echoes_declare (h : site.Calm p q) (head : Anchor) (name : String) {type : TypeUse}
    (init : Option Expr) (names : Names)
    (hsteady : p.Steady q (Text.firstSegment type.type.name) site) :
    Echoes p q (declare head name type init names site)
      (declare head name (declare head name type init names site s).1.1.type init names site)
        s := by
  refine ⟨fun _ => .refl s.program, fun hs hq => declare_again head name init names ?_⟩
  have hagain := qualify_again h hs hq.grows hsteady
  change q.qualifyUse (s.program.qualifyUse type site) site = _
  simp only [Program.qualifyUse, Program.qualifyType, hagain]

theorem inferType_of_var {declared : TypeUse} (h : declared.type.name = "var")
    (inferred : Option ErasedType) :
    inferType declared inferred = { declared with type := inferred.getD ErasedType.unknown } :=
  if_pos h

theorem inferType_of_ne {declared : TypeUse} (h : declared.type.name ≠ "var")
    (inferred : Option ErasedType) :
    inferType declared inferred = declared := if_neg h

theorem qualifyUse_inferType {r : Program} (hr : r.Grounded) {type : TypeUse}
    {inferred : Option ErasedType}
    (hdeclared : q.qualify (r.qualify type.type.name site) site = r.qualify type.type.name site)
    (hinferred : type.type.name = "var" →
      q.qualifyUse (r.qualifyUse (inferType type inferred) site) site =
      r.qualifyUse (inferType type inferred) site) :
    q.qualifyUse (inferType (r.qualifyUse (inferType type inferred) site) inferred) site =
      r.qualifyUse (inferType type inferred) site := by
  by_cases hvar : type.type.name = "var"
  · have hinferred := hinferred hvar
    rw [inferType_of_var hvar] at hinferred ⊢
    by_cases hagain : r.qualify (inferred.getD ErasedType.unknown).name site = "var"
    · -- Only something of the type `var` is of that type when it is qualified.
      have hname := eq_var_of_qualify hr hagain
      rw [inferType_of_var hagain]
      simp only [Program.qualifyUse, Program.qualifyType, hname, qualify_var]
    · rw [inferType_of_ne hagain]
      exact hinferred
  · rw [inferType_of_ne hvar, inferType_of_ne fun hagain => hvar (eq_var_of_qualify hr hagain)]
    simp only [Program.qualifyUse, Program.qualifyType, hdeclared]

/-- A declaration of which the type may be left to be inferred from an expression. -/
def declareInferred (site : Site) (source : Option Expr)
    (view : Option ErasedType → Option ErasedType) (head : Anchor) (name : String) (type : TypeUse)
    (init : Option Expr) (names : Names) : Resolve (Local × Names) := do
  declare head name (inferType type (view (← typeOfOption source site))) init names site

theorem echoes_declareInferred (h : site.Calm p q) {source : Option Expr}
    (haimed : ∀ e ∈ source, e.IsAimed s.program) (view : Option ErasedType → Option ErasedType)
    (head : Anchor) (name : String) {type : TypeUse} (init : Option Expr) (names : Names)
    (hsteady : p.Steady q (Text.firstSegment type.type.name) site)
    (hrests : type.type.name = "var" →
      p.Rests q
        (declareInferred site source view head name type init names s).1.1.type.type.name site) :
    Echoes p q (declareInferred site source view head name type init names)
      (declareInferred site source view head name
        (declareInferred site source view head name type init names s).1.1.type init names) s := by
  refine ⟨fun _ => .refl s.program, fun hs hq => ?_⟩
  let inferred := view (source.bind (s.typeOf? site.owner))
  have hsource : view (source.bind ((⟨q, s.localTypes⟩ : Resolution).typeOf? site.owner)) =
      inferred := by
    cases source with
    | none => rfl
    | some e =>
      simp only [inferred, Option.bind_some]
      rw [typeOf?_later h hs hq.grows (haimed e rfl)]
  let type' := s.program.qualifyUse (inferType type inferred) site
  change declare head name (inferType type'
    (view (source.bind ((⟨q, s.localTypes⟩ : Resolution).typeOf? site.owner)))) init
    names site ⟨q, s.localTypes⟩ = _
  rw [hsource]
  refine declare_again head name init names ?_
  change q.qualifyUse (inferType type' inferred) site = type'
  refine qualifyUse_inferType (h.later hs).grounded
    (qualify_again h hs hq.grows hsteady) fun hvar => ?_
  have hagain : q.qualify type'.type.name site = type'.type.name :=
    qualify_rests h hs hq.grows (hrests hvar)
  change q.qualifyUse type' site = type'
  simp only [Program.qualifyUse, Program.qualifyType, hagain]

end Resolve

end KernelLint
