import KernelLint.Proofs.Resolve.Agreement
import KernelLint.Proofs.Resolve.Idempotent
import KernelLint.Proofs.Resolve.StaticImports

/-!
# Local classes

A local class is named after the class around it, and the body that declares it leaves no trace in
its name. It is found like a member of that class: its simple name means the first class of its
qualified name, at all places inside the class around it where nothing nearer has that name
(`Shows`). Where this first class is the local class itself, its objects are created by its
constructors, and calls on its variables go to its methods (`localClass_resolved`).
-/

namespace KernelLint

/-- The type use names the class: by its simple name, or by its qualified one if it was resolved
before. -/
def TypeDecl.IsNamedBy (c : TypeDecl) (u : TypeUse) : Prop :=
  u.type.dims = 0 ∧ (u.type.name = c.name ∨ u.type.name = c.qualifiedName)

namespace Program

variable {p q r : Program} {c : TypeDecl} {site : Site}

/-! ## Methods of a class -/

/-- The class declares the method, under that name and for that many arguments. -/
structure Takes (p : Program) (id : ClassId) (name : String) (arity : Nat) (m : Method) : Prop where
  named : m ∈ p.methodsNamed id name
  accepts : m.acceptsArity arity = true

section

variable {id : ClassId} {name : String} {arity : Nat} {m : Method}

theorem Takes.grows (h : p.Takes id name arity m) (hgrows : p.Grows q) :
    ∃ m', q.Takes id name arity m' ∧ m'.id = m.id ∧ m'.isConstructor = m.isConstructor := by
  obtain ⟨hlive, hnamed⟩ := mem_methodsNamed.mp h.named
  obtain ⟨m', hm', hsame, -⟩ := hgrows.method?_of_some hlive
  have hid : m'.id = m.id := by rw [hsame]
  refine ⟨m', ⟨mem_methodsNamed.mpr ⟨hid ▸ hm', ?_⟩, ?_⟩, hid, by rw [hsame]; rfl⟩
  · rw [hsame]
    exact hnamed
  · rw [hsame]
    exact h.accepts

theorem acceptsArity_qualifyMethod (p : Program) (m : Method) (arity : Nat) :
    (p.qualifyMethod m).acceptsArity arity = m.acceptsArity arity := by
  have hlast : (p.qualifyMethod m).params.getLast?.any (0 < ·.type.type.dims) =
      m.params.getLast?.any (0 < ·.type.type.dims) := by
    rw [qualifyMethod, List.getLast?_map]
    cases m.params.getLast? <;> rfl
  have hlength : (p.qualifyMethod m).params.length = m.params.length := List.length_map _
  rw [Method.acceptsArity, Method.acceptsArity, hlast, hlength]
  rfl

theorem Takes.qualifySignatures (h : p.Takes id name arity m) :
    p.qualifySignatures.Takes id name arity (p.qualifyMethod m) := by
  obtain ⟨hlive, hnamed⟩ := mem_methodsNamed.mp h.named
  refine ⟨mem_methodsNamed.mpr ⟨?_, hnamed⟩, (p.acceptsArity_qualifyMethod m arity).trans h.accepts⟩
  change p.qualifySignatures.method? m.id = _
  rw [method?_qualifySignatures, hlive, Option.map_some]

theorem Takes.later (h : p.Takes id name arity m) (hr : p.qualifySignatures.Grows r) :
    ∃ m', r.Takes id name arity m' ∧ m'.id = m.id ∧ m'.isConstructor = m.isConstructor := by
  obtain ⟨m', hm', hid, hconstructor⟩ := h.qualifySignatures.grows hr
  refine ⟨m', hm', hid, hconstructor.trans ?_⟩
  simp [Method.isConstructor, qualifyMethod]

theorem findConstructor?_declared (type : ErasedType) (hclass : p.findClass? type.name = some c)
    (h : ∃ m, p.Takes c.id c.name arity m ∧ m.isConstructor = true) :
    ∃ m, p.Takes c.id c.name arity m ∧ m.isConstructor = true ∧
      p.findConstructor? type arity = some m.id := by
  obtain ⟨m, hm, hconstructor⟩ := h
  have hfits : ((p.methodsNamed c.id c.name).find? fun m => m.isConstructor &&
      m.acceptsArity arity).isSome = true :=
    List.find?_isSome.mpr ⟨m, hm.named, by rw [hconstructor, hm.accepts]; rfl⟩
  obtain ⟨k, hk⟩ := Option.isSome_iff_exists.mp hfits
  have hfound := List.find?_some hk
  rw [Bool.and_eq_true] at hfound
  refine ⟨k, ⟨List.mem_of_find?_eq_some hk, hfound.2⟩, hfound.1, ?_⟩
  rw [findConstructor?, hclass, Option.bind_some, hk, Option.map_some]

end

/-! ## The name of a local class -/

theorem isBuiltinName_of_dotted {name : String} (h : Text.isDotted name = true) :
    isBuiltinName name = false := by
  have hundotted : ∀ n ∈ ["void", "var", "?"] ++ primitiveNames, Text.isDotted n = false := by
    decide
  rw [Bool.eq_false_iff]
  intro hbuiltin
  have hmem : name ∈ ["void", "var", "?"] ++ primitiveNames := by
    simpa [isBuiltinName, or_assoc] using hbuiltin
  rw [hundotted name hmem] at h
  cases h

theorem hasClass_qualifySignatures (p : Program) (name : String) :
    p.qualifySignatures.hasClass name = p.hasClass name := by
  rw [Bool.eq_iff_iff, hasClass_iff, hasClass_iff]
  refine exists_congr fun id => ?_
  rw [class?_qualifySignatures]
  cases p.class? id <;> simp [qualifyClass]

theorem findClass?_qualifySignatures (p : Program) {name : String}
    (hc : p.findClass? name = some c) :
    p.qualifySignatures.findClass? name = some (p.qualifyClass c) := by
  rw [findClass?, Program.qualifySignatures, Array.toList_map, List.find?_map]
  exact congrArg (Option.map p.qualifyClass) hc

theorem IsRead.local_spec (hp : p.IsRead) {id : MethodId} {m : Method} (hm : p.method? id = some m)
    (hdeclared : Visit.localClass c.id ∈ m.visits) (hc : p.class? c.id = some c)
    (hlocal : c.isLocal = true) (hapart : p.hasClass c.name = false) :
    c.outer = m.owner ∧ ∀ o ∈ m.owner, ∀ d, p.class? o = some d →
      c.qualifiedName = d.qualifiedName ++ "." ++ c.name := by
  obtain ⟨within, hwithin, hinside⟩ := hp.housed.bodies id m hm c.id hdeclared
  rcases hinside with hfirst | ⟨c', hc', houter, hnamed⟩
  · -- The first class of a program stands in no other one, and a local class does.
    obtain ⟨o, ho⟩ := Option.isSome_iff_exists.mp (hp.housed.locals c.id c hc hlocal)
    have hlt := (hp.grounded.class? hc).outer o ho
    rw [hfirst] at hlt
    exact absurd hlt (Nat.not_lt_zero _)
  · obtain rfl := Option.some.inj (hc'.symm.trans hc)
    refine ⟨houter, fun o ho d hd => ?_⟩
    rw [show m.owner = some o from ho, Option.bind_some, hd, Option.map_some,
      Option.some_inj] at hwithin
    rw [hnamed, qualifiedIn, hwithin]
    refine if_neg fun hempty => ?_
    have hsame : p.hasClass c'.name = true := by
      refine hasClass_iff.mpr ⟨c'.id, c', hc, hnamed.trans ?_⟩
      rw [qualifiedIn, if_pos hempty]
    rw [hapart] at hsame
    cases hsame

/-- The simple name of the class means the class itself inside the given class. It is a plain name
and the qualified name of no class, and the class is the first one of its qualified name. From the
inside out, the class around the local one comes before all other classes that have the name or a
member of that name. -/
structure Shows (p : Program) (c : TypeDecl) (owner : Option ClassId) : Prop where
  first : p.findClass? c.qualifiedName = some c
  apart : p.hasClass c.name = false
  plain : Text.isDotted c.name = false ∧ isBuiltinName c.name = false
  nearest : ∃ inner o outer, p.enclosing owner = inner ++ o :: outer ∧ c.outer = some o ∧
    (∀ d, p.class? o = some d → d.name ≠ c.name) ∧
    ∀ id ∈ inner, id = c.id ∨ ∀ d, p.class? id = some d →
      d.name ≠ c.name ∧ p.resolve.hasClass (d.qualifiedName ++ "." ++ c.name) = false

namespace Shows

theorem dotted {owner : Option ClassId} (h : p.Shows c owner) (hp : p.Grounded) :
    Text.isDotted c.qualifiedName = true := by
  refine (hp.class? (class?_of_findClass? h.first).1).named.resolve_left fun hsame => ?_
  have habsent := h.apart
  rw [hasClass, ← hsame, h.first] at habsent
  cases habsent

theorem ne_var {owner : Option ClassId} (h : p.Shows c owner) : c.name ≠ "var" := by
  intro heq
  have hplain := h.plain.2
  rw [heq] at hplain
  cases hplain

theorem taken_offers (h : p.Shows c site.owner) (hp : p.Grounded)
    (howner : ∀ o ∈ site.owner, o.index < p.classes.size)
    (hnamed : ∀ o ∈ c.outer, ∀ d, p.class? o = some d →
      c.qualifiedName = d.qualifiedName ++ "." ++ c.name)
    {has : String → Bool} (hhas : has c.qualifiedName = true)
    (hless : ∀ n, has n = true → p.resolve.hasClass n = true) :
    taken has (p.offers c.name site) = some c.qualifiedName := by
  obtain ⟨inner, o, outer, hchain, houter, hname, hinner⟩ := h.nearest
  have hc : p.class? c.id = some c := (class?_of_findClass? h.first).1
  have hin : o.index < p.classes.size := by
    refine ((Extends.refl p).enclosing hp howner).2 o ?_
    rw [hchain]
    exact List.mem_append_right _ List.mem_cons_self
  obtain ⟨d, hd⟩ := exists_class?_of_lt hin
  rw [offers, hchain]
  generalize ((p.siteFile? site).map (·.offers c.name)).getD [] = rest
  clear hchain
  induction inner with
  | nil =>
    have hoffer : d.offer c.name = ⟨c.qualifiedName, false⟩ := by
      rw [TypeDecl.offer, if_neg (hname d hd), hnamed o houter d hd]
    rw [List.nil_append, List.filterMap_cons, hd, Option.map_some, hoffer,
      List.cons_append, taken_cons]
    simp [hhas]
  | cons id inner ih =>
    obtain ⟨hid, hinner⟩ := List.forall_mem_cons.mp hinner
    rw [List.cons_append, List.filterMap_cons]
    rcases hid with rfl | hid
    · rw [hc, Option.map_some, TypeDecl.offer, if_pos rfl, List.cons_append, taken_cons]
      simp
    · cases hclass : p.class? id with
      | none => exact ih hinner
      | some e =>
        obtain ⟨hother, hnone⟩ := hid e hclass
        have hnot : has (e.qualifiedName ++ "." ++ c.name) = false := by
          rw [Bool.eq_false_iff]
          intro hyes
          rw [hless _ hyes] at hnone
          cases hnone
        rw [Option.map_some, TypeDecl.offer, if_neg hother, List.cons_append, taken_cons]
        simp only [hnot, Bool.or_self, Bool.false_eq_true, if_false]
        exact ih hinner

/-- **What the name of a local class means.** At every state of the resolution it means the
class. -/
theorem qualify (h : p.Shows c site.owner) (hp : p.Grounded) (hsite : site.IsIn p)
    (hnamed : ∀ o ∈ c.outer, ∀ d, p.class? o = some d →
      c.qualifiedName = d.qualifiedName ++ "." ++ c.name)
    (hr : p.qualifySignatures.Grows r) (hlater : r.Grows p.resolve) {name : String}
    (hname : name = c.name ∨ name = c.qualifiedName) : r.qualify name site = c.qualifiedName := by
  have hextends := p.extends_qualifySignatures.trans hr.extends
  have hhas : r.hasClass c.qualifiedName = true :=
    hextends.hasClass (by rw [hasClass, h.first]; rfl)
  rcases hname with rfl | rfl
  · have hnone : r.hasClass c.name = false := by
      have hbefore : p.qualifySignatures.findClass? c.name = none := by
        have habsent := (p.hasClass_qualifySignatures c.name).trans h.apart
        rwa [hasClass, Option.isSome_eq_false_iff, Option.isNone_iff_eq_none] at habsent
      rw [hasClass, hr.findClass?_eq_none hbefore h.plain.1]
      rfl
    rw [qualify_undotted h.plain.1, h.plain.2, hnone, qualifySimple?_eq_taken,
      hextends.offers hp hsite, h.taken_offers hp hsite.owner hnamed hhas fun _ =>
      hlater.extends.hasClass]
    rfl
  · exact qualify_of_known (by rw [hhas, Bool.or_true])

end Shows

/-! ## Creations and calls -/

/-- The second expression was made from the first one. If that one creates an object of the class,
with arguments that a constructor takes which the class declares, then so does the second one,
through such a constructor. -/
def CreatesOwn (p q : Program) (c : TypeDecl) (e e' : Expr) : Prop :=
  ∀ head type args target, e = .create head type args target → c.IsNamedBy type →
    (∃ m, p.Takes c.id c.name args.length m ∧ m.isConstructor = true) →
    ∃ type' args' m, e' = .create head type' args' (some m.id) ∧ q.Takes c.id c.name args.length m ∧
      m.isConstructor = true

/-- A call on a variable of the class, of a name and with arguments that a method takes which the
class declares, goes to such a method. -/
def CallsOwn (p q : Program) (c : TypeDecl) (before : List Local) (e : Expr) : Prop :=
  ∀ head name site x node args target,
    e = .call head name (some (.name site x none (some (.localVar node)))) args target →
    (∃ l ∈ before, l.node = node ∧ c.IsNamedBy l.type) → (∃ m, p.Takes c.id name args.length m) →
    ∃ m, q.Takes c.id name args.length m ∧ target = some m.id

end Program

namespace Resolve

open Program

variable {p q : Program} {c : TypeDecl} {site : Site} {start s t u : Resolution}

/-- At a state of the resolution the class is what its name means at the place, and it has its
methods. -/
structure Means (p : Program) (c : TypeDecl) (site : Site) (r : Program) : Prop where
  qualify : ∀ name, name = c.name ∨ name = c.qualifiedName → r.qualify name site = c.qualifiedName
  found : ∃ c', r.findClass? c.qualifiedName = some c' ∧ c'.id = c.id ∧ c'.name = c.name
  takes : ∀ name arity m, p.Takes c.id name arity m →
    ∃ m', r.Takes c.id name arity m' ∧ m'.isConstructor = m.isConstructor

theorem Means.qualifyUse {r : Program} (h : Means p c site r) {type : TypeUse}
    (htype : c.IsNamedBy type) :
    (r.qualifyUse type site).type = c.type := by
  obtain ⟨hdims, hname⟩ := htype
  change ErasedType.mk (r.qualify type.type.name site) type.type.dims = _
  rw [h.qualify _ hname, hdims]
  rfl

theorem creates_of_becomes {e e' : Expr} (h : Becomes site start u (.expr e) (.expr e'))
    (hmeans : ∀ r : Program, start.program.Grows r → r.Grows u.program → Means p c site r)
    (hlater : u.program.Grows q) : p.CreatesOwn q c e e' := by
  rintro head type args target rfl htype ⟨k, hk, hconstructor⟩
  cases h with
  | plain he => cases he
  | @create _ _ _ args' _ r t hstart hnext hend hargs =>
    have hr := hmeans r.program hstart.grows (hnext.trans hend).grows
    have ht := hmeans t.program (hstart.trans hnext).grows hend.grows
    obtain ⟨c', hclass, hid, hname⟩ := ht.found
    obtain ⟨k', hk', hsame⟩ := ht.takes _ _ _ hk
    rw [← hid, ← hname] at hk'
    obtain ⟨m, hm, hm_constructor, hfound⟩ :=
      findConstructor?_declared c.type hclass ⟨k', hk', hsame.trans hconstructor⟩
    obtain ⟨m', hm', hm_id, hm_same⟩ := hm.grows (hend.grows.trans hlater)
    rw [hr.qualifyUse htype, hargs, hfound, ← hm_id]
    rw [hid, hname] at hm'
    exact ⟨_, _, m', rfl, hm', hm_same.trans hm_constructor⟩

theorem receiver_localVar {head : Excerpt} {x : String} {node : NodeId} {owner : Option ClassId}
    {c' : TypeDecl} (hlocal : t.localType? node = some c.type)
    (hdotted : Text.isDotted c.qualifiedName = true)
    (hclass : t.program.findClass? c.qualifiedName = some c') :
    receiver (.name head x none (some (.localVar node))) owner t = (some c'.id, t) := by
  have hproper : (c.type.isPrimitive || c.type.isUnknown) = false := by
    have hbuiltin := isBuiltinName_of_dotted hdotted
    simp only [isBuiltinName, Bool.or_eq_false_iff] at hbuiltin
    obtain ⟨⟨-, hunknown⟩, hprimitive⟩ := hbuiltin
    rw [ErasedType.isPrimitive, ErasedType.hasPrimitiveElement, ErasedType.isUnknown, TypeDecl.type,
      hprimitive, hunknown]
    rfl
  have htype : t.typeOf? owner (.name head x none (some (.localVar node))) = some c.type := hlocal
  have hreceiver : receiver (.name head x none (some (.localVar node))) owner t =
      classOfType c.type t := by
    rw [receiver.eq_def]
    simp only [bind_apply, get_apply, htype]
  have hclassOf : classOfType c.type = classByName c.qualifiedName := by
    rw [classOfType, if_neg (show ¬ 0 < c.type.dims from Nat.lt_irrefl 0), hproper]
    rfl
  rw [hreceiver, hclassOf, classByName, onProgram_apply, Program.classByName, hclass]

theorem callTarget_declared {receiving : Expr} {id : ClassId} {name : String} {arity : Nat}
    (hreceiver : receiver receiving site.owner t = (some id, t))
    (h : ∃ m, t.program.Takes id name arity m) :
    ∃ m, t.program.Takes id name arity m ∧
      (callTarget name (some receiving) arity site t).1 = some m.id := by
  obtain ⟨k, hk⟩ := h
  obtain ⟨m, hm, haccepts, hfound⟩ := findMethodIn_declared ⟨k, hk.named, hk.accepts⟩
  refine ⟨m, ⟨hm, haccepts⟩, ?_⟩
  have hsome : (onProgram (·.findMethodIn id name arity) t).1 = some m.id := by
    rw [onProgram_apply, hfound]
  rw [callTarget, bind_apply, hreceiver]
  exact congrArg Prod.fst (orElse_of_some hsome)

theorem calls_of_becomes {visits visits' : List Visit}
    (hruns : Runs site start start u visits visits') (htidy : IsTidy visits)
    (hmeans : ∀ r : Program, start.program.Grows r → r.Grows u.program → Means p c site r)
    (hdotted : Text.isDotted c.qualifiedName = true) (hvar : c.name ≠ "var")
    (hlater : u.program.Grows q) {v : Visit} {e : Expr} (h : Becomes site start u v (.expr e)) :
    p.CallsOwn q c (visits.filterMap Visit.localVar?) e := by
  rintro head name vhead x node args target rfl ⟨l, hl, rfl, htype⟩ ⟨k, hk⟩
  have hvisit : Visit.localVar l ∈ visits := by
    obtain ⟨v, hv, hlocal⟩ := List.mem_filterMap.mp hl
    cases v <;> cases hlocal
    exact hv
  have hproper : l.type.type.name ≠ "var" := by
    rcases htype.2 with hname | hname <;> rw [hname]
    · exact hvar
    · intro heq
      rw [heq] at hdotted
      cases hdotted
  cases h with
  | plain _ he' => cases he'
  | @call _ _ _ _ _ args' _ t hstart hend hargs hlogged =>
    have ht := hmeans t.program hstart.grows hend.grows
    obtain ⟨l', hl', hnode, hlocal⟩ := localType?_of_logged (hlogged _ _ _ rfl) hend hruns.logs
    obtain ⟨v₀, hv₀, hbecomes⟩ := hruns.exists_becomes hl'
    cases hbecomes with
    | @localVar l₀ _ hsame hqualified =>
      obtain rfl := htidy.eq_of_node_eq hv₀ hvisit (hsame.symm.trans hnode)
      obtain ⟨r, hr_start, hr_end, hr⟩ := hqualified hproper
      rw [hr, (hmeans r.program hr_start.grows hr_end.grows).qualifyUse htype] at hlocal
      obtain ⟨c', hclass, hid, -⟩ := ht.found
      obtain ⟨k', hk', -⟩ := ht.takes _ _ _ hk
      have hreceiver : receiver (.name vhead x none (some (.localVar l₀.node))) site.owner t =
          (some c.id, t) :=
        hid ▸ receiver_localVar hlocal hdotted hclass
      obtain ⟨m, hm, hfound⟩ := callTarget_declared hreceiver ⟨k', hk'⟩
      obtain ⟨m', hm', hm_id, -⟩ := hm.grows (hend.grows.trans hlater)
      exact ⟨m', hm', hfound.trans (congrArg some hm_id.symm)⟩

end Resolve

namespace Program

variable {p r : Program} {c : TypeDecl} {site : Site}

/-- **The step.** At every state of the resolution a class that shows is what its name means, and
has its methods. -/
theorem Shows.means (h : p.Shows c site.owner) (hp : p.Grounded) (hsite : site.IsIn p)
    (hnamed : ∀ o ∈ c.outer, ∀ d, p.class? o = some d →
      c.qualifiedName = d.qualifiedName ++ "." ++ c.name)
    (hr : p.qualifySignatures.Grows r) (hlater : r.Grows p.resolve) : Resolve.Means p c site r where
  qualify := fun _ => h.qualify hp hsite hnamed hr hlater
  found := by
    obtain ⟨c', hc', hgrows⟩ := hr.findClass? (p.findClass?_qualifySignatures h.first)
    exact ⟨c', hc', hgrows.id_eq, hgrows.name_eq⟩
  takes := by
    intro name arity m hm
    obtain ⟨m', hm', -, hsame⟩ := hm.later hr
    exact ⟨m', hm', hsame⟩

/-- **Local classes are resolved to themselves where they show.** In a program that is made from
syntax trees, a body declares a local class. In every body that is resolved inside a class where the
class shows, each creation that names it, with arguments that a constructor of it takes, goes to
such a constructor of it, and each call on a variable of its type, of a name and with arguments that
a method of it takes, goes to such a method of it. -/
theorem localClass_resolved (hp : p.IsRead) {declaring : MethodId} {m : Method}
    (hm : p.method? declaring = some m) (hdeclared : Visit.localClass c.id ∈ m.visits)
    (hlocal : c.isLocal = true) {id : MethodId} (hid : id ∈ p.qualifySignatures.resolvable) :
    ∃ before after, p.method? id = some before ∧ p.resolve.method? id = some after ∧
      (p.Shows c before.owner → List.Forall₂ (p.CreatesOwn p.resolve c) before.exprs after.exprs ∧
        ∀ e ∈ after.exprs, p.CallsOwn p.resolve c before.locals e) := by
  obtain ⟨m', body, start, hm', hbody, hstart, hlater, hfound⟩ := p.exists_traversal hid
  rw [method?_qualifySignatures] at hm'
  obtain ⟨x, hx, rfl⟩ := Option.map_eq_some_iff.mp hm'
  refine ⟨x, _, hx, hfound, fun hshows => ?_⟩
  have hvisits : x.visits = body.visits := congrArg Stmt.visitsOption hbody
  have htidy : IsTidy body.visits := hvisits ▸ hp.tidy id x hx
  have hc : p.class? c.id = some c := (class?_of_findClass? hshows.first).1
  obtain ⟨houter, hnamed⟩ := hp.local_spec hm hdeclared hc hlocal hshows.apart
  let site : Site := ⟨x.file, x.owner⟩
  have hsite : site.IsIn p := ⟨(hp.grounded.method? hx).file, (hp.grounded.method? hx).owner⟩
  let resolved := Resolve.stmt site (Resolve.parameterNames (p.qualifyMethod x)) body start
  have hmeans : ∀ r : Program, start.program.Grows r → r.Grows resolved.2.program →
      Resolve.Means p c site r :=
    fun r hr hr_later => hshows.means hp.grounded hsite (houter ▸ hnamed) (hstart.trans hr)
      (hr_later.trans hlater)
  have hruns : Resolve.Runs site start start resolved.2 body.visits resolved.1.1.visits :=
    (Resolve.runs_stmt _ body start (Resolve.known_parameterNames _ start) htidy.bare).1
  rw [Method.exprs, Method.locals, hvisits]
  refine ⟨?_, fun e he => ?_⟩
  · refine List.rel_filterMap (fun v v' hv => ?_) hruns.paired
    exact hv.rel_expr? fun e e' h => Resolve.creates_of_becomes h hmeans hlater
  · obtain ⟨v', hv', hexpr⟩ := List.mem_filterMap.mp he
    cases v' <;> cases hexpr
    obtain ⟨v, -, hbecomes⟩ := hruns.exists_becomes hv'
    exact Resolve.calls_of_becomes hruns htidy hmeans
      (hshows.dotted hp.grounded) hshows.ne_var hlater hbecomes

/-- A body that declares two local classes, of which the second one uses the first one. -/
def usedInside : Program :=
  (Program.empty.addSource ⟨"K.java"⟩
    "class K { void k() { class C { C() { } void h() { } } class D { void f() { C c = new C(); c.h(); } } } }"
    .project).2

theorem localClass_resolved_usedInside : ∃ c before after, usedInside.findClass? "K.C" = some c ∧
    usedInside.method? ⟨2⟩ = some before ∧ usedInside.resolve.method? ⟨2⟩ = some after ∧
    List.Forall₂ (usedInside.CreatesOwn usedInside.resolve c) before.exprs after.exprs ∧
    ∀ e ∈ after.exprs, usedInside.CallsOwn usedInside.resolve c before.locals e := by
  have hread : usedInside.IsRead := .addTree .empty _ _ _
  have hfacts :
      (usedInside.findClass? "K.C").map
          (fun c => (c.id, c.name, c.qualifiedName, c.isLocal, c.outer)) =
        some (⟨1⟩, "C", "K.C", true, some ⟨0⟩) ∧
      (usedInside.method? ⟨3⟩).map (·.visits.filterMap Visit.localClass?) = some [⟨1⟩, ⟨2⟩] ∧
      (usedInside.method? ⟨2⟩).map (·.owner) = some (some ⟨2⟩) ∧
      ⟨2⟩ ∈ usedInside.qualifySignatures.resolvable ∧ usedInside.hasClass "C" = false ∧
      (usedInside.class? ⟨0⟩).map (·.name) = some "K" ∧
      (usedInside.class? ⟨2⟩).map (fun d => (d.name, d.qualifiedName)) = some ("D", "K.D") ∧
      usedInside.enclosing (some ⟨2⟩) = [⟨2⟩, ⟨0⟩] ∧
      usedInside.resolve.hasClass "K.D.C" = false := by
    decide +kernel
  -- Nothing below may evaluate the program again.
  generalize usedInside = p at hread hfacts ⊢
  obtain ⟨hclass, hk, hf, hid, habsent, hnameK, hnameD, hchain, hmember⟩ := hfacts
  obtain ⟨c, hc, hlabel⟩ := Option.map_eq_some_iff.mp hclass
  simp only [Prod.mk.injEq] at hlabel
  obtain ⟨hid_c, hname, hqualified, hlocal, houter⟩ := hlabel
  obtain ⟨m, hm, hclasses⟩ := Option.map_eq_some_iff.mp hk
  have hdeclared : Visit.localClass c.id ∈ m.visits := by
    obtain ⟨v, hv, hdeclares⟩ :=
      List.mem_filterMap.mp (hclasses ▸ List.mem_cons_self : (⟨1⟩ : ClassId) ∈ _)
    rw [hid_c]
    cases v <;> cases hdeclares
    exact hv
  obtain ⟨before, after, hbefore, hafter, hresolved⟩ :=
    localClass_resolved hread hm hdeclared hlocal hid
  have howner : before.owner = some ⟨2⟩ := by simpa [hbefore] using hf
  have hother : ∀ d, p.class? ⟨0⟩ = some d → d.name ≠ c.name := by
    intro d hd
    rw [hd, Option.map_some, Option.some_inj] at hnameK
    rw [hnameK, hname]
    decide
  have hinner : ∀ d, p.class? ⟨2⟩ = some d →
      d.name ≠ c.name ∧ p.resolve.hasClass (d.qualifiedName ++ "." ++ c.name) = false := by
    intro d hd
    rw [hd, Option.map_some, Option.some_inj, Prod.mk.injEq] at hnameD
    rw [hnameD.1, hnameD.2, hname]
    exact ⟨by decide, hmember⟩
  refine ⟨c, before, after, hc, hbefore, hafter, hresolved ⟨?_, ?_, ?_, ?_⟩⟩
  · rw [hqualified, hc]
  · rw [hname, habsent]
  · rw [hname]
    decide
  · rw [howner, hchain]
    refine ⟨[⟨2⟩], ⟨0⟩, [], rfl, houter, hother, fun id hid => .inr ?_⟩
    obtain rfl := List.mem_singleton.mp hid
    exact hinner

/-- A creation of a type or a call of a name, with the number of its arguments, and where it
goes. -/
structure Use where
  name : String
  arity : Nat
  target : Option MethodId
  deriving DecidableEq

def use? : Expr → Option Use
  | .create _ type args target => some ⟨type.type.name, args.length, target⟩
  | .call _ name _ args target => some ⟨name, args.length, target⟩
  | _ => none

/-- The local classes that a body declares, with the creations and calls in it. -/
def uses (p : Program) (id : MethodId) : Option (List ClassId × List Use) :=
  (p.method? id).map fun m => (m.visits.filterMap Visit.localClass?, m.exprs.filterMap use?)

/-- Two bodies of one class that declare local classes of the same name. -/
def twins : Program :=
  (Program.empty.addSource ⟨"K.java"⟩
    "class K { void a() { class C { C(int x) { } void h() { } } } void b() { class C { C() { } void h() { } } C c = new C(); c.h(); } }"
    .project).2

/-- A local class beside a class of its name in no package. -/
def besidePlain : Program :=
  (Program.empty.addSource ⟨"K.java"⟩
    "class C { } class K { void k() { class C { C() { } } C c = new C(); } }" .project).2

/-- A body declares a local class, and no class around is of its name. The local class has a
constructor and a method for what the body does with it. But the creation goes nowhere, and the call
goes to the method of the first local class of that name; and no better does the creation where a
class has the simple name for its qualified name. -/
theorem localClass_taken :
    (twins.classes.toList.map (fun c => (c.name, c.isLocal, c.outer)) =
        [("K", false, none), ("C", true, some ⟨0⟩), ("C", true, some ⟨0⟩)] ∧
      twins.methods.map (fun m => (m.name, m.owner, m.acceptsArity 0)) =
        [("C", some ⟨1⟩, false), ("h", some ⟨1⟩, true), ("a", some ⟨0⟩, true),
          ("C", some ⟨2⟩, true), ("h", some ⟨2⟩, true), ("b", some ⟨0⟩, true)] ∧
      twins.uses ⟨5⟩ = some ([⟨2⟩], [⟨"C", 0, none⟩, ⟨"h", 0, none⟩]) ∧
      twins.resolve.uses ⟨5⟩ = some ([⟨2⟩], [⟨"K.C", 0, none⟩, ⟨"h", 0, some ⟨1⟩⟩])) ∧
    besidePlain.classes.toList.map (fun c => (c.name, c.isLocal, c.outer)) =
        [("C", false, none), ("K", false, none), ("C", true, some ⟨1⟩)] ∧
      besidePlain.methods.map (fun m => (m.name, m.owner, m.acceptsArity 0)) =
        [("C", some ⟨2⟩, true), ("k", some ⟨1⟩, true)] ∧
      besidePlain.uses ⟨1⟩ = some ([⟨2⟩], [⟨"C", 0, none⟩]) ∧
      besidePlain.resolve.uses ⟨1⟩ = some ([⟨2⟩], [⟨"C", 0, none⟩]) := by
  constructor <;> decide +kernel

end Program

end KernelLint
