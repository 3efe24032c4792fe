import KernelLint.Proofs.Catalog
import KernelLint.Proofs.Program.Lookup

/-!
# Links between owners and members

A program says twice who belongs to whom: each member names its owner, and each owner lists its
members. The two agree (`Links`) for the classes of a file and for the methods, fields and nested
classes of a class, and the lists are in the order of identities. There are only three ways in which
an edit touches such a link: it adds an owner without members, it adds a member with the greatest
identity so far, or it drops a member. Each keeps the agreement as long as new members name an owner
that exists: otherwise an owner that comes later would find members that it does not list.
-/

namespace KernelLint

/-- Owners list their members. `listed` gives the members that an owner lists, if there is such an
owner, and `belongs` says who belongs to whom. -/
structure Links {O M : Type} (index : M → Nat) (listed : O → Option (List M))
    (belongs : O → M → Prop) : Prop where
  mem_iff : ∀ owner members, listed owner = some members → ∀ m, m ∈ members ↔ belongs owner m
  ordered : ∀ owner members, listed owner = some members → members.Pairwise (index · < index ·)
  owned : ∀ owner m, belongs owner m → (listed owner).isSome

namespace Links

variable {O M : Type} {index : M → Nat} {listed listed' : O → Option (List M)}
  {belongs belongs' : O → M → Prop}

theorem none {listed : O → Option (List M)} (hlisted : ∀ o, listed o = .none)
    (hbelongs : ∀ o m, ¬ belongs o m) :
    Links index listed belongs where
  mem_iff := fun o ms ho => by simp [hlisted] at ho
  ordered := fun o ms ho => by simp [hlisted] at ho
  owned := fun o m hm => absurd hm (hbelongs o m)

theorem congr (h : Links index listed belongs) (hlisted : ∀ o, listed' o = listed o)
    (hbelongs : ∀ o m, belongs' o m ↔ belongs o m) : Links index listed' belongs' where
  mem_iff := fun o ms ho m => (h.mem_iff o ms (hlisted o ▸ ho) m).trans (hbelongs o m).symm
  ordered := fun o ms ho => h.ordered o ms (hlisted o ▸ ho)
  owned := fun o m hm => by
    rw [hlisted]
    exact h.owned o m ((hbelongs o m).mp hm)

theorem addOwner [DecidableEq O] (h : Links index listed belongs) (new : O)
    (hnew : listed new = .none) (hlisted : ∀ o, listed' o = if o = new then some [] else listed o)
    (hbelongs : ∀ o m, belongs' o m ↔ belongs o m) : Links index listed' belongs' := by
  have hnobody : ∀ m, ¬ belongs new m := by
    intro m hm
    have hsome := h.owned new m hm
    simp [hnew] at hsome
  refine ⟨fun o ms ho m => ?_, fun o ms ho => ?_, fun o m hm => ?_⟩
  · rw [hbelongs]
    rw [hlisted] at ho
    split at ho
    · rename_i heq
      cases ho
      simp [heq, hnobody]
    · exact h.mem_iff o ms ho m
  · rw [hlisted] at ho
    split at ho
    · cases ho
      exact .nil
    · exact h.ordered o ms ho
  · rw [hlisted]
    split
    · rfl
    · exact h.owned o m ((hbelongs o m).mp hm)

theorem addMember [DecidableEq O] (h : Links index listed belongs) (new : M) (owner : Option O)
    (hlast : ∀ o m, belongs o m → index m < index new)
    (howner : ∀ o, owner = some o → (listed o).isSome)
    (hlisted : ∀ o, listed' o = (listed o).map fun ms => if owner = some o then ms ++ [new] else ms)
    (hbelongs : ∀ o m, belongs' o m ↔ belongs o m ∨ owner = some o ∧ m = new) :
    Links index listed' belongs' := by
  refine ⟨fun o ms ho m => ?_, fun o ms ho => ?_, fun o m hm => ?_⟩
  · rw [hlisted] at ho
    obtain ⟨old, hold, rfl⟩ := Option.map_eq_some_iff.mp ho
    rw [hbelongs, ← h.mem_iff o old hold m]
    split
    · rename_i heq
      simp [heq]
    · rename_i hne
      simp [hne]
  · rw [hlisted] at ho
    obtain ⟨old, hold, rfl⟩ := Option.map_eq_some_iff.mp ho
    have hordered := h.ordered o old hold
    split
    · rw [List.pairwise_append]
      refine ⟨hordered, List.pairwise_singleton _ _, fun m hm x hx => ?_⟩
      rw [List.mem_singleton.mp hx]
      exact hlast o m ((h.mem_iff o old hold m).mp hm)
    · exact hordered
  · rw [hlisted, Option.isSome_map]
    rcases (hbelongs o m).mp hm with hold | ⟨heq, -⟩
    · exact h.owned o m hold
    · exact howner o heq

theorem dropMember [DecidableEq O] [DecidableEq M] (h : Links index listed belongs) (old : M)
    (owner : Option O) (howner : ∀ o, belongs o old → owner = some o)
    (hlisted : ∀ o, listed' o = (listed o).map fun ms => if owner = some o then ms.filter (· ≠ old)
      else ms)
    (hbelongs : ∀ o m, belongs' o m ↔ belongs o m ∧ m ≠ old) : Links index listed' belongs' := by
  refine ⟨fun o ms ho m => ?_, fun o ms ho => ?_, fun o m hm => ?_⟩
  · rw [hlisted] at ho
    obtain ⟨before, hbefore, rfl⟩ := Option.map_eq_some_iff.mp ho
    have hmem := h.mem_iff o before hbefore
    rw [hbelongs, ← hmem m]
    split
    · simp
    · rename_i hne
      refine ⟨fun hm => ⟨hm, ?_⟩, And.left⟩
      rintro rfl
      exact hne (howner o ((hmem m).mp hm))
  · rw [hlisted] at ho
    obtain ⟨before, hbefore, rfl⟩ := Option.map_eq_some_iff.mp ho
    have hordered := h.ordered o before hbefore
    split
    · exact hordered.filter _
    · exact hordered
  · rw [hlisted, Option.isSome_map]
    exact h.owned o m ((hbelongs o m).mp hm).1

end Links

/-! ## The links of a program -/

namespace Program

/-- Files list the classes that stand in no other class. -/
def LinksClasses (p : Program) : Prop :=
  Links ClassId.index (fun file => (p.file? file).map (·.classes))
    fun file id => ∃ c, p.class? id = some c ∧ c.outer = none ∧ c.file = file

/-- Classes list their live methods. -/
def LinksMethods (p : Program) : Prop :=
  Links MethodId.index (fun owner => (p.class? owner).map (·.methods))
    fun owner id => ∃ m, p.method? id = some m ∧ m.owner = some owner

/-- Classes list their fields. -/
def LinksFields (p : Program) : Prop :=
  Links FieldId.index (fun owner => (p.class? owner).map (·.fields))
    fun owner id => ∃ f, p.field? id = some f ∧ f.owner = owner

/-- Classes list the classes that stand in them. -/
def LinksNested (p : Program) : Prop :=
  Links ClassId.index (fun owner => (p.class? owner).map (·.nested))
    fun owner id => ∃ c, p.class? id = some c ∧ c.outer = some owner

/-- Every list of members is right. -/
structure Linked (p : Program) : Prop where
  classes : p.LinksClasses
  methods : p.LinksMethods
  fields : p.LinksFields
  nested : p.LinksNested

end Program

/-- The edit names owners that exist, and a class that it adds lists no members yet. -/
def Edit.Fits (p : Program) : Edit → Prop
  | .addClass c => (p.file? c.file).isSome ∧ (c.outer.all fun outer => (p.class? outer).isSome) ∧
      c.methods = [] ∧ c.fields = [] ∧ c.nested = []
  | .addField f => (p.class? f.owner).isSome
  | .addMethod m => (p.file? m.file).isSome ∧ m.owner.all fun owner => (p.class? owner).isSome
  | _ => True

instance (p : Program) : (e : Edit) → Decidable (e.Fits p)
  | .addFile .. => .isTrue trivial
  | .addClass _ => inferInstanceAs (Decidable (_ ∧ _ ∧ _))
  | .addField _ => inferInstanceAs (Decidable (_ = true))
  | .addMethod _ => inferInstanceAs (Decidable (_ ∧ _))
  | .replaceBody .. => .isTrue trivial
  | .removeMethod _ => .isTrue trivial
  | .renameMethod .. => .isTrue trivial
  | .touch => .isTrue trivial

namespace Program

variable {p q : Program}

theorem linked_empty : Program.empty.Linked where
  classes := .none (fun _ => rfl) (by simp [class?, empty])
  methods := .none (fun _ => rfl) (by simp [method?, empty])
  fields := .none (fun _ => rfl) (by simp [field?, empty])
  nested := .none (fun _ => rfl) (by simp [class?, empty])

theorem file?_files_size (p : Program) : p.file? ⟨p.files.size⟩ = none := by simp [file?]

theorem class?_classes_size (p : Program) : p.class? ⟨p.classes.size⟩ = none := by simp [class?]

theorem Linked.addFile (h : p.Linked) (path : Path) (package : Option String)
    (imports : List Import) (origin : Origin) :
    (p.addFile path package imports origin).2.Linked where
  classes := by
    refine h.classes.addOwner ⟨p.files.size⟩ (by simp [file?_files_size])
      (fun file => ?_) fun _ _ => .rfl
    have hpush : (p.addFile path package imports origin).2.file? file =
        (p.pushFile { id := ⟨p.files.size⟩, path, package, imports, origin }).file? file := rfl
    rw [hpush, file?_pushFile]
    split <;> simp
  methods := h.methods
  fields := h.fields
  nested := h.nested

/-! ### Classes whose lists change -/

theorem map_list_same {o : Option TypeDecl} {g : TypeDecl → TypeDecl} {M : Type}
    {list : TypeDecl → List M} (h : ∀ x, list (g x) = list x) :
    (o.map g).map list = o.map list := by
  rw [Option.map_map, show list ∘ g = list from funext h]

theorem exists_named_same {o : Option TypeDecl} {g : TypeDecl → TypeDecl} {named : TypeDecl → Prop}
    (h : ∀ x, named (g x) ↔ named x) :
    (∃ x, o.map g = some x ∧ named x) ↔ ∃ x, o = some x ∧ named x := by
  simp [Option.map_eq_some_iff, h]

theorem class?_addClass (p : Program) (c : TypeDecl) (id : ClassId) : (p.addClass c).2.class? id =
    if id = ⟨p.classes.size⟩ then some { c with id := ⟨p.classes.size⟩ }
    else (p.class? id).map fun x =>
      if c.outer = some id then { x with nested := x.nested ++ [⟨p.classes.size⟩] } else x := by
  have hpush : (p.addClass c).2.class? id =
      ((p.linkClass ⟨p.classes.size⟩ c).pushClass c).class? id := rfl
  rw [hpush, class?_pushClass, size_classes_linkClass, class?_linkClass]

theorem map_class?_addClass (p : Program) {c : TypeDecl} (id : ClassId) {M : Type}
    {list : TypeDecl → List M} (hempty : list { c with id := ⟨p.classes.size⟩ } = [])
    (hnested : ∀ x nested, list { x with nested } = list x) :
    ((p.addClass c).2.class? id).map list = if id = ⟨p.classes.size⟩ then some []
    else (p.class? id).map list := by
  rw [class?_addClass]
  split
  · exact congrArg some hempty
  · refine map_list_same fun x => ?_
    split
    · exact hnested x _
    · rfl

theorem exists_class?_addClass (p : Program) {c : TypeDecl} (id : ClassId) {named : TypeDecl → Prop}
    (hnested : ∀ x nested, named { x with nested } ↔ named x) :
    (∃ x, (p.addClass c).2.class? id = some x ∧ named x) ↔
      (∃ x, p.class? id = some x ∧ named x) ∨ named { c with id := ⟨p.classes.size⟩ } ∧
        id = ⟨p.classes.size⟩ := by
  rw [class?_addClass]
  split
  · rename_i hnew
    simp [hnew, class?_classes_size]
  · rename_i hold
    rw [exists_named_same]
    · simp [hold]
    · intro x
      split
      · exact hnested x _
      · exact .rfl

/-! ### What each edit does to the links -/

theorem Linked.addClass (h : p.Linked) {c : TypeDecl} (hfits : (Edit.addClass c).Fits p) :
    (p.addClass c).2.Linked := by
  obtain ⟨hfile, houter, hmethods, hfields, hnested⟩ := hfits
  have hlast : ∀ {named : TypeDecl → Prop} {id : ClassId}, (∃ x, p.class? id = some x ∧ named x) →
      id.index < p.classes.size := fun ⟨x, hx, _⟩ => index_lt_of_class? hx
  have hnew : p.class? ⟨p.classes.size⟩ = none := p.class?_classes_size
  constructor
  case classes =>
    refine h.classes.addMember ⟨p.classes.size⟩ (if c.outer = none then some c.file else none)
      (fun _ _ hm => hlast hm) (fun file hown => ?_) (fun file => ?_) fun file id => ?_
    · split at hown
      · cases hown
        simpa using hfile
      · cases hown
    · have hlink : (p.addClass c).2.file? file = (p.linkClass ⟨p.classes.size⟩ c).file? file := rfl
      rw [hlink, file?_linkClass, Option.map_map, Option.map_map]
      refine congrArg (fun f => Option.map f _) (funext fun x => ?_)
      by_cases hnone : c.outer = none <;> by_cases heq : c.file = file <;> simp [hnone, heq]
    · rw [exists_class?_addClass p id fun _ _ => .rfl]
      by_cases hnone : c.outer = none <;> simp [hnone]
  case methods =>
    refine h.methods.addOwner ⟨p.classes.size⟩ (by simp [hnew]) (fun owner => ?_) fun owner id => ?_
    · exact map_class?_addClass p owner hmethods fun _ _ => rfl
    · have hsame : (p.addClass c).2.method? id = p.method? id := by
        simp [KernelLint.Program.addClass, method?, pushClass, bump]
      rw [hsame]
  case fields =>
    refine h.fields.addOwner ⟨p.classes.size⟩ (by simp [hnew]) (fun owner => ?_) fun owner id => ?_
    · exact map_class?_addClass p owner hfields fun _ _ => rfl
    · have hsame : (p.addClass c).2.field? id = p.field? id := by
        simp [KernelLint.Program.addClass, field?, pushClass, bump]
      rw [hsame]
  case nested =>
    -- the new class is a member of its outer class first, and then an owner itself
    have hmember : Links ClassId.index
        (fun owner => ((p.class? owner).map (·.nested)).map fun ids =>
          if c.outer = some owner then ids ++ [⟨p.classes.size⟩] else ids)
        fun owner id => (∃ x, p.class? id = some x ∧ x.outer = some owner) ∨
          c.outer = some owner ∧ id = ⟨p.classes.size⟩ := by
      refine h.nested.addMember ⟨p.classes.size⟩ c.outer (fun _ _ hm => hlast hm)
        (fun owner hown => ?_)
        (fun _ => rfl) fun _ _ => .rfl
      simpa [hown] using houter
    refine hmember.addOwner ⟨p.classes.size⟩ (by simp [hnew]) (fun owner => ?_) fun owner id => ?_
    · rw [class?_addClass]
      split
      · exact congrArg some hnested
      · rw [Option.map_map, Option.map_map]
        refine congrArg (fun f => Option.map f _) (funext fun x => ?_)
        by_cases hown : c.outer = some owner <;> simp [hown]
    · exact exists_class?_addClass p id fun _ _ => .rfl

/-- An edit that leaves files alone and changes only the lists of methods and fields of classes. -/
theorem Linked.of_class?_map (h : p.Linked) (hfile : ∀ id, q.file? id = p.file? id)
    (hclass : ∀ id, ∃ g, q.class? id = (p.class? id).map g ∧
      ∀ x, (g x).outer = x.outer ∧ (g x).file = x.file ∧ (g x).nested = x.nested)
    (hmethods : q.LinksMethods) (hfields : q.LinksFields) : q.Linked := by
  refine ⟨?_, hmethods, hfields, ?_⟩
  · refine h.classes.congr (fun file => by rw [hfile]) fun file id => ?_
    obtain ⟨g, hg, hsame⟩ := hclass id
    rw [hg]
    exact exists_named_same fun x => by rw [(hsame x).1, (hsame x).2.1]
  · refine h.nested.congr (fun owner => ?_) fun owner id => ?_
    · obtain ⟨g, hg, hsame⟩ := hclass owner
      rw [hg]
      exact map_list_same fun x => (hsame x).2.2
    · obtain ⟨g, hg, hsame⟩ := hclass id
      rw [hg]
      exact exists_named_same fun x => by rw [(hsame x).1]

theorem Linked.addField (h : p.Linked) {f : Field} (hfits : (Edit.addField f).Fits p) :
    (p.addField f).2.Linked := by
  have hclass := p.class?_addField f
  have hfield := p.field?_addField f
  refine h.of_class?_map (fun _ => rfl) (fun id => ⟨_, hclass id, fun x => ?_⟩) ?_ ?_
  · split <;> exact ⟨rfl, rfl, rfl⟩
  · refine h.methods.congr (fun owner => ?_) fun _ _ => .rfl
    rw [hclass]
    exact map_list_same fun x => by split <;> rfl
  · refine h.fields.addMember ⟨p.fields.size⟩ (some f.owner) (fun _ _ hm => ?_)
      (fun owner hown => ?_)
      (fun owner => ?_) fun owner id => ?_
    · obtain ⟨x, hx, -⟩ := hm
      exact index_lt_of_field? hx
    · cases hown
      rw [Option.isSome_map]
      exact hfits
    · rw [hclass, Option.map_map, Option.map_map]
      refine congrArg (fun f => Option.map f _) (funext fun x => ?_)
      by_cases hown : f.owner = owner <;> simp [hown]
    · rw [hfield]
      by_cases hid : id = ⟨p.fields.size⟩
      · simp [hid, field?]
      · simp [hid]

theorem Linked.of_relinkMethod (h : p.Linked) {m : Method} {change : List MethodId → List MethodId}
    (hfile : ∀ id, q.file? id = p.file? id) (hfield : ∀ id, q.field? id = p.field? id)
    (hclass : ∀ id, q.class? id = (p.relinkMethod m change).class? id) (hmethods : q.LinksMethods) :
    q.Linked := by
  have hmap : ∀ id, q.class? id = (p.class? id).map fun x =>
      if m.owner = some id then { x with methods := change x.methods } else x :=
    fun id => (hclass id).trans (p.class?_relinkMethod m change id)
  refine h.of_class?_map hfile (fun id => ⟨_, hmap id, fun x => ?_⟩) hmethods ?_
  · split <;> exact ⟨rfl, rfl, rfl⟩
  · refine h.fields.congr (fun owner => ?_) fun owner id => by rw [hfield]
    rw [hmap]
    exact map_list_same fun x => by split <;> rfl

theorem map_methods_relinkMethod (p : Program) (m : Method) (change : List MethodId → List MethodId)
    (owner : ClassId) : ((p.relinkMethod m change).class? owner).map (·.methods) =
      ((p.class? owner).map (·.methods)).map fun ids => if m.owner = some owner then change ids
      else ids := by
  rw [class?_relinkMethod, Option.map_map, Option.map_map]
  refine congrArg (fun f => Option.map f _) (funext fun x => ?_)
  by_cases hown : m.owner = some owner <;> simp [hown]

theorem Linked.addMethod (h : p.Linked) {m : Method} (hfits : (Edit.addMethod m).Fits p) :
    (p.addMethod m).2.Linked := by
  have hclass : ∀ id, (p.addMethod m).2.class? id =
      (p.relinkMethod m (· ++ [⟨p.methodSlots.size⟩])).class? id := fun _ => rfl
  refine h.of_relinkMethod (fun id => ?_) (fun id => ?_) hclass ?_
  · simp [KernelLint.Program.addMethod, file?, pushMethod, bump]
  · simp [KernelLint.Program.addMethod, field?, pushMethod, bump]
  · refine h.methods.addMember ⟨p.methodSlots.size⟩ m.owner (fun _ _ hm => ?_)
      (fun owner hown => ?_)
      (fun owner => ?_) fun owner id => ?_
    · obtain ⟨x, hx, -⟩ := hm
      exact index_lt_of_method? hx
    · have howner := hfits.2
      simpa [hown] using howner
    · rw [hclass, map_methods_relinkMethod]
    · rw [method?_addMethod]
      by_cases hid : id = ⟨p.methodSlots.size⟩
      · simp [hid, method?]
      · simp [hid]

theorem Linked.removeMethod (h : p.Linked) {id : MethodId} {m : Method}
    (hm : p.method? id = some m) :
    ((p.clearSlot id).relinkMethod m (·.filter (· ≠ id))).bump.Linked := by
  have hclass : ∀ owner, ((p.clearSlot id).relinkMethod m (·.filter (· ≠ id))).bump.class? owner =
      (p.relinkMethod m (·.filter (· ≠ id))).class? owner := by
    intro owner
    rw [class?_relinkMethod]
    exact (p.clearSlot id).class?_relinkMethod m _ owner
  refine h.of_relinkMethod (fun _ => ?_) (fun _ => ?_) hclass ?_
  · simp [file?, bump, clearSlot]
  · simp [field?, bump, clearSlot]
  · refine h.methods.dropMember id m.owner (fun owner hlisted => ?_)
      (fun owner => ?_) fun owner other => ?_
    · obtain ⟨x, hx, hown⟩ := hlisted
      rw [← hown, Option.some.inj (hm.symm.trans hx)]
    · rw [hclass, map_methods_relinkMethod]
    · have hslots : ((p.clearSlot id).relinkMethod m (·.filter (· ≠ id))).bump.method? other =
          (p.clearSlot id).method? other := by
        simp [method?, bump]
      rw [hslots, method?_clearSlot]
      by_cases hother : other = id
      · simp [hother]
      · simp [hother]

theorem Linked.modifyMethod (h : p.Linked) (id : MethodId) {f : Method → Method}
    (howner : ∀ x, (f x).owner = x.owner) :
    (p.modifyMethod id f).bump.Linked where
  classes := h.classes
  fields := h.fields
  nested := h.nested
  methods := by
    refine h.methods.congr (fun _ => rfl) fun owner other => ?_
    have hmodify : (p.modifyMethod id f).bump.method? other = (p.modifyMethod id f).method? other :=
      rfl
    rw [hmodify, method?_modifyMethod]
    simp only [Option.map_eq_some_iff, exists_exists_and_eq_and]
    refine exists_congr fun x => and_congr_right fun _ => ?_
    split
    · rw [show ({ f x with id := x.id } : Method).owner = x.owner from howner x]
    · exact .rfl

/-- **Every edit keeps the lists of members right.** -/
theorem Linked.edit (h : p.Linked) {e : Edit} (hfits : e.Fits p) : (p.edit e).Linked := by
  rcases p.refuses_or_live e with hrefuses | hlive
  · rw [hrefuses.edit_eq]
    exact h
  cases e with
  | addFile path package imports origin => exact h.addFile path package imports origin
  | addClass c => exact h.addClass hfits
  | addField f => exact h.addField hfits
  | addMethod m => exact h.addMethod hfits
  | touch => exact ⟨h.classes, h.methods, h.fields, h.nested⟩
  | replaceBody id body source =>
    obtain ⟨m, hm⟩ := hlive id rfl
    rw [edit_replaceBody hm]
    exact h.modifyMethod id fun _ => rfl
  | renameMethod id name =>
    obtain ⟨m, hm⟩ := hlive id rfl
    rw [edit_renameMethod hm]
    exact h.modifyMethod id fun _ => rfl
  | removeMethod id =>
    obtain ⟨m, hm⟩ := hlive id rfl
    rw [edit_removeMethod hm]
    exact h.removeMethod hm

/-! ## Whole histories -/

/-- Every edit fits the program that it meets. -/
def Admits : Program → List Edit → Prop
  | _, [] => True
  | p, e :: rest => e.Fits p ∧ Admits (p.edit e) rest

instance decidableAdmits : (p : Program) → (edits : List Edit) → Decidable (p.Admits edits)
  | _, [] => .isTrue trivial
  | p, e :: rest =>
    have := decidableAdmits (p.edit e) rest
    inferInstanceAs (Decidable (_ ∧ _))

theorem Linked.editAll (h : p.Linked) {edits : List Edit} (hfits : p.Admits edits) :
    (p.editAll edits).Linked := by
  induction edits generalizing p with
  | nil => exact h
  | cons e rest ih => exact ih (h.edit hfits.1) hfits.2

theorem mem_ids_methodsOf {file : FileId} {id : MethodId} :
    id ∈ (p.methodsOf file).map (·.id) ↔ ∃ m, p.method? id = some m ∧ m.file = file := by
  rw [List.mem_map]
  constructor
  · rintro ⟨m, hm, rfl⟩
    rw [methodsOf, List.mem_filter, decide_eq_true_eq] at hm
    exact ⟨m, method?_of_mem_methods hm.1, hm.2⟩
  · rintro ⟨m, hm, hfile⟩
    refine ⟨m, ?_, id_of_method? hm⟩
    rw [methodsOf, List.mem_filter, decide_eq_true_eq]
    exact ⟨mem_methods_of_method? hm, hfile⟩

/-- **What a history of edits leaves.** When each class, field and method that is added names files
and classes that exist, every entity stands at the position of its identity, and all lists of
members are right: those of files and classes, and the one of the methods of a file. A new method
gets an identity that none had before, and from then on only this method, edited, is found under it.
Every edit counts once, unless it is about a method that is not there; then it is refused and the
program stays as it is. -/
theorem arena_after_edits (edits : List Edit) (hfits : Program.empty.Admits edits) :
    let p := Program.empty.editAll edits
    ((∀ (i : Nat) (f : SourceFile), p.files[i]? = some f → f.id = ⟨i⟩) ∧
      (∀ (i : Nat) (c : TypeDecl), p.classes[i]? = some c → c.id = ⟨i⟩) ∧
      (∀ (i : Nat) (m : Method), p.methodSlots[i]? = some (some m) → m.id = ⟨i⟩) ∧
      (∀ (i : Nat) (f : Field), p.fields[i]? = some f → f.id = ⟨i⟩)) ∧
    p.Linked ∧
    (∀ file, ((p.methodsOf file).map (·.id)).Pairwise (·.index < ·.index) ∧
      ∀ id, id ∈ (p.methodsOf file).map (·.id) ↔ ∃ m, p.method? id = some m ∧ m.file = file) ∧
    (∀ m, let id := (p.addMethod m).1
      ¬ p.HasGiven id ∧ (p.addMethod m).2.HasGiven id ∧
        (p.addMethod m).2.method? id = some { m with id }) ∧
    (∀ later id m', p.HasGiven id → (p.editAll later).method? id = some m' →
      ∃ m, p.method? id = some m ∧ m.Becomes m') ∧
    (∀ e, ¬ p.Refuses e → (p.edit e).revision = p.revision + 1) ∧
    (∀ e, p.Refuses e → p.edit e = p) ∧
    ∀ id, p.method? id = none →
      (∀ body source, p.replaceBody id body source = .error (.unknownMethod id)) ∧
        (∀ name, p.renameMethod id name = .error (.unknownMethod id)) ∧
          p.removeMethod id = none := by
  intro p
  refine ⟨⟨p.files_numbered, p.classes_numbered, fun i m hm => p.slots_numbered i _ hm m rfl,
    p.fields_numbered⟩, linked_empty.editAll hfits, fun file => ⟨?_, fun id => mem_ids_methodsOf⟩,
    fun m => ?_, fun later id m' hid hm' => becomes_after_edits hid hm',
    fun e he => revision_edit he, fun e he => he.edit_eq, fun id hid => refused_of_missing hid⟩
  · rw [List.pairwise_map]
    exact p.pairwise_methods.filter _
  · refine ⟨Nat.lt_irrefl _, ?_, ?_⟩
    · simp [HasGiven, addMethod, pushMethod, bump]
    · exact (method?_addMethod p m _).trans (if_pos rfl)

/-- A class with a nested class, a field and three methods, of which one is renamed and one is
removed before the last one comes: the list of methods is that of the two that are left, and the
removed one is not edited any more. -/
theorem arena_after_removal :
    let method (name : String) : Edit :=
  .addMethod { name, owner := some ⟨0⟩, file := ⟨0⟩, text := name ++ "()" }
    let edits : List Edit :=
      [.addFile ⟨"K.java"⟩ none [] .project,
        .addClass { name := "K", qualifiedName := "K", file := ⟨0⟩ },
        .addClass { name := "L", qualifiedName := "K.L", file := ⟨0⟩, outer := some ⟨0⟩ },
        .addField { name := "x", owner := ⟨0⟩, type := default }, method "f", method "g",
        .renameMethod ⟨1⟩ "h", .removeMethod ⟨0⟩, .replaceBody ⟨0⟩ none "", method "f", .touch]
    let p := Program.empty.editAll edits
    Program.empty.Admits edits ∧ p.revision = 10 ∧
      (p.class? ⟨0⟩).map (fun c => (c.nested, c.fields)) = some ([⟨1⟩], [⟨0⟩]) ∧
      (p.class? ⟨0⟩).map (·.methods) = some [⟨1⟩, ⟨2⟩] ∧
      (∀ id, id ∈ [⟨1⟩, ⟨2⟩] ↔ ∃ m, p.method? id = some m ∧ m.owner = some ⟨0⟩) ∧
      p.edit (.renameMethod ⟨0⟩ "g") = p := by
  intro method edits p
  have hfits : Program.empty.Admits edits := by decide +kernel
  have hmethods : (p.class? ⟨0⟩).map (·.methods) = some [⟨1⟩, ⟨2⟩] := by decide +kernel
  have hgone : p.method? ⟨0⟩ = none := by
    rw [← Option.isNone_iff_eq_none]
    decide +kernel
  obtain ⟨-, hlinked, -, -, -, -, hrefused, -⟩ := arena_after_edits edits hfits
  refine ⟨hfits, by decide +kernel, by decide +kernel, hmethods, ?_, ?_⟩
  · exact hlinked.methods.mem_iff ⟨0⟩ _ hmethods
  · exact hrefused _ ⟨⟨0⟩, rfl, hgone⟩

end Program

end KernelLint
