import KernelLint.Proofs.Program.Live
import KernelLint.Proofs.Resolve.Meaning

/-!
# Classes in bodies

A class that is declared in a body stands inside the class around the body and is named after it.
This is said of the walk of every body (`Housed`); what is added to a program leaves it true, since
classes keep their names and places.
-/

namespace KernelLint

/-- The qualified name of a class inside something of the given name. -/
def qualifiedIn (within name : String) :
    String := if within.isEmpty then name else within ++ "." ++ name

theorem qualifiedIn_cases (within name : String) :
    qualifiedIn within name = name ∨ Text.isDotted (qualifiedIn within name) = true := by
  unfold qualifiedIn
  split
  · exact .inl rfl
  · exact .inr (Text.isDotted_qualified ..)

namespace Program

variable {p q : Program} {owner : Option ClassId} {within : String} {id : ClassId}

/-- The class stands in the given place and is named after it. The first class of a program takes
the place of classes for whose trees a reader is too low. -/
def IsInside (p : Program) (outer : Option ClassId) (within : String) (id : ClassId) : Prop :=
  id = ⟨0⟩ ∨ ∃ c, p.class? id = some c ∧ c.outer = outer ∧
    c.qualifiedName = qualifiedIn within c.name

/-- The class stands inside the other one, which is in the program, and is named after it. -/
def Houses (p : Program) (owner : Option ClassId) (id : ClassId) : Prop :=
  ∃ within, (owner.bind p.class?).map (·.qualifiedName) = some within ∧ p.IsInside owner within id

/-- The classes that are declared in bodies stand inside the classes of the bodies, and a local
class stands in a class. -/
structure Housed (p : Program) : Prop where
  bodies : ∀ id m, p.method? id = some m → ∀ cls, Visit.localClass cls ∈ m.visits →
    p.Houses m.owner cls
  locals : ∀ id c, p.class? id = some c → c.isLocal = true → c.outer.isSome = true

/-- All classes of the first program are in the second one, under the same names and in the same
places, and new local classes stand in a class. -/
structure KeepsClasses (p q : Program) : Prop where
  kept : ∀ id c, p.class? id = some c → ∃ c', q.class? id = some c' ∧ c'.label = c.label
  locals : ∀ id c, q.class? id = some c → c.isLocal = true → c.outer.isSome = true ∨
    ∃ c', p.class? id = some c' ∧ c'.isLocal = true ∧ c'.outer = c.outer

theorem KeepsClasses.refl (p : Program) : p.KeepsClasses p :=
  ⟨fun _ c hc => ⟨c, hc, rfl⟩, fun _ c hc hlocal => .inr ⟨c, hc, hlocal, rfl⟩⟩

theorem KeepsClasses.trans {r : Program} (h : p.KeepsClasses q) (h' : q.KeepsClasses r) :
    p.KeepsClasses r where
  kept := by
    intro id c hc
    obtain ⟨c', hc', hlabel⟩ := h.kept id c hc
    obtain ⟨c'', hc'', hlabel'⟩ := h'.kept id c' hc'
    exact ⟨c'', hc'', hlabel'.trans hlabel⟩
  locals := by
    intro id c hc hlocal
    rcases h'.locals id c hc hlocal with houter | ⟨c', hc', hlocal', houter⟩
    · exact .inl houter
    · rw [← houter]
      exact h.locals id c' hc' hlocal'

theorem Grows.keepsClasses (h : p.Grows q) : p.KeepsClasses q where
  kept := fun _ _ hc => h.extends.type hc
  locals := by
    intro id c hc hlocal
    cases hold : p.class? id with
    | none => simp [(h.newType hc hold).1.isLocal_eq] at hlocal
    | some d =>
      obtain ⟨d', hd', hgrows⟩ := h.type hold
      obtain rfl := Option.some.inj (hd'.symm.trans hc)
      rw [hgrows.same] at hlocal
      exact .inr ⟨d, rfl, hlocal, hgrows.outer_eq.symm⟩

theorem KeepsClasses.of_classes (h : q.classes = p.classes) : p.KeepsClasses q := by
  have hsame : ∀ id, q.class? id = p.class? id := fun id => by rw [class?, class?, h]
  exact ⟨fun id c hc => ⟨c, (hsame id).trans hc, rfl⟩,
    fun id c hc hlocal => .inr ⟨c, hsame id ▸ hc, hlocal, rfl⟩⟩

theorem keepsClasses_of_map {f : ClassId → TypeDecl → TypeDecl}
    (hf : ∀ id c, (f id c).label = c.label ∧ (f id c).isLocal = c.isLocal)
    (hmap : ∀ id, q.class? id = (p.class? id).map (f id)) : p.KeepsClasses q where
  kept := fun id c hc => ⟨f id c, by rw [hmap, hc, Option.map_some], (hf id c).1⟩
  locals := by
    intro id c hc hlocal
    rw [hmap] at hc
    obtain ⟨c', hc', rfl⟩ := Option.map_eq_some_iff.mp hc
    obtain ⟨hlabel, hsame⟩ := hf id c'
    have houter : (f id c').outer = c'.outer := congrArg (·.2.2) hlabel
    exact .inr ⟨c', hc', hsame ▸ hlocal, houter.symm⟩

theorem IsInside.later (h : p.IsInside owner within id) (hkept : p.KeepsClasses q) :
    q.IsInside owner within id := by
  rcases h with rfl | ⟨c, hc, houter, hnamed⟩
  · exact .inl rfl
  · obtain ⟨c', hc', hlabel⟩ := hkept.kept id c hc
    simp only [TypeDecl.label, Prod.mk.injEq] at hlabel
    obtain ⟨hname, hqualified, hsame⟩ := hlabel
    exact .inr ⟨c', hc', hsame.trans houter, by rw [hqualified, hname, hnamed]⟩

theorem Houses.later (h : p.Houses owner id) (hkept : p.KeepsClasses q) : q.Houses owner id := by
  obtain ⟨within, hwithin, hinside⟩ := h
  refine ⟨within, ?_, hinside.later hkept⟩
  obtain ⟨outer, houter, rfl⟩ := Option.map_eq_some_iff.mp hwithin
  obtain ⟨o, rfl, ho⟩ := Option.bind_eq_some_iff.mp houter
  obtain ⟨outer', houter', hlabel⟩ := hkept.kept o outer ho
  rw [Option.bind_some, houter', Option.map_some]
  exact congrArg (fun label => some label.2.1) hlabel

theorem housed_empty : Program.empty.Housed := by
  refine ⟨fun id m hm => ?_, fun id c hc => ?_⟩
  · simp [method?, Program.empty] at hm
  · simp [class?, Program.empty] at hc

theorem Housed.locals_later (h : p.Housed) (hkept : p.KeepsClasses q) :
    ∀ id c, q.class? id = some c → c.isLocal = true → c.outer.isSome = true := by
  intro id c hc hlocal
  rcases hkept.locals id c hc hlocal with houter | ⟨c', hc', hlocal', houter⟩
  · exact houter
  · rw [← houter]
    exact h.locals id c' hc' hlocal'

theorem Housed.later (h : p.Housed) (hkept : p.KeepsClasses q)
    (hmethods : ∀ id m, q.method? id = some m → (∃ cls, Visit.localClass cls ∈ m.visits) →
      ∃ m', p.method? id = some m' ∧
      m.owner = m'.owner ∧ ∀ cls, Visit.localClass cls ∈ m.visits →
      Visit.localClass cls ∈ m'.visits) : q.Housed := by
  refine ⟨fun id m hm cls hcls => ?_, h.locals_later hkept⟩
  obtain ⟨m', hm', howner, hvisits⟩ := hmethods id m hm ⟨cls, hcls⟩
  rw [howner]
  exact (h.bodies id m' hm' cls (hvisits cls hcls)).later hkept

theorem Housed.of_methodSlots (h : p.Housed) (hkept : p.KeepsClasses q)
    (hslots : q.methodSlots = p.methodSlots) :
    q.Housed := by
  refine h.later hkept fun id m hm _ => ⟨m, ?_, rfl, fun _ hcls => hcls⟩
  rw [method?, ← hslots]
  exact hm

/-! ## What can be added -/

theorem keepsClasses_addMethod (p : Program) (m : Method) : p.KeepsClasses (p.addMethod m).2 := by
  have hclass : ∀ id, (p.addMethod m).2.class? id = (p.class? id).map fun x =>
      if m.owner = some id then { x with methods := x.methods ++ [⟨p.methodSlots.size⟩] } else x :=
    p.class?_relinkMethod m _
  refine keepsClasses_of_map (fun id c => ?_) hclass
  split <;> exact ⟨rfl, rfl⟩

theorem Housed.addMethod (h : p.Housed) {m : Method}
    (hm : ∀ cls, Visit.localClass cls ∈ m.visits → p.Houses m.owner cls) :
    (p.addMethod m).2.Housed := by
  refine ⟨fun id x hx cls hcls => ?_, h.locals_later (p.keepsClasses_addMethod m)⟩
  rw [method?_addMethod] at hx
  split at hx
  · cases hx
    exact (hm cls hcls).later (p.keepsClasses_addMethod m)
  · exact (h.bodies id x hx cls hcls).later (p.keepsClasses_addMethod m)

theorem keepsClasses_addField (p : Program) (f : Field) : p.KeepsClasses (p.addField f).2 := by
  refine keepsClasses_of_map (fun id c => ?_) (p.class?_addField f)
  split <;> exact ⟨rfl, rfl⟩

theorem keepsClasses_addClass (p : Program) {c : TypeDecl}
    (hlocal : c.isLocal = true → c.outer.isSome = true) :
    p.KeepsClasses (p.addClass c).2 where
  kept := by
    intro id x hx
    have hne : id ≠ ⟨p.classes.size⟩ := by
      rintro rfl
      exact Nat.lt_irrefl _ (index_lt_of_class? hx)
    -- Of the old classes only the one around the new one changes, in its list of classes.
    rw [class?_addClass, if_neg hne, hx, Option.map_some]
    split <;> exact ⟨_, rfl, rfl⟩
  locals := by
    intro id x hx hx_local
    rw [class?_addClass] at hx
    split at hx
    · cases hx
      exact .inl (hlocal hx_local)
    · obtain ⟨y, hy, rfl⟩ := Option.map_eq_some_iff.mp hx
      refine .inr ⟨y, hy, ?_, ?_⟩
      · split at hx_local <;> exact hx_local
      · split <;> rfl

end Program

end KernelLint
