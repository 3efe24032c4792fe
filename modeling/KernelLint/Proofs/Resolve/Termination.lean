import KernelLint.Proofs.Java.Reading
import KernelLint.Proofs.Resolve.StaticImports

/-!
# Termination

Resolution goes from a class to the class around it, and from a class to the class it extends, until
a search succeeds or there is no further class. A source text can make classes extend each other, so
the searches along extended classes count the classes and give up. The searches along enclosing
classes do not count. They end because a class stands inside earlier classes only (`OuterFirst`),
and would not end otherwise (`not_endsWithin_of_inside_itself`).

The searches are given here as loops whose turns may go on for ever. Each of them is shown to end,
with the answer that the resolution takes from it, at all moments of the resolution of every program
that is made from syntax trees by reading, resolving and editing (`resolution_terminates`).
-/

namespace KernelLint

/-! ## Loops -/

/-- The loop has the answer after at most `n` turns. A turn leads to the next state or to the
answer. -/
inductive EndsWithin {σ α : Type} (turn : σ → σ ⊕ α) : Nat → σ → α → Prop
  | answer {n : Nat} {s : σ} {a : α} (h : turn s = .inr a) : EndsWithin turn (n + 1) s a
  | next {n : Nat} {s s' : σ} {a : α} (h : turn s = .inl s') (hrest : EndsWithin turn n s' a) :
      EndsWithin turn (n + 1) s a

namespace Program

variable {p q : Program} {name : String} {arity : Nat}

/-! ## Enclosing classes -/

theorem OuterFirst.enclosing_induction (h : p.OuterFirst) {motive : Option ClassId → Prop}
    (none : motive none) (some : ∀ id, motive ((p.class? id).bind (·.outer)) → motive (some id))
    (owner : Option ClassId) : motive owner := by
  cases owner with
  | none => exact none
  | some id =>
    induction hn : id.index using Nat.strongRecOn generalizing id with
    | ind n ih =>
      apply some
      cases hc : p.class? id with
      | none => exact none
      | some c =>
        rw [Option.bind_some]
        cases ho : c.outer with
        | none => exact none
        | some o => exact ih o.index (hn ▸ h.index_lt hc ho) o rfl

theorem OuterFirst.enclosingUpTo_succ (h : p.OuterFirst) {n : Nat} {owner : Option ClassId}
    (hn : ∀ id ∈ owner, id.index < n) :
    p.enclosingUpTo (n + 1) owner = p.enclosingUpTo n owner := by
  induction n generalizing owner with
  | zero =>
    cases owner with
    | none => rfl
    | some id => exact absurd (hn id rfl) (Nat.not_lt_zero _)
  | succ n ih =>
    cases owner with
    | none => rfl
    | some id =>
      rw [enclosingUpTo, enclosingUpTo, ih]
      intro o ho
      obtain ⟨c, hc, houter⟩ := Option.bind_eq_some_iff.mp ho
      have := h.index_lt hc houter
      have := hn id rfl
      omega

theorem enclosing_none (p : Program) : p.enclosing none = [] := rfl

theorem OuterFirst.enclosing_some (h : p.OuterFirst) (id : ClassId) :
    p.enclosing (some id) = id :: p.enclosing ((p.class? id).bind (·.outer)) := by
  rw [enclosing, enclosingUpTo, enclosing, h.enclosingUpTo_succ]
  intro o ho
  obtain ⟨c, hc, houter⟩ := Option.bind_eq_some_iff.mp ho
  exact Nat.lt_trans (h.index_lt hc houter) (index_lt_of_class? hc)

theorem OuterFirst.length_enclosing_le (h : p.OuterFirst) (owner : Option ClassId) :
    ∀ id ∈ owner, (p.enclosing owner).length ≤ id.index + 1 := by
  induction owner using h.enclosing_induction with
  | none => nofun
  | some id ih =>
    rintro _ ⟨⟩
    rw [h.enclosing_some, List.length_cons]
    cases houter : (p.class? id).bind (·.outer) with
    | none => exact Nat.le_add_left 1 id.index
    | some o =>
      obtain ⟨c, hc, ho⟩ := Option.bind_eq_some_iff.mp houter
      have hlength := ih o houter
      have hlt := h.index_lt hc ho
      rw [houter] at hlength
      omega

/-- The search for the class of a simple name. It ends at a class of that name or with a member of
it, at a class that is not there, or in the file once there is no further class. -/
def simpleNameTurn (p : Program) (name : String) (file : FileId) :
    Option ClassId → Option ClassId ⊕ Option String
  | none => .inr <| (p.file? file).bind fun f =>
    p.qualifyPackage? name f <|> qualifySingle? name f <|> Library.implicitClass? name <|>
      p.qualifyOnDemand? name f
  | some id =>
    match p.class? id with
    | none => .inr none
    | some c =>
      if c.name = name then .inr (some c.qualifiedName)
      else if p.hasClass (c.qualifiedName ++ "." ++ name) then .inr
        (some (c.qualifiedName ++ "." ++ name))
      else .inl c.outer

/-- The search for the field of a simple name. -/
def fieldTurn (p : Program) (name : String) : Option ClassId → Option ClassId ⊕ Option FieldId
  | none => .inr none
  | some id =>
    match p.findField? id name with
    | some f => .inr (some f)
    | none => .inl ((p.class? id).bind (·.outer))

/-- The search for the method of a call without a qualifier. It goes on in the program that the
search in a class leaves. -/
def callTurn (name : String) (arity : Nat) :
    Option ClassId × Program → (Option ClassId × Program) ⊕ (Option MethodId × Program)
  | (none, p) => .inr (none, p)
  | (some id, p) =>
    match p.findMethodIn id name arity with
    | (some m, q) => .inr (some m, q)
    | (none, q) => .inl ((q.class? id).bind (·.outer), q)

theorem OuterFirst.qualifySimple?_missing (h : p.OuterFirst) {id : ClassId}
    (hc : p.class? id = none) (name : String) (file : FileId) :
    p.qualifySimple? name ⟨file, some id⟩ = none := by
  simp [qualifySimple?, qualifyEnclosing?, siteFile?, h.enclosing_some, enclosing_none, hc]

theorem OuterFirst.qualifySimple?_some (h : p.OuterFirst) {id : ClassId} {c : TypeDecl}
    (hc : p.class? id = some c) (name : String) (file : FileId) :
    p.qualifySimple? name ⟨file, some id⟩ =
      if c.name = name then some c.qualifiedName
      else if p.hasClass (c.qualifiedName ++ "." ++ name) then some (c.qualifiedName ++ "." ++ name)
      else p.qualifySimple? name ⟨file, c.outer⟩ := by
  simp only [qualifySimple?, qualifyEnclosing?, siteFile?, h.enclosing_some, hc, Option.bind_some,
    List.filterMap_cons, List.findSome?_cons, List.all_cons, Option.isSome_some, Bool.true_and]
  by_cases hname : c.name = name
  · simp only [if_pos hname]
    rfl
  · by_cases hnested : p.hasClass (c.qualifiedName ++ "." ++ name) = true
    · simp only [if_neg hname, if_pos hnested]
      rfl
    · simp only [if_neg hname, if_neg hnested]

theorem OuterFirst.simpleName_ends (h : p.OuterFirst) (name : String) (file : FileId)
    (owner : Option ClassId) :
    EndsWithin (p.simpleNameTurn name file) ((p.enclosing owner).length + 1) owner
      (p.qualifySimple? name ⟨file, owner⟩) := by
  induction owner using h.enclosing_induction with
  | none => exact .answer rfl
  | some id ih =>
    rw [h.enclosing_some, List.length_cons]
    cases hc : p.class? id with
    | none =>
      rw [h.qualifySimple?_missing hc]
      exact .answer (by simp only [simpleNameTurn, hc])
    | some c =>
      rw [hc, Option.bind_some] at ih
      rw [h.qualifySimple?_some hc, Option.bind_some]
      by_cases hname : c.name = name
      · rw [if_pos hname]
        exact .answer (by simp only [simpleNameTurn, hc, if_pos hname])
      · by_cases hnested : p.hasClass (c.qualifiedName ++ "." ++ name) = true
        · rw [if_neg hname, if_pos hnested]
          exact .answer (by simp only [simpleNameTurn, hc, if_neg hname, if_pos hnested])
        · rw [if_neg hname, if_neg hnested]
          exact .next (by simp only [simpleNameTurn, hc, if_neg hname, if_neg hnested]) ih

theorem OuterFirst.field_ends (h : p.OuterFirst) (name : String) (owner : Option ClassId) :
    EndsWithin (p.fieldTurn name) ((p.enclosing owner).length + 1) owner
      ((p.enclosing owner).findSome? (p.findField? · name)) := by
  induction owner using h.enclosing_induction with
  | none => exact .answer rfl
  | some id ih =>
    rw [h.enclosing_some, List.length_cons, List.findSome?_cons]
    cases hf : p.findField? id name with
    | some f => exact .answer (by simp only [fieldTurn, hf])
    | none => exact .next (by simp only [fieldTurn, hf]) ih

theorem OuterFirst.call_ends (h : p.OuterFirst) (name : String) (arity : Nat)
    (owner : Option ClassId) :
    EndsWithin (callTurn name arity) ((p.enclosing owner).length + 1) (owner, p)
      (findMethodAmong name arity (p.enclosing owner) p) := by
  induction owner using h.enclosing_induction with
  | none => exact .answer rfl
  | some id ih =>
    rw [h.enclosing_some, List.length_cons, findMethodAmong]
    cases hfound : p.findMethodIn id name arity with
    | mk found next =>
      cases found with
      | some m => exact .answer (by simp only [callTurn, hfound])
      | none =>
        -- A search that fails makes no stand-ins, so the next turn sees the same classes.
        obtain rfl : next = p := by
          have hself := @findMethodUpTo_eq_self p name arity chainLimit id
            (congrArg Prod.fst hfound)
          exact (congrArg Prod.snd hfound).symm.trans hself
        exact .next (by simp only [callTurn, hfound]) ih

theorem not_endsWithin_of_inside_itself {id : ClassId} {c : TypeDecl} (hc : p.class? id = some c)
    (hself : c.outer = some id) (hnone : p.findField? id name = none) (n : Nat)
    (answer : Option FieldId) :
    ¬ EndsWithin (p.fieldTurn name) n (some id) answer := by
  have hturn : p.fieldTurn name (some id) = .inl (some id) := by
    simp only [fieldTurn, hnone, hc, Option.bind_some, hself]
  induction n with
  | zero => nofun
  | succ n ih =>
    intro h
    cases h with
    | answer h => cases hturn.symm.trans h
    | next h hrest =>
      obtain rfl := Sum.inl.inj (hturn.symm.trans h)
      exact ih hrest

/-! ## Extended classes -/

/-- The search for a field along extended classes, with the number of classes that it has left
behind. -/
def inheritedFieldTurn (p : Program) (name : String) :
    Option ClassId × Nat → (Option ClassId × Nat) ⊕ Option FieldId
  | (none, _) => .inr none
  | (some id, hops) =>
    match p.ownField? id name with
    | some f => .inr (some f)
    | none => if 32 < hops + 1 then .inr none else .inl (p.superClass? id, hops + 1)

/-- The search for a method along extended classes. Only a search that succeeds makes stand-ins. -/
def inheritedMethodTurn (name : String) (arity : Nat) :
    Option ClassId × Nat × Program → (Option ClassId × Nat × Program) ⊕ (Option MethodId × Program)
  | (none, _, p) => .inr (none, p)
  | (some id, hops, p) =>
    match pickByArity (p.methodsNamed id name) arity with
    | some m => .inr (some m.id, p)
    | none =>
      if p.isLibraryClass id then
        let (m, p) := p.stubMethod id name arity
        .inr (some m, p)
      else match p.outsideSuperName? id with
        | some superName =>
          let (c, p) := p.stubClass superName
          let (m, p) := p.stubMethod c name arity
          .inr (some m, p)
        | none => if 32 < hops + 1 then .inr (none, p) else .inl (p.superClass? id, hops + 1, p)

theorem inheritedField_ends_from (p : Program) (name : String) {n hops : Nat} (hn : hops + n = 32)
    (id : ClassId) :
    EndsWithin (p.inheritedFieldTurn name) (n + 1) (some id, hops)
      (p.findFieldUpTo name (n + 1) id) := by
  induction n generalizing hops id with
  | zero =>
    have hlast : 32 < hops + 1 := by omega
    refine .answer ?_
    cases hf : p.ownField? id name with
    | some f => simp [inheritedFieldTurn, findFieldUpTo, hf]
    | none => cases hsuper : p.superClass? id <;>
        simp [inheritedFieldTurn, findFieldUpTo, hf, hlast, hsuper]
  | succ n ih =>
    have hmore : ¬ 32 < hops + 1 := by omega
    rw [findFieldUpTo]
    cases hf : p.ownField? id name with
    | some f => exact .answer (by simp [inheritedFieldTurn, hf])
    | none =>
      have hturn : p.inheritedFieldTurn name (some id, hops) =
          .inl (p.superClass? id, hops + 1) := by
        simp [inheritedFieldTurn, hf, hmore]
      refine .next hturn ?_
      cases hsuper : p.superClass? id with
      | none => exact .answer rfl
      | some superId => exact ih (by omega) superId

/-- **The search for an inherited field ends**, also where classes extend each other. -/
theorem inheritedField_ends (p : Program) (name : String) (id : ClassId) :
    EndsWithin (p.inheritedFieldTurn name) chainLimit (some id, 0) (p.findField? id name) :=
  p.inheritedField_ends_from name rfl id

/-- A turn of the search for a method: it answers what the search answers, or hands it on to the
extended class. -/
theorem inheritedMethodTurn_cases (p : Program) (name : String) (arity : Nat) (id : ClassId)
    (hops : Nat) :
    (∃ answer, inheritedMethodTurn name arity (some id, hops, p) = .inr answer ∧
      ∀ n, findMethodUpTo name arity (n + 1) id p = answer) ∨
    (inheritedMethodTurn name arity (some id, hops, p) =
        (if 32 < hops + 1 then .inr (none, p) else .inl (p.superClass? id, hops + 1, p)) ∧
      ∀ n, findMethodUpTo name arity (n + 1) id p =
        ((p.superClass? id).map fun superId => findMethodUpTo name arity n superId p).getD
          (none, p)) := by
  cases hpick : pickByArity (p.methodsNamed id name) arity with
  | some m => exact .inl ⟨(some m.id, p),
      by simp only [inheritedMethodTurn, hpick], fun n => findMethodUpTo_picked hpick⟩
  | none =>
    have hnone := pickByArity_eq_none.mp hpick
    cases hlibrary : p.isLibraryClass id with
    | true =>
      refine .inl ⟨_, ?_, fun n => findMethodUpTo_library hnone hlibrary⟩
      simp only [inheritedMethodTurn, hpick, hlibrary, if_true]
    | false =>
      cases houtside : p.outsideSuperName? id with
      | some superName =>
        refine .inl ⟨_, ?_, fun n => findMethodUpTo_outside hnone hlibrary houtside⟩
        simp only [inheritedMethodTurn, hpick, hlibrary, Bool.false_eq_true, if_false, houtside]
      | none =>
        refine .inr ⟨?_, fun n => ?_⟩
        · simp only [inheritedMethodTurn, hpick, hlibrary, Bool.false_eq_true, if_false, houtside]
        · cases hsuper : p.superClass? id with
          | none => exact findMethodUpTo_last hnone hlibrary houtside hsuper
          | some superId => exact findMethodUpTo_next hnone hlibrary houtside hsuper

theorem inheritedMethod_ends_from (p : Program) (name : String) (arity : Nat) {n hops : Nat}
    (hn : hops + n = 32) (id : ClassId) : EndsWithin (inheritedMethodTurn name arity) (n + 1)
    (some id, hops, p)
      (findMethodUpTo name arity (n + 1) id p) := by
  induction n generalizing hops id with
  | zero =>
    have hlast : 32 < hops + 1 := by omega
    rcases p.inheritedMethodTurn_cases name arity id hops with ⟨answer, hturn,
      hanswer⟩ | ⟨hturn, hanswer⟩
    · exact .answer (hanswer 0 ▸ hturn)
    · refine .answer ?_
      rw [hturn, if_pos hlast, hanswer]
      cases p.superClass? id <;> rfl
  | succ n ih =>
    have hmore : ¬ 32 < hops + 1 := by omega
    rcases p.inheritedMethodTurn_cases name arity id hops with ⟨answer, hturn,
      hanswer⟩ | ⟨hturn, hanswer⟩
    · exact .answer (hanswer (n + 1) ▸ hturn)
    · rw [if_neg hmore] at hturn
      rw [hanswer]
      refine .next hturn ?_
      cases p.superClass? id with
      | none => exact .answer rfl
      | some superId => exact ih (by omega) superId

/-- **The search for an inherited method ends**, also where classes extend each other. -/
theorem inheritedMethod_ends (p : Program) (name : String) (arity : Nat) (id : ClassId) :
    EndsWithin (inheritedMethodTurn name arity) chainLimit (some id, 0, p)
      (p.findMethodIn id name arity) :=
  p.inheritedMethod_ends_from name arity rfl id

/-! ## All moments of a resolution -/

/-- All searches in the program end, and they end with the answers that the resolution takes from
them. Along enclosing classes there is at most one turn for each of them and one more, along
extended classes there are at most `chainLimit`. -/
structure SearchesEnd (p : Program) : Prop where
  outerFirst : ∀ id c o, p.class? id = some c → c.outer = some o → o.index < c.id.index
  depth : ∀ id, (p.enclosing (some id)).length ≤ id.index + 1
  simpleName : ∀ name (site : Site),
    EndsWithin (p.simpleNameTurn name site.file) ((p.enclosing site.owner).length + 1)
    site.owner (p.qualifySimple? name site)
  field : ∀ name owner, EndsWithin (p.fieldTurn name) ((p.enclosing owner).length + 1) owner
    ((p.enclosing owner).findSome? (p.findField? · name))
  call : ∀ name arity owner,
    EndsWithin (callTurn name arity) ((p.enclosing owner).length + 1) (owner, p)
    (findMethodAmong name arity (p.enclosing owner) p)
  inheritedField : ∀ name id, EndsWithin (p.inheritedFieldTurn name) chainLimit (some id, 0)
    (p.findField? id name)
  inheritedMethod : ∀ name arity id,
    EndsWithin (inheritedMethodTurn name arity) chainLimit (some id, 0, p)
      (p.findMethodIn id name arity)

theorem OuterFirst.searchesEnd (h : p.OuterFirst) : p.SearchesEnd where
  outerFirst := by
    intro id c o hc ho
    have hid : c.id = id := p.classes_numbered id.index c hc
    rw [hid]
    exact h.index_lt hc ho
  depth id := h.length_enclosing_le (some id) id rfl
  simpleName name site := h.simpleName_ends name site.file site.owner
  field := h.field_ends
  call := h.call_ends
  inheritedField := p.inheritedField_ends
  inheritedMethod := p.inheritedMethod_ends

/-- A program as it is made from syntax trees: trees are read, what was read is resolved, and the
program is edited, in any order. The trees are arbitrary, so they can be those of any source texts.
The only edit left out is the one by which a class is added from elsewhere. -/
inductive IsMade : Program → Prop
  | empty : IsMade .empty
  | addTree {p : Program} (h : IsMade p) (path : Path) (root : Java.Tree) (origin : Origin) :
    IsMade (p.addTree path root origin).2
  | resolve {p : Program} (h : IsMade p) : IsMade p.resolve
  | edit {p : Program} (h : IsMade p) {e : Edit} (he : ∀ c, e ≠ .addClass c) : IsMade (p.edit e)

theorem OuterFirst.resolves (h : p.OuterFirst) (hq : p.qualifySignatures.Resolves q) :
    q.OuterFirst :=
  h.qualifySignatures.grows hq.grows

theorem IsMade.outerFirst (h : p.IsMade) : p.OuterFirst := by
  induction h with
  | empty => exact outerFirst_empty
  | addTree _ path root origin ih => exact ih.addTree path root origin
  | resolve _ ih => exact ih.resolves (resolves_resolve _)
  | edit _ he ih => exact ih.edit he

/-- **Resolution terminates on every source.** A program that is made from syntax trees has
enclosing classes first, and its searches end, before its signatures are qualified and at all
moments from there to the end of the resolution. -/
theorem resolution_terminates (hp : p.IsMade) (hq : q = p ∨ p.qualifySignatures.Resolves q) :
    q.SearchesEnd := by
  rcases hq with rfl | hq
  · exact hp.outerFirst.searchesEnd
  · exact (hp.outerFirst.resolves hq).searchesEnd

/-- Two classes that extend each other, a class inside one of them, and the end of the text missing.
What was read is resolved, and then a method gets another name. -/
def extendingEachOther : Program :=
  ((Program.empty.addSource ⟨"A.java"⟩
    "class A extends B { class N { int k() { return f() + x; } } }
    class B extends A \x7b void g() \x7b h(" .project).2.resolve).edit (.renameMethod ⟨1⟩ "i")

/-- There the search for a field goes around in the cycle and gives up, for the class inside as
well, and so does the search for a method. -/
theorem resolution_terminates_extendingEachOther :
    let q := extendingEachOther.resolve
    q.superClass? ⟨0⟩ = some ⟨2⟩ ∧ q.superClass? ⟨2⟩ = some ⟨0⟩ ∧
      q.enclosing (some ⟨1⟩) = [⟨1⟩, ⟨0⟩] ∧ q.SearchesEnd ∧
      EndsWithin (q.inheritedFieldTurn "x") chainLimit (some ⟨0⟩, 0) none ∧
      EndsWithin (q.fieldTurn "x") 3 (some ⟨1⟩) none ∧
      EndsWithin (callTurn "f" 0) 3 (some ⟨1⟩, q) (none, q) := by
  intro q
  have hmade : extendingEachOther.IsMade := .edit (.resolve (.addTree .empty _ _ _)) fun _ => nofun
  have hends : q.SearchesEnd := resolution_terminates hmade (.inr (resolves_resolve _))
  have hfacts : q.superClass? ⟨0⟩ = some ⟨2⟩ ∧ q.superClass? ⟨2⟩ = some ⟨0⟩ ∧
    q.enclosing (some ⟨1⟩) = [⟨1⟩, ⟨0⟩] ∧
      q.findField? ⟨0⟩ "x" = none ∧ [⟨1⟩, ⟨0⟩].findSome? (q.findField? · "x") = none ∧
      (findMethodAmong "f" 0 [⟨1⟩, ⟨0⟩] q).1 = none := by
    decide +kernel
  obtain ⟨hsuper, hsuper', henclosing, hinherited, hfield, hcall⟩ := hfacts
  refine ⟨hsuper, hsuper', henclosing, hends, hinherited ▸ hends.inheritedField "x" ⟨0⟩, ?_, ?_⟩
  · have hfields := hends.field "x" (some ⟨1⟩)
    rw [henclosing, hfield] at hfields
    exact hfields
  · have hcalls := hends.call "f" 0 (some ⟨1⟩)
    rw [henclosing, findMethodAmong_eq_none hcall] at hcalls
    exact hcalls

end Program

end KernelLint
