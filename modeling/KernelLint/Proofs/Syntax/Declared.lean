import KernelLint.Program.Query
import KernelLint.Proofs.Syntax.Alike
import KernelLint.Proofs.Syntax.Parts
import KernelLint.Proofs.Syntax.Scope
import KernelLint.Syntax.Lookup

/-!
# Declared variables

The variables that a walk meets. What the search for a variable finds is met on the walk
(`Stmt.of_findLocal?`), the search finds a variable for the node of each that is met
(`Stmt.exists_findLocal?`), and the walk of an expression is part of every walk that meets it. A
walk is tidy when no two of its variables share a node and no initializer is out of place. Bodies
that are alike declare their variables at the same nodes (`Stmt.sameGist`), so they are tidy or
untidy together.
-/

namespace KernelLint

/-! ## Searching -/

/-- The search for a variable, from any node on. -/
def Visit.search (id : NodeId) (found : Option Local) : Visit → Option Local
  | .stmt s => s.searchLocal id found
  | .expr e => e.searchLocal id found
  | .localVar l => l.search id found
  | .localClass _ => found

theorem Expr.searchLocalList_eq (id : NodeId) (found : Option Local) (es : List Expr) :
    Expr.searchLocalList id found es =
      (es.map Visit.expr).foldl (fun f w => w.search id f) found := by
  induction es generalizing found with
  | nil => rfl
  | cons e rest ih => exact ih _

theorem Expr.searchLocalOption_eq (id : NodeId) (found : Option Local) (e : Option Expr) :
    Expr.searchLocalOption id found e =
      (e.toList.map Visit.expr).foldl (fun f w => w.search id f) found := by
  cases e <;> rfl

theorem Stmt.searchLocalList_eq (id : NodeId) (found : Option Local) (ss : List Stmt) :
    Stmt.searchLocalList id found ss =
      (ss.map Visit.stmt).foldl (fun f w => w.search id f) found := by
  induction ss generalizing found with
  | nil => rfl
  | cons s rest ih => exact ih _

theorem Stmt.searchLocalOption_eq (id : NodeId) (found : Option Local) (s : Option Stmt) :
    Stmt.searchLocalOption id found s =
      (s.toList.map Visit.stmt).foldl (fun f w => w.search id f) found := by
  cases s <;> rfl

theorem Local.searchList_eq (id : NodeId) (found : Option Local) (ls : List Local) :
    Local.searchList id found ls =
      (ls.map Visit.localVar).foldl (fun f w => w.search id f) found := by
  induction ls generalizing found with
  | nil => rfl
  | cons l rest ih => exact ih _

theorem Handler.searchList_eq (id : NodeId) (found : Option Local) (hs : List Handler) :
    Handler.searchList id found hs =
      (hs.flatMap fun h => [Visit.localVar h.param, .stmt h.body]).foldl
      (fun f w => w.search id f) found := by
  induction hs generalizing found with
  | nil => rfl
  | cons h rest ih =>
    cases h
    exact ih _

/-- What the search does at a node: it goes through the parts, it stops because something is found
already, or the node is the declaration that is looked for. -/
theorem Visit.search_cases (id : NodeId) (found : Option Local) (v : Visit) :
    (v.search id found = v.parts.foldl (fun f w => w.search id f) found ∧ ∀ l, v = .localVar l →
      l.node ≠ id) ∨
    (found.isSome = true ∧ v.search id found = found) ∨
    ∃ l, v = .localVar l ∧ l.node = id ∧ v.search id found = some l := by
  cases v with
  | expr e =>
    refine .inl ⟨?_, by simp⟩
    cases e <;> simp [search, parts, Expr.searchLocal, Expr.searchLocalOption_eq,
      Expr.searchLocalList_eq, Local.searchList_eq]
  | stmt s =>
    by_cases hfound : found.isSome = true
    · refine .inr (.inl ⟨hfound, ?_⟩)
      cases s <;> simp [search, Stmt.searchLocal, hfound]
    · refine .inl ⟨?_, by simp⟩
      cases s <;> simp [search, parts, Stmt.searchLocal, hfound, Expr.searchLocalOption_eq,
        Expr.searchLocalList_eq, Stmt.searchLocalOption_eq, Stmt.searchLocalList_eq,
        Local.searchList_eq, Handler.searchList_eq]
  | localVar l =>
    obtain ⟨head, name, type, init⟩ := l
    by_cases hnode : head.node = id
    · refine .inr (.inr ⟨_, rfl, hnode, ?_⟩)
      simp [search, Local.search, hnode]
    · refine .inl ⟨?_, ?_⟩
      · simp [search, parts, Local.search, hnode, Expr.searchLocalOption_eq]
      · rintro l ⟨⟩
        exact hnode
  | localClass cls => exact .inl ⟨rfl, by simp⟩

/-- The search answers what it had before or a variable of the walk that the node declares, and it
answers something if there is either. -/
structure Searched (id : NodeId) (found : Option Local) (visits : List Visit)
    (result : Option Local) : Prop where
  sound : ∀ l, result = some l → found = some l ∨ Visit.localVar l ∈ visits ∧ l.node = id
  complete : (found.isSome = true ∨ ∃ l, Visit.localVar l ∈ visits ∧ l.node = id) →
    result.isSome = true

namespace Searched

variable {id : NodeId} {found result result' : Option Local} {visits visits' : List Visit}

theorem nil : Searched id found [] found := ⟨fun _ h => .inl h, by simp⟩

theorem append (h : Searched id found visits result) (h' : Searched id result visits' result') :
    Searched id found (visits ++ visits') result' := by
  constructor
  · intro l hl
    rcases h'.sound l hl with hfound | ⟨hmem, hnode⟩
    · exact (h.sound l hfound).imp_right fun ⟨hmem, hnode⟩ => ⟨List.mem_append_left _ hmem, hnode⟩
    · exact .inr ⟨List.mem_append_right _ hmem, hnode⟩
  · rintro (hfound | ⟨l, hl, hnode⟩)
    · exact h'.complete (.inl (h.complete (.inl hfound)))
    · rcases List.mem_append.mp hl with hl | hl
      · exact h'.complete (.inl (h.complete (.inr ⟨l, hl, hnode⟩)))
      · exact h'.complete (.inr ⟨l, hl, hnode⟩)

theorem foldl {ws : List Visit}
    (h : ∀ w ∈ ws, ∀ found, Searched id found w.walk (w.search id found)) :
    Searched id found (ws.flatMap Visit.walk) (ws.foldl (fun f w => w.search id f) found) := by
  induction ws generalizing found with
  | nil => exact nil
  | cons w rest ih =>
    rw [List.flatMap_cons, List.foldl_cons]
    exact (h w List.mem_cons_self found).append (ih fun x hx => h x (List.mem_cons_of_mem _ hx))

end Searched

theorem Visit.searched (id : NodeId) (v : Visit) (found : Option Local) :
    Searched id found v.walk (v.search id found) := by
  induction v using Visit.parts_induction generalizing found with
  | step v ih =>
    have hparts : Searched id found (v.parts.flatMap Visit.walk) _ := Searched.foldl ih
    rw [Visit.walk_eq]
    rcases v.search_cases id found with ⟨hsearch, hother⟩ | ⟨hfound, hsearch⟩ | ⟨l, rfl,
      hnode, hsearch⟩
    · rw [hsearch]
      refine ⟨fun l hl => ?_, ?_⟩
      · exact (hparts.sound l hl).imp_right fun ⟨hmem, hnode⟩ =>
          ⟨List.mem_cons_of_mem _ hmem, hnode⟩
      · rintro (hfound | ⟨l, hl, hnode⟩)
        · exact hparts.complete (.inl hfound)
        · rcases List.mem_cons.mp hl with heq | hl
          · exact absurd hnode (hother l heq.symm)
          · exact hparts.complete (.inr ⟨l, hl, hnode⟩)
    · rw [hsearch]
      exact ⟨fun _ hl => .inl hl, fun _ => hfound⟩
    · rw [hsearch]
      refine ⟨?_, fun _ => rfl⟩
      rintro l' ⟨⟩
      exact .inr ⟨List.mem_cons_self, hnode⟩

/-- **A variable that is found** is met on the walk and declared by the node. -/
theorem Stmt.of_findLocal? {id : NodeId} {s : Stmt} {l : Local} (h : s.findLocal? id = some l) :
    Visit.localVar l ∈ s.visits ∧ l.node = id := by
  rcases ((Visit.stmt s).searched id none).sound l h with hnone | hfound
  · cases hnone
  · exact hfound

theorem Stmt.exists_findLocal? {s : Stmt} {l : Local} (h : Visit.localVar l ∈ s.visits) :
    ∃ l', s.findLocal? l.node = some l' := by
  have hsome := ((Visit.stmt s).searched l.node none).complete (.inr ⟨l, h, rfl⟩)
  exact Option.isSome_iff_exists.mp hsome

namespace Program

variable {m : Method} {id : NodeId} {l : Local}

theorem holds_of_local? (h : local? m id = some l) : m.Holds (.localVar l) ∧ l.node = id := by
  obtain ⟨body, hbody, hfind⟩ := Option.bind_eq_some_iff.mp h
  obtain ⟨hmem, hnode⟩ := Stmt.of_findLocal? hfind
  exact ⟨⟨body, hbody, Visit.mem_walk.mp hmem⟩, hnode⟩

theorem exists_local?_of_holds (h : m.Holds (.localVar l)) : ∃ l', local? m l.node = some l' := by
  obtain ⟨body, hbody, hcontains⟩ := h
  obtain ⟨l', hl'⟩ := Stmt.exists_findLocal? (s := body) (Visit.mem_walk.mpr hcontains)
  exact ⟨l', by rw [local?, hbody, Option.bind_some, hl']⟩

end Program

theorem Stmt.isClosed (s : Stmt) : ∀ e, Visit.expr e ∈ s.visits → ∀ v ∈ e.visits, v ∈ s.visits :=
  fun e he _ hv => Visit.mem_walk_trans (u := .stmt s) (v := .expr e) he hv

/-! ## Tidy walks -/

/-- The node that declares the variable met, if it is one. -/
def Visit.declares? (v : Visit) : Option NodeId := v.localVar?.map Local.node

/-- No initializer is out of place, and no node declares two variables. -/
structure IsTidy (visits : List Visit) : Prop where
  bare : ∀ v ∈ visits, v.isBare = true
  nodup : (visits.filterMap Visit.declares?).Nodup

/-- The class declared inside the body that is met, if it is one. -/
def Visit.localClass? : Visit → Option ClassId
  | .localClass id => some id
  | _ => none

/-- What counts for tidiness, and the class declared inside the body. -/
def Visit.gist (v : Visit) : Option NodeId × Bool × Option ClassId :=
  (v.declares?, v.isBare, v.localClass?)

/-- The two walks have the same gist. -/
def SameGist (visits visits' : List Visit) : Prop := visits'.map Visit.gist = visits.map Visit.gist

theorem IsTidy.of_sameGist {visits visits' : List Visit} (h : IsTidy visits)
    (hgist : SameGist visits visits') :
    IsTidy visits' := by
  have hnodes : visits'.filterMap Visit.declares? = visits.filterMap Visit.declares? := by
    have hmap : ∀ vs : List Visit, vs.filterMap Visit.declares? =
        (vs.map Visit.gist).filterMap (·.1) := by
      intro vs
      rw [List.filterMap_map]
      rfl
    rw [hmap, hmap, hgist]
  refine ⟨fun v hv => ?_, hnodes ▸ h.nodup⟩
  have hmem : v.gist ∈ visits.map Visit.gist := hgist ▸ List.mem_map_of_mem hv
  obtain ⟨w, hw, heq⟩ := List.mem_map.mp hmem
  have hbare : w.isBare = v.isBare := congrArg (·.2.1) heq
  rw [← hbare]
  exact h.bare w hw

theorem IsTidy.eq_of_node_eq {visits : List Visit} (h : IsTidy visits) {l l' : Local}
    (hl : Visit.localVar l ∈ visits) (hl' : Visit.localVar l' ∈ visits) (hnode : l.node = l'.node) :
    l = l' := by
  have hpairwise := List.pairwise_filterMap.mp h.nodup
  by_contra hne
  obtain ⟨i, hi, hgi⟩ := List.getElem_of_mem hl
  obtain ⟨j, hj, hgj⟩ := List.getElem_of_mem hl'
  have happart := List.pairwise_iff_getElem.mp hpairwise
  rcases Nat.lt_trichotomy i j with hlt | rfl | hlt
  · refine happart i j hi hj hlt l.node ?_ l'.node ?_ hnode
    · rw [hgi]; rfl
    · rw [hgj]; rfl
  · rw [hgi] at hgj
    cases hgj
    exact hne rfl
  · refine happart j i hj hi hlt l'.node ?_ l.node ?_ hnode.symm
    · rw [hgj]; rfl
    · rw [hgi]; rfl

/-! ## Alike bodies -/

namespace SameGist

variable {visits visits' more more' : List Visit}

theorem localClass_mem (h : SameGist visits visits') {id : ClassId}
    (hid : Visit.localClass id ∈ visits') :
    Visit.localClass id ∈ visits := by
  have hmem : (Visit.localClass id).gist ∈ visits.map Visit.gist := h ▸ List.mem_map_of_mem hid
  obtain ⟨v, hv, heq⟩ := List.mem_map.mp hmem
  have hclass : v.localClass? = some id := congrArg (·.2.2) heq
  cases v with
  | localClass id' =>
    cases hclass
    exact hv
  | expr e => cases hclass
  | stmt s => cases hclass
  | localVar l => cases hclass

theorem refl (visits : List Visit) : SameGist visits visits := rfl

theorem append (h : SameGist visits visits') (h' : SameGist more more') :
    SameGist (visits ++ more) (visits' ++ more') := by
  rw [SameGist, List.map_append, List.map_append, h, h']

theorem cons (h : SameGist visits visits') {v v' : Visit} (hv : v'.gist = v.gist) :
    SameGist (v :: visits) (v' :: visits') := by
  rw [SameGist, List.map_cons, List.map_cons, h, hv]

end SameGist

theorem Local.Retyped.sameGist {l l' : Local} (h : l.Retyped l') : SameGist l.visits l'.visits := by
  cases h
  exact (SameGist.refl _).cons rfl

theorem Local.Retyped.init_eq {l l' : Local} (h : l.Retyped l') : l'.init = l.init := by
  cases h
  rfl

theorem Local.sameGist_of_retyped {ls ls' : List Local} (h : List.Forall₂ Local.Retyped ls ls') :
    SameGist (Local.visitsList ls) (Local.visitsList ls') ∧
    ls'.all (·.init.isNone) = ls.all (·.init.isNone) := by
  induction h with
  | nil => exact ⟨rfl, rfl⟩
  | cons hl _ ih =>
    refine ⟨hl.sameGist.append ih.1, ?_⟩
    rw [List.all_cons, List.all_cons, hl.init_eq, ih.2]

theorem Handler.all_bare_of_alike {hs hs' : List Handler} (h : List.Forall₂ Handler.Alike hs hs') :
    hs'.all (·.param.init.isNone) = hs.all (·.param.init.isNone) := by
  induction h with
  | nil => rfl
  | cons hhandler _ ih =>
    cases hhandler with
    | mk hparam _ =>
      rw [List.all_cons, List.all_cons, ih]
      exact congrArg (fun init : Option Expr => init.isNone && _) hparam.init_eq

mutual

theorem Expr.sameGist : (e : Expr) → {e' : Expr} → e.Alike e' → SameGist e.visits e'.visits
  | _, _, .literal .. => rfl
  | _, _, .self .. => rfl
  | .name _ _ qualifier _, _, .name _ _ _ _ hqualifier =>
      (Expr.sameGistOption qualifier hqualifier).cons rfl
  | .call _ _ qualifier args _, _, .call _ _ _ _ hqualifier hargs =>
    ((Expr.sameGistOption qualifier hqualifier).append (Expr.sameGistList args hargs)).cons rfl
  | .create _ _ args _, _, .create _ _ _ _ hargs => (Expr.sameGistList args hargs).cons rfl
  | .paren _ inner, _, .paren _ hinner => (inner.sameGist hinner).cons rfl
  | .unary _ _ operand _, _, .unary _ _ _ hoperand => (operand.sameGist hoperand).cons rfl
  | .binary _ _ left right, _, .binary _ _ hleft hright =>
    ((left.sameGist hleft).append (right.sameGist hright)).cons rfl
  | .conditional _ c t f, _, .conditional _ hc ht hf =>
    (((c.sameGist hc).append (t.sameGist ht)).append (f.sameGist hf)).cons rfl
  | .cast _ _ operand, _, .cast _ _ hoperand => (operand.sameGist hoperand).cons rfl
  | .assign _ _ target value, _, .assign _ _ htarget hvalue =>
    ((target.sameGist htarget).append (value.sameGist hvalue)).cons rfl
  | .index _ array position, _, .index _ harray hposition =>
    ((array.sameGist harray).append (position.sameGist hposition)).cons rfl
  | .newArray _ _ sizes entries, _, .newArray _ _ hsizes hentries =>
    ((Expr.sameGistList sizes hsizes).append (Expr.sameGistList entries hentries)).cons rfl
  | .lambda _ _ body, _, .lambda _ hparams hbody =>
    have hlocals := Local.sameGist_of_retyped hparams
    (hlocals.1.append (body.sameGist hbody)).cons (Prod.ext rfl (Prod.ext hlocals.2 rfl))
  | .other _ children, _, .other _ hchildren => (Expr.sameGistList children hchildren).cons rfl
termination_by structural x => x

theorem Expr.sameGistOption : (e : Option Expr) → {e' : Option Expr} → Option.Rel Expr.Alike e e' →
    SameGist (Expr.visitsOption e) (Expr.visitsOption e')
  | none, _, .none => rfl
  | some e, _, .some he => e.sameGist he
termination_by structural x => x

theorem Expr.sameGistList : (es : List Expr) → {es' : List Expr} → List.Forall₂ Expr.Alike es es' →
    SameGist (Expr.visitsList es) (Expr.visitsList es')
  | [], _, .nil => rfl
  | e :: rest, _, .cons he hrest => (e.sameGist he).append (Expr.sameGistList rest hrest)
termination_by structural x => x

/-- **Alike bodies** are walked over the same variables. -/
theorem Stmt.sameGist : (s : Stmt) → {s' : Stmt} → s.Alike s' → SameGist s.visits s'.visits
  | .declare _ locals, _, .declare _ hlocals => (Local.sameGistList locals hlocals).cons rfl
  | .eval _ e, _, .eval _ he => (e.sameGist he).cons rfl
  | .block _ inner, _, .block _ hinner => (Stmt.sameGistList inner hinner).cons rfl
  | .branch _ c t f, _, .branch _ hc ht hf =>
    (((c.sameGist hc).append (t.sameGist ht)).append (Stmt.sameGistOption f hf)).cons rfl
  | .loop _ init c update body, _, .loop _ hinit hc hupdate hbody =>
    ((((Stmt.sameGistList init hinit).append (Expr.sameGistOption c hc)).append
      (Expr.sameGistList update hupdate)).append
      (body.sameGist hbody)).cons rfl
  | .forEach _ _ iterable body, _, .forEach _ hitem hiterable hbody =>
    ((hitem.sameGist.append (iterable.sameGist hiterable)).append (body.sameGist hbody)).cons
      (Prod.ext rfl (Prod.ext (congrArg Option.isNone hitem.init_eq) rfl))
  | .ret _ value, _, .ret _ hvalue => (Expr.sameGistOption value hvalue).cons rfl
  | .raise _ value, _, .raise _ hvalue => (value.sameGist hvalue).cons rfl
  | .attempt _ resources body handlers last, _, .attempt _ hresources hbody hhandlers hlast =>
    ((((Stmt.sameGistList resources hresources).append (body.sameGist hbody)).append
      (Handler.sameGistList handlers hhandlers)).append (Stmt.sameGistOption last hlast)).cons
        (Prod.ext rfl (Prod.ext (Handler.all_bare_of_alike hhandlers) rfl))
  | .assertion _ c message, _, .assertion _ hc hmessage =>
    ((c.sameGist hc).append (Expr.sameGistOption message hmessage)).cons rfl
  | _, _, .localClass .. => rfl
  | .other _ inner values, _, .other _ hinner hvalues =>
    ((Expr.sameGistList values hvalues).append (Stmt.sameGistList inner hinner)).cons rfl
termination_by structural x => x

theorem Stmt.sameGistOption : (s : Option Stmt) → {s' : Option Stmt} → Option.Rel Stmt.Alike s s' →
    SameGist (Stmt.visitsOption s) (Stmt.visitsOption s')
  | none, _, .none => rfl
  | some s, _, .some hs => s.sameGist hs
termination_by structural x => x

theorem Stmt.sameGistList : (ss : List Stmt) → {ss' : List Stmt} → List.Forall₂ Stmt.Alike ss ss' →
    SameGist (Stmt.visitsList ss) (Stmt.visitsList ss')
  | [], _, .nil => rfl
  | s :: rest, _, .cons hs hrest => (s.sameGist hs).append (Stmt.sameGistList rest hrest)
termination_by structural x => x

theorem Local.sameGistList : (ls : List Local) → {ls' : List Local} →
    List.Forall₂ Local.Alike ls ls' →
    SameGist (Local.visitsList ls) (Local.visitsList ls')
  | [], _, .nil => rfl
  | .mk _ _ _ init :: rest, _, .cons (.mk _ _ _ hinit) hrest =>
    ((Expr.sameGistOption init hinit).cons rfl).append (Local.sameGistList rest hrest)
termination_by structural x => x

theorem Handler.sameGistList : (hs : List Handler) → {hs' : List Handler} →
    List.Forall₂ Handler.Alike hs hs' →
    SameGist (Handler.visitsList hs) (Handler.visitsList hs')
  | [], _, .nil => rfl
  | .mk _ body :: rest, _, .cons (.mk hparam hbody) hrest =>
    (hparam.sameGist.append (body.sameGist hbody)).append (Handler.sameGistList rest hrest)
termination_by structural x => x

end

end KernelLint
