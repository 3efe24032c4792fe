import KernelLint.Proofs.Resolve.Inference
import KernelLint.Proofs.Rule.Flaws

/-!
# Declared types that are inferred

In a resolved body the type of a variable that is declared with `var` in a declaration, as a
resource or in a for-each loop is the inferred one or unknown, and the word `var` comes back only if
something of that type is there to infer it from. All other types, those of the parameters of
lambdas and handlers among them, have `var` exactly where it is written. In a program that has `var`
only where a type is inferred, no type that a rule looks at is `var`.
-/

namespace KernelLint

namespace Program

/-- The type that is fixed is qualified on the way to the end of the body, and no other type becomes
`var`. -/
def FixesFor (p : Program) (id : MethodId) (site : Site) (type type' : TypeUse) : Prop :=
  (type'.type.name = "var" ↔ type.type.name = "var") ∧
    ∃ t : Resolution, p.qualifySignatures.Resolves t.program ∧ t.Leads (p.endOfBody id) ∧
      type' = t.program.qualifyUse type site

/-- The variable keeps its identity. If its type is left out, it gets the one that is inferred from
the tables right before it is declared, or the unknown one if none is, and this is `var` only if
what is inferred is. -/
def InfersFor (p : Program) (id : MethodId) (site : Site)
    (x x' : Local × ((Expr → Option ErasedType) → Option ErasedType)) : Prop :=
  x'.1.node = x.1.node ∧
    ∃ t : Resolution, p.qualifySignatures.Resolves t.program ∧
      (t.declaring x'.1).Leads (p.endOfBody id) ∧
      let inferred := x'.2 (t.typeOf? site.owner)
      (x'.1.type.type.name = "var" ↔ x.1.type.type.name = "var" ∧ ∃ found ∈ inferred,
        found.name = "var") ∧
      (x.1.type.type.name ≠ "var" → x'.1.type = t.program.qualifyUse x.1.type site) ∧
      (x.1.type.type.name = "var" →
        x'.1.type.type = t.program.qualifyType (inferred.getD ErasedType.unknown) site)

variable {p : Program} {id : MethodId} {site : Site} {s u : Resolution}

theorem fixesFor_of_qualifies (hs : s.program.Grounded)
    (hsteps : p.qualifySignatures.Resolves s.program) (hend : u.Leads (p.endOfBody id))
    {type type' : TypeUse} (h : Resolve.Qualifies site s u type type') :
    p.FixesFor id site type type' := by
  obtain ⟨t, hst, htu, rfl⟩ := h
  exact ⟨qualifyUse_eq_var_iff (hst.grounded hs) type site, t, hsteps.trans hst.adds.resolves,
    htu.leads.trans hend, rfl⟩

theorem infersFor_of_infers (hs : s.program.Grounded)
    (hsteps : p.qualifySignatures.Resolves s.program) (hend : u.Leads (p.endOfBody id))
    {x x' : Local × ((Expr → Option ErasedType) → Option ErasedType)}
    (h : Resolve.Infers site s u x x') : p.InfersFor id site x x' := by
  obtain ⟨hnode, t, hst, htu, htype⟩ := h
  refine ⟨hnode, t, hsteps.trans hst.adds.resolves, htu.leads.trans hend, ?_, fun hvar => ?_,
    fun hvar => ?_⟩
  · rw [htype, qualifyUse_eq_var_iff (hst.grounded hs), Resolve.inferType_eq_var_iff]
  · rw [htype, Resolve.inferType_of_ne hvar]
  · rw [htype, Resolve.inferType_of_var hvar]
    rfl

/-! ## The resolved body -/

/-- **The step.** What becomes of the walk over a body on the way to the resolved program. -/
theorem exists_turned (hp : p.IsRead) (hid : id ∈ p.qualifySignatures.resolvable) :
    ∃ m m' s u, p.method? id = some m ∧ p.resolve.method? id = some m' ∧
      p.qualifySignatures.Resolves s.program ∧
      u.Leads (p.endOfBody id) ∧
      List.Forall₂ (Resolve.Turns ⟨m.file, m.owner⟩ s u) m.visits m'.visits := by
  obtain ⟨m, body, s, hm, hbody, hsteps, hlive, hend, -, hdone⟩ := p.exists_endOfBody hid
  rw [method?_qualifySignatures] at hm
  obtain ⟨x, hx, rfl⟩ := Option.map_eq_some_iff.mp hm
  have hvisits : x.visits = body.visits := by
    rw [Method.visits, show x.body = some body from hbody]
    rfl
  have hturning : Resolve.Turning ⟨x.file, x.owner⟩ s s _ _ _ :=
    Resolve.turning_stmt (Resolve.parameterNames (p.qualifyMethod x)) body s (.refl s)
      (hvisits ▸ hp.tidy id x hx).bare
  rw [hend] at hdone ⊢
  refine ⟨x, _, s, _, hx, hdone.trans (Resolve.method?_methodBody_self hlive hbody), hsteps, ?_,
    hvisits ▸ hturning.turned⟩
  rw [Resolve.methodBody_of_body hlive hbody]
  exact ⟨(Resolve.resolving_putBody hlive hbody).grows, List.suffix_rfl⟩

theorem Tidy.qualifySignatures (h : p.Tidy) : p.qualifySignatures.Tidy := by
  intro id m hm
  rw [method?_qualifySignatures] at hm
  obtain ⟨x, hx, rfl⟩ := Option.map_eq_some_iff.mp hm
  exact h id x hx

/-- **The run.** The tables are free of the type `var` after any bodies. -/
theorem IsRead.infersVar_run (hp : p.IsRead) (h : p.InfersVar) (ids : List MethodId) :
    (Resolve.run ids { program := p.qualifySignatures }).InfersVar := by
  apply Resolve.infersVar_run
  · exact hp.grounded.qualifySignatures
  · exact hp.tidy.qualifySignatures
  · exact ⟨h.qualifySignatures hp.grounded, List.forall_mem_nil _⟩

/-- **No variable of a resolved body has the type `var`** in a program that has `var` only where a
type is inferred, nor has anything else that its method declares. -/
theorem IsRead.declares_ne_var (hp : p.IsRead) (h : p.InfersVar)
    (hid : id ∈ p.qualifySignatures.resolvable) {m : Method} (hm : p.resolve.method? id = some m)
    {t : TypeUse} (ht : m.Declares p.resolve t) : t.type.name ≠ "var" := by
  have hresolved : p.resolve.InfersVar := (hp.infersVar_run h _).program
  have hend : (p.endOfBody id).InfersVar := hp.infersVar_run h _
  cases ht with
  | param hq =>
    apply (hresolved.method? hm).signature
    exact List.mem_append_left _ (List.mem_map_of_mem hq)
  | field _ _ _ hf => exact hresolved.field? hf
  | @localVar l hl =>
    obtain ⟨v', hv', hfixed | ⟨infer, hinferred⟩⟩ :=
      Method.exists_introduced (Method.mem_visits.mpr hl)
    · exact (hresolved.method? hm).body v' hv' _ hfixed
    · -- The type of a variable that is inferred is in the table from then on.
      obtain ⟨x, m', s, u, -, hm', hsteps, hleads, hturned⟩ := exists_turned hp hid
      obtain rfl := Option.some.inj (hm.symm.trans hm')
      obtain ⟨v, -, hturns⟩ := Resolve.exists_of_forall₂ hturned hv'
      obtain ⟨w, -, -, r, -, hru, -⟩ := Resolve.exists_of_forall₂ hturns.inferred hinferred
      apply hend.locals (l.node, l.type.type)
      exact (hru.leads.trans hleads).entries.subset List.mem_cons_self

end Program

theorem RuleContext.exists_declares {ctx : RuleContext} {r : Remark}
    (hr : r ∈ RuleKind.dataType.remarks ctx) {m : Method}
    (hm : ctx.program.method? r.method = some m) : ∃ t, m.Declares ctx.program t ∧
      r = ctx.remark m t.node t.span (Message.unsupportedType t.type.renderShort) .error := by
  obtain ⟨⟨m', flaw⟩, ⟨hmember, hflaw, hrule⟩, rfl⟩ := (RuleContext.mem_remarks (by decide)).mp hr
  obtain ⟨-, hm'⟩ := RuleContext.mem_members.mp hmember
  obtain rfl := Option.some.inj (hm.symm.trans hm')
  cases hflaw with
  | @type t hdeclares _ => exact ⟨t, hdeclares, rfl⟩
  | _ => cases hrule

/-- **The word `var` is replaced where a type is left out**, in every body that is resolved, for a
program that is made from syntax trees. Each variable of the resolved body has its type fixed or
inferred at some stop of the walk. A variable of a declaration, a resource or the variable of a
for-each loop that is written with `var` has the inferred type or the unknown one. The other types,
which are fixed, are `var` where `var` is written. If the program has `var` only where a type is
inferred, no variable of the body has the type `var`, and the rule on types has nothing to say about
it. -/
theorem var_replaced_where_inferred {p : Program} (hp : p.IsRead) {id : MethodId}
    (hid : id ∈ p.qualifySignatures.resolvable) :
    ∃ m m', p.method? id = some m ∧ p.resolve.method? id = some m' ∧
      (∀ l, Visit.localVar l ∈ m'.visits → ∃ v ∈ m'.visits, l.type ∈ v.fixedTypes ∨
        ∃ infer, (l, infer) ∈ v.inferring) ∧
      List.Forall₂ (fun v v' =>
        List.Forall₂ (p.FixesFor id ⟨m.file, m.owner⟩) v.fixedTypes v'.fixedTypes ∧
          List.Forall₂ (p.InfersFor id ⟨m.file, m.owner⟩) v.inferring v'.inferring)
            m.visits m'.visits ∧
      (p.InfersVar →
        (∀ l, Visit.localVar l ∈ m'.visits → l.type.type.name ≠ "var") ∧
          ∀ ctx : RuleContext, ctx.program = p.resolve → ∀ r ∈ RuleKind.dataType.remarks ctx,
            r.method = id →
            ∃ t : TypeUse, t.type.name ≠ "var" ∧
              r = ctx.remark m' t.node t.span
                (Message.unsupportedType t.type.renderShort) .error) := by
  obtain ⟨m, m', s, u, hm, hm', hsteps, hleads, hturned⟩ := p.exists_turned hp hid
  have hground := hp.grounded.qualifySignatures.resolves hsteps
  refine ⟨m, m', hm, hm', fun l hl => Method.exists_introduced hl, ?_,
    fun hvar => ⟨fun l hl => ?_, ?_⟩⟩
  · refine hturned.imp fun v v' hturns => ⟨?_, ?_⟩
    · exact hturns.fixed.imp fun _ _ htype =>
        Program.fixesFor_of_qualifies hground hsteps hleads htype
    · exact hturns.inferred.imp fun _ _ hx => Program.infersFor_of_infers hground hsteps hleads hx
  · exact hp.declares_ne_var hvar hid hm' (.localVar (Method.mem_visits.mp hl))
  · rintro ctx hctx r hr rfl
    obtain ⟨t, hdeclares, heq⟩ := RuleContext.exists_declares hr (hctx ▸ hm')
    exact ⟨t, hp.declares_ne_var hvar hid hm' (hctx ▸ hdeclares), heq⟩

/-- A class whose method leaves out the type of an array, of its entries, of a sum, of a resource
and of the result of a method that is not there. -/
def Program.leftOut : Program :=
  (Program.empty.addSource ⟨"K.java"⟩ "class R { } class K { int k(int n) { var a = new int[n];
    for (var x : a) { var y = x + 1; } try (var r = new R()) { } var z = f(); return n; } }" .project).2

/-- There all types but the last one are inferred, and no method says what the last one is. -/
theorem var_replaced_in_leftOut : ∃ m m', Program.leftOut.method? ⟨0⟩ = some m ∧
    Program.leftOut.resolve.method? ⟨0⟩ = some m' ∧
      (∀ l, Visit.localVar l ∈ m'.visits → ∃ v ∈ m'.visits, l.type ∈ v.fixedTypes ∨
        ∃ infer, (l, infer) ∈ v.inferring) ∧
      List.Forall₂ (fun v v' =>
        List.Forall₂ (Program.leftOut.FixesFor ⟨0⟩ ⟨m.file, m.owner⟩) v.fixedTypes v'.fixedTypes ∧
          List.Forall₂ (Program.leftOut.InfersFor ⟨0⟩ ⟨m.file, m.owner⟩) v.inferring v'.inferring)
            m.visits m'.visits ∧
      (∀ l, Visit.localVar l ∈ m'.visits → l.type.type.name ≠ "var") ∧
      (∀ ctx : RuleContext, ctx.program = Program.leftOut.resolve →
        ∀ r ∈ RuleKind.dataType.remarks ctx, r.method = ⟨0⟩ →
        ∃ t : TypeUse, t.type.name ≠ "var" ∧
          r = ctx.remark m' t.node t.span (Message.unsupportedType t.type.renderShort) .error) ∧
      (m'.visits.filterMap Visit.localVar?).map (·.type.type.render) =
        ["int[]", "int", "int", "R", "?"] := by
  have hfacts : ⟨0⟩ ∈ Program.leftOut.qualifySignatures.resolvable ∧ Program.leftOut.InfersVar ∧
      (Program.leftOut.resolve.method? ⟨0⟩).map (fun m =>
        (m.visits.filterMap Visit.localVar?).map (·.type.type.render)) =
        some ["int[]", "int", "int", "R", "?"] := by
    decide +kernel
  obtain ⟨hid, hvar, htypes⟩ := hfacts
  have hread : Program.leftOut.IsRead := .addTree .empty _ _ _
  obtain ⟨m, m', hm, hm', hintroduced, hturned, hclean⟩ := var_replaced_where_inferred hread hid
  obtain ⟨hlocals, hremarks⟩ := hclean hvar
  rw [hm', Option.map_some] at htypes
  exact ⟨m, m', hm, hm', hintroduced, hturned, hlocals, hremarks, Option.some.inj htypes⟩

/-- A kernel with a lambda that has `var` for the type of its parameter. -/
def Program.varParameter : Program :=
  (Program.empty.addSource ⟨"K.java"⟩ "import uk.ac.manchester.tornado.api.KernelContext;
    class K { void k(KernelContext c) { f((var x) -> { }); } }" .project).2

/-- There the parameter has the type `var` once the body is resolved, and the rule on types reports
it. -/
theorem var_kept_for_parameter : ∃ m l, Program.varParameter.resolve.method? ⟨0⟩ = some m ∧
    Visit.localVar l ∈ m.visits ∧ l.type.type = ⟨"var", 0⟩ ∧
      (RuleKind.dataType.check (.ofKernel (.ofPreset .balanced) Program.varParameter.resolve m)).map
        (·.message) =
        ["TornadoVM: Unsupported data type 'var'"] := by
  have hseen : (Program.varParameter.resolve.method? ⟨0⟩).bind
    (fun m => (m.visits.filterMap Visit.localVar?).head?.map
      fun l =>
        (l.type.type,
          (RuleKind.dataType.check (.ofKernel (.ofPreset .balanced) Program.varParameter.resolve
            m)).map
        (·.message))) = some (⟨"var", 0⟩, ["TornadoVM: Unsupported data type 'var'"]) := by
    decide +kernel
  obtain ⟨m, hm, hseen⟩ := Option.bind_eq_some_iff.mp hseen
  obtain ⟨l, hl, hseen⟩ := Option.map_eq_some_iff.mp hseen
  obtain ⟨htype, hreported⟩ := Prod.mk.inj hseen
  obtain ⟨v, hv, hvar⟩ := List.mem_filterMap.mp (List.mem_of_head? hl)
  obtain rfl : v = .localVar l := by
    cases v <;> simp_all [Visit.localVar?]
  exact ⟨m, l, hm, hv, htype, hreported⟩

end KernelLint
