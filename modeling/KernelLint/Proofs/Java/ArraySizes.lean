import KernelLint.Java.Source
import KernelLint.Resolve.Program
import Mathlib

/-!
# Dimensions of new arrays

The dimensions of a new array are counted in the text of its bracket pairs. That text is put
together from the brackets of the pairs themselves and from all that stands between them: the sizes
with their own indices, arrays, literals and comments. So the count is the number of pairs and what
the sizes add to it (`elementType_newArray`), and it tells two arrays of one type apart if their
sizes contain different numbers of brackets.
-/

namespace KernelLint

/-- The type of the entries of a new array with the dimensions of the array, if it is written in
front of them. -/
def Expr.elementType? : Expr → Option ErasedType
  | .newArray _ element _ _ => element.map (·.type)
  | _ => none

namespace Java

/-! ## Brackets in texts -/

/-- The opening brackets in a text. -/
def openings (s : String) : Nat := Text.countChar '[' s

theorem openings_append (s t : String) : openings (s ++ t) = openings s + openings t := by
  simp [openings, Text.countChar]

theorem openings_join (ts : List String) : openings (String.join ts) = (ts.map openings).sum := by
  induction ts with
  | nil => rfl
  | cons t rest ih => rw [String.join_cons, openings_append, ih, List.map_cons, List.sum_cons]

theorem openings_textOf (ts : List Token) :
    openings (Token.textOf ts) =
      (ts.map (openings ·.text)).sum + (ts.tail.map (openings ·.gap)).sum := by
  cases ts with
  | nil => rfl
  | cons t rest =>
    have hsplit : (rest.map fun u => openings (u.gap ++ u.text)).sum =
        (rest.map (openings ·.gap)).sum + (rest.map (openings ·.text)).sum := by
      simp only [openings_append, List.sum_map_add]
    rw [Token.textOf, openings_append, openings_join, List.map_map, List.map_cons, List.sum_cons,
      List.tail_cons]
    rw [Function.comp_def, hsplit]
    omega

/-! ## Bracket pairs -/

/-- Is it the opening bracket of a pair? -/
def isOpening (t : Tree) : Bool := t.isWord "["

theorem tokens_of_isOpening {t : Tree} (h : isOpening t = true) :
    (t.tokens.map (openings ·.text)).sum = 1 := by
  unfold isOpening Tree.isWord at h
  split at h
  · have htext := of_decide_eq_true h
    simp only [Tree.tokens, List.map_cons, htext]
    decide
  · cases h

/-- The opening brackets in a dimension that belong to none of its pairs: those in what stands
between the brackets, and those in comments. -/
def strayOpenings (t : Tree) : Nat :=
  ((t.children.filter (!isOpening ·)).map fun c => (c.tokens.map (openings ·.text)).sum).sum +
    (t.tokens.tail.map (openings ·.gap)).sum

theorem openings_tokensList (cs : List Tree) :
    ((Tree.tokensList cs).map (openings ·.text)).sum =
      cs.countP isOpening + ((cs.filter (!isOpening ·)).map fun c =>
        (c.tokens.map (openings ·.text)).sum).sum := by
  induction cs with
  | nil => rfl
  | cons c rest ih =>
    rw [Tree.tokensList, List.map_append, List.sum_append, ih]
    cases hc : isOpening c with
    | true => simp [hc, tokens_of_isOpening hc]; omega
    | false => simp [hc]; omega

theorem bracketsIn_node {t : Tree} {kind : NodeKind} (h : t.isNode kind = true) :
    bracketsIn t = t.children.countP isOpening + strayOpenings t := by
  cases t with
  | leaf role k tok => cases h
  | node role k cs =>
    have htext : bracketsIn (.node role k cs) = openings (Token.textOf (Tree.tokensList cs)) := rfl
    rw [htext, openings_textOf, openings_tokensList, strayOpenings, Tree.children, Tree.tokens]
    omega

/-! ## New arrays -/

/-- The number of bracket pairs with a size. -/
def sizedPairs (t : Tree) : Nat := (t.childrenAs .dimensions).countP (·.isNode .dimensionsExpr)

/-- The number of empty bracket pairs. -/
def emptyPairs (t : Tree) : Nat :=
  (((t.childrenAs .dimensions).filter (·.isNode .dimensions)).map (·.children.countP isOpening)).sum

/-- The brackets inside the sizes and in comments next to them. -/
def innerOpenings (t : Tree) : Nat := ((t.childrenAs .dimensions).map strayOpenings).sum

/-- The name of the type in front of the dimensions. -/
def elementName (t : Tree) : String :=
  ((t.child? .type).map fun c => (ErasedType.ofWritten c.text).name).getD "?"

/-- The tree creates an array, and every dimension of it is a pair of brackets around a size or some
empty pairs. -/
structure CreatesArray (t : Tree) : Prop where
  kind : t.isNode .arrayCreation = true
  dims : ∀ d ∈ t.childrenAs .dimensions,
    d.isNode .dimensionsExpr = true ∧ d.children.countP isOpening = 1 ∨ d.isNode .dimensions = true

theorem sum_brackets {ds : List Tree} (h : ∀ d ∈ ds,
    d.isNode .dimensionsExpr = true ∧ d.children.countP isOpening = 1 ∨
      d.isNode .dimensions = true) :
    (ds.map bracketsIn).sum = ds.countP (·.isNode .dimensionsExpr) +
      ((ds.filter (·.isNode .dimensions)).map (·.children.countP isOpening)).sum +
        (ds.map strayOpenings).sum := by
  induction ds with
  | nil => rfl
  | cons d rest ih =>
    obtain ⟨hd, hrest⟩ := List.forall_mem_cons.mp h
    rw [List.map_cons, List.sum_cons, ih hrest, List.map_cons, List.sum_cons]
    -- A pair with a size has one bracket of its own; empty pairs stand together in one node and
    -- have one each.
    rcases hd with ⟨hsized, hone⟩ | hempty
    · have hkind : d.isNode .dimensions = false := by
        have hnode := of_decide_eq_true hsized
        simp [Tree.isNode, hnode]
      simp only [bracketsIn_node hsized, hone, List.countP_cons, List.filter_cons, hsized,
        hkind, if_true, Bool.false_eq_true, if_false]
      omega
    · have hkind : d.isNode .dimensionsExpr = false := by
        have hnode := of_decide_eq_true hempty
        simp [Tree.isNode, hnode]
      simp only [bracketsIn_node hempty, List.countP_cons, List.filter_cons, hempty, hkind, if_true,
        Bool.false_eq_true, if_false, List.map_cons, List.sum_cons]
      omega

theorem name_typeUseOrUnknown (t : Tree) (p : Program) :
    (typeUseOrUnknown (t.child? .type) t p).1.type.name = elementName t := by
  unfold elementName
  cases t.child? .type <;> rfl

theorem elementType_arrayExpr (r : Reader) (owner : ClassId) (head : Excerpt) (t : Tree)
    (p : Program) :
    (r.arrayExpr owner head t p).1.elementType? =
      some ⟨elementName t, ((t.childrenAs .dimensions).map bracketsIn).sum⟩ := by
  have hread : (r.arrayExpr owner head t p).1.elementType? =
      some ⟨(typeUseOrUnknown (t.child? .type) t p).1.type.name,
        (t.childrenAs .dimensions).foldl (fun n d => n + bracketsIn d) 0⟩ := rfl
  rw [hread, name_typeUseOrUnknown, List.sum_eq_foldl, List.foldl_map]

theorem elementType_newArray {t : Tree} (h : CreatesArray t) (file : FileId) (n : Nat)
    (owner : ClassId) (p : Program) :
    ((Reader.below file (n + 1)).expr owner t p).1.elementType? =
      some ⟨elementName t, sizedPairs t + emptyPairs t + innerOpenings t⟩ := by
  have hread : ((Reader.below file (n + 1)).expr owner t p).1 =
      ((Reader.below file n).arrayExpr owner (excerptOf t p).1 t (excerptOf t p).2).1 := by
    cases t with
    | leaf role k tok => cases h.kind
    | node role k cs =>
      obtain rfl : k = .arrayCreation := by simpa [Tree.isNode, Tree.nodeKind?] using h.kind
      rfl
  rw [hread, elementType_arrayExpr, sum_brackets h.dims]
  rfl

/-! ## Arrays that differ in their sizes -/

/-- Is it a dimension with a size? -/
def isSized (t : Tree) : Bool := t.role = some .dimensions && t.isNode .dimensionsExpr

/-- The trees are the same but for what their sizes are. -/
def DifferInSizes (t t' : Tree) : Prop :=
  List.Forall₂ (fun c c' => c = c' ∨ isSized c = true ∧ isSized c' = true) t.children t'.children

theorem isSized_iff {t : Tree} : isSized t = true ↔ t.role = some .dimensions ∧
    t.nodeKind? = some .dimensionsExpr := by
  simp [isSized, Tree.isNode]

theorem DifferInSizes.elementName_eq {t t' : Tree} (h : DifferInSizes t t') :
    elementName t = elementName t' := by
  have hfind : t.child? .type = t'.child? .type := by
    unfold Tree.child?
    unfold DifferInSizes at h
    generalize t.children = cs at h
    generalize t'.children = cs' at h
    induction h with
    | nil => rfl
    | cons hc _ ih =>
      rcases hc with rfl | ⟨hc, hc'⟩
      · rw [List.find?_cons, List.find?_cons, ih]
      · rw [List.find?_cons, List.find?_cons, ih]
        simp [(isSized_iff.mp hc).1, (isSized_iff.mp hc').1]
  rw [elementName, elementName, hfind]

theorem DifferInSizes.pairs_eq {t t' : Tree} (h : DifferInSizes t t') :
    sizedPairs t = sizedPairs t' ∧ emptyPairs t = emptyPairs t' := by
  unfold sizedPairs emptyPairs Tree.childrenAs
  unfold DifferInSizes at h
  generalize t.children = cs at h
  generalize t'.children = cs' at h
  induction h with
  | nil => exact ⟨rfl, rfl⟩
  | cons hc _ ih =>
    obtain ⟨hsized, hempty⟩ := ih
    rcases hc with rfl | ⟨hc, hc'⟩
    · simp only [List.filter_cons]
      split
      · simp only [List.countP_cons, List.filter_cons, hsized, true_and]
        split
        · rw [List.map_cons, List.sum_cons, List.map_cons, List.sum_cons, hempty]
        · exact hempty
      · exact ⟨hsized, hempty⟩
    · obtain ⟨hrole, hkind⟩ := isSized_iff.mp hc
      obtain ⟨hrole', hkind'⟩ := isSized_iff.mp hc'
      simpa [-List.filter_filter, hrole, hrole', Tree.isNode, hkind, hkind'] using ⟨hsized, hempty⟩

/-- **The type of a new array counts its bracket pairs, and the brackets in its sizes too.**
Whatever the sizes are, and wherever the array is created, the dimensions read are the pairs with a
size, the empty pairs, and what the sizes add. Of two new arrays that differ in their sizes alone
the types are the same exactly if the sizes add the same. -/
theorem newArray_dims (file file' : FileId) (n n' : Nat) (owner owner' : ClassId) (p p' : Program)
    (t t' : Tree) (h : CreatesArray t) (h' : CreatesArray t') (hsizes : DifferInSizes t t') :
    ((Reader.below file (n + 1)).expr owner t p).1.elementType? =
        some ⟨elementName t, sizedPairs t + emptyPairs t + innerOpenings t⟩ ∧
      (((Reader.below file (n + 1)).expr owner t p).1.elementType? =
          ((Reader.below file' (n' + 1)).expr owner' t' p').1.elementType? ↔
        innerOpenings t = innerOpenings t') := by
  refine ⟨elementType_newArray h file n owner p, ?_⟩
  obtain ⟨hsized, hempty⟩ := hsizes.pairs_eq
  rw [elementType_newArray h, elementType_newArray h', hsizes.elementName_eq, hsized, hempty,
    Option.some_inj, ErasedType.mk.injEq]
  simp

/-- The creation of an array of integers with the given size and an empty pair behind it. -/
def sizedBy (size : Tree) : Tree :=
  .node none .arrayCreation [
    .leaf none .plain { kind := .word, text := "new" },
    .leaf (some .type) .primitive { kind := .word, gap := " ", text := "int" },
    .node (some .dimensions) .dimensionsExpr [
      .leaf none .plain { kind := .mark, text := "[" }, size,
      .leaf none .plain { kind := .mark, text := "]" }], .node (some .dimensions) .dimensions [
      .leaf none .plain { kind := .mark, text := "[" },
        .leaf none .plain { kind := .mark, text := "]" }]]

/-- The size `n`. -/
def plainSize : Tree := .leaf none .name { kind := .word, text := "n" }

/-- The size `a[n]`. -/
def indexedSize : Tree :=
  .node none .arrayAccess [
    .leaf (some .array) .name { kind := .word, text := "a" },
    .leaf none .plain { kind := .mark, text := "[" },
      .leaf (some .index) .name { kind := .word, text := "n" },
    .leaf none .plain { kind := .mark, text := "]" }]

theorem createsArray_sizedBy : CreatesArray (sizedBy plainSize) ∧ CreatesArray
    (sizedBy indexedSize) :=
  ⟨⟨by decide, by decide⟩, ⟨by decide, by decide⟩⟩

theorem differInSizes_sizedBy (size size' : Tree) : DifferInSizes (sizedBy size) (sizedBy size') :=
  .cons (.inl rfl) (.cons (.inl rfl) (.cons (.inr ⟨rfl, rfl⟩) (.cons (.inl rfl) .nil)))

/-- Both arrays have two pairs. The index in the second size counts as a third one. -/
theorem newArray_dims_sizedBy :
    ((sizedPairs (sizedBy plainSize) = 1 ∧ emptyPairs (sizedBy plainSize) = 1) ∧
      innerOpenings (sizedBy plainSize) = 0 ∧ innerOpenings (sizedBy indexedSize) = 1) ∧
    ((Reader.below ⟨0⟩ 3).expr ⟨0⟩ (sizedBy plainSize) Program.empty).1.elementType? =
        some ⟨elementName (sizedBy plainSize),
          sizedPairs (sizedBy plainSize) + emptyPairs (sizedBy plainSize) +
          innerOpenings (sizedBy plainSize)⟩ ∧
      (((Reader.below ⟨0⟩ 3).expr ⟨0⟩ (sizedBy plainSize) Program.empty).1.elementType? =
          ((Reader.below ⟨0⟩ 4).expr ⟨0⟩ (sizedBy indexedSize) Program.empty).1.elementType? ↔
        innerOpenings (sizedBy plainSize) = innerOpenings (sizedBy indexedSize)) :=
  ⟨by decide, newArray_dims ⟨0⟩ ⟨0⟩ 2 3 ⟨0⟩ ⟨0⟩ .empty .empty _ _ createsArray_sizedBy.1
    createsArray_sizedBy.2
    (differInSizes_sizedBy _ _)⟩

/-- Two arrays of two pairs that differ in their sizes alone: one is read with two dimensions and
the other with three. In a body, a variable whose type is inferred from an array of one pair gets
two dimensions. -/
theorem index_in_size_counted :
    CreatesArray (sizedBy plainSize) ∧ CreatesArray (sizedBy indexedSize) ∧
    DifferInSizes (sizedBy plainSize) (sizedBy indexedSize) ∧
    sizedPairs (sizedBy indexedSize) + emptyPairs (sizedBy indexedSize) = 2 ∧
    ((Reader.below ⟨0⟩ 4).expr ⟨0⟩ (sizedBy plainSize) Program.empty).1.elementType? =
      some ⟨"int", 2⟩ ∧
    ((Reader.below ⟨0⟩ 4).expr ⟨0⟩ (sizedBy indexedSize) Program.empty).1.elementType? =
      some ⟨"int", 3⟩ ∧
    (((Program.empty.addSource ⟨"K.java"⟩ "class K { void k(int[] a) { var x = new int[a[0]]; } }"
      .project).2.resolve.method? ⟨0⟩).map fun m => m.locals.map (·.type.type)) =
        some [⟨"int", 2⟩] := by
  obtain ⟨hplain, hindexed⟩ := createsArray_sizedBy
  refine ⟨hplain, hindexed, differInSizes_sizedBy _ _, ?_⟩
  decide +kernel

end Java

end KernelLint
