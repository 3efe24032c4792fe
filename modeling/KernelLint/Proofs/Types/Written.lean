import KernelLint.Proofs.Text.Blank
import KernelLint.Text.IdentifierChar
import KernelLint.Types.Written

/-!
# Written types

A written type is a dotted path of names, each with annotations in front of it and generic arguments
behind it, and then pairs of brackets and an ellipsis, with white space between all of these. The
erasure reads one of them after another: from one to the next it is in a state that holds nothing
but the name and the dimensions so far (`Erasure.between`), and what a token adds to these does not
depend on what comes later. Of an annotation it takes away what its name has at the front of
letters, numbers, underscores and dots; the rest of that name is read as a part of the path
(`Mark.leak`).
-/

namespace KernelLint

namespace Written

/-! ## The syntax -/

/-- The characters that mean something to the erasure. -/
def signs : List Char := ['<', '>', '@', '[', ']', '.']

/-- The characters of names are neither white space nor signs. -/
def isNameChar (c : Char) : Bool := !Text.isBlank c && !signs.contains c

structure Blanks where
  chars : List Char
  blank : ∀ c ∈ chars, Text.isBlank c = true

structure Name where
  chars : List Char
  ne_nil : chars ≠ []
  plain : ∀ c ∈ chars, isNameChar c = true

/-- Names with dots between them, and white space around the dots. -/
structure DottedName where
  first : Name
  rest : List (Blanks × Blanks × Name)

def DottedName.chars (name : DottedName) : List Char :=
  name.first.chars ++ name.rest.flatMap fun (before, after, next) => before.chars ++ '.' ::
    (after.chars ++ next.chars)

/-- An annotation without arguments and the white space behind it. -/
structure Mark where
  lead : Blanks
  name : DottedName
  gap : Blanks
  gap_ne_nil : gap.chars ≠ []

/-- What is written behind the sign of the annotation. -/
def Mark.written (mark : Mark) : List Char := mark.lead.chars ++ mark.name.chars

def Mark.chars (mark : Mark) : List Char := '@' :: (mark.written ++ mark.gap.chars)

/-- What is left of a text without its white space. -/
def visible (text : List Char) : List Char := text.filter fun c => !Text.isBlank c

/-- What the erasure takes for a part of the path. -/
def Mark.leak (mark : Mark) : List Char := visible (mark.written.dropWhile Erasure.isMarkChar)

/-- Is each angle bracket closed that is opened, with so many open ones around the text? -/
def isBalanced : Nat → List Char → Bool
  | depth, [] => depth = 0
  | depth, '<' :: rest => isBalanced (depth + 1) rest
  | depth, '>' :: rest => 0 < depth && isBalanced (depth - 1) rest
  | depth, _ :: rest => isBalanced depth rest

/-- Anything between angle brackets, as long as those in it are balanced. -/
structure Arguments where
  before : Blanks
  inner : List Char
  balanced : isBalanced 0 inner = true

def Arguments.chars (arguments : Arguments) :
    List Char := arguments.before.chars ++ '<' :: (arguments.inner ++ ['>'])

structure Segment where
  before : Blanks
  marks : List Mark
  name : Name
  arguments : Option Arguments
  after : Blanks

def Segment.chars (s : Segment) : List Char :=
  s.before.chars ++ (s.marks.flatMap Mark.chars ++ (s.name.chars ++
    (s.arguments.elim [] Arguments.chars ++ s.after.chars)))

/-- What the erasure reads of a segment. -/
def Segment.read (s : Segment) : List Char := s.marks.flatMap Mark.leak ++ s.name.chars

/-- A pair of brackets, with white space in it and behind it. -/
structure Brackets where
  inner : Blanks
  after : Blanks

def Brackets.chars (b : Brackets) : List Char := '[' :: (b.inner.chars ++ ']' :: b.after.chars)

end Written

open Written

structure WrittenType where
  first : Segment
  rest : List Segment
  brackets : List Brackets
  /-- The white space behind the ellipsis, if there is one. -/
  variadic : Option Blanks

namespace WrittenType

def segments (w : WrittenType) : List Segment := w.first :: w.rest

def marks (w : WrittenType) : List Mark := w.segments.flatMap Segment.marks

def chars (w : WrittenType) : List Char :=
  w.first.chars ++ (w.rest.flatMap (fun s => '.' :: s.chars) ++
    (w.brackets.flatMap Brackets.chars ++
    w.variadic.elim [] fun after => '.' :: '.' :: '.' :: after.chars))

def text (w : WrittenType) : String := String.ofList w.chars

/-- The names with dots between them. -/
def path (w : WrittenType) : List Char :=
  w.first.name.chars ++ w.rest.flatMap fun s => '.' :: s.name.chars

def dims (w : WrittenType) : Nat := w.brackets.length + if w.variadic.isSome then 1 else 0

/-- What the erasure reads as the path. -/
def readPath (w : WrittenType) : List Char := w.first.read ++ w.rest.flatMap fun s => '.' :: s.read

end WrittenType

namespace Written

variable {c : Char} {text xs ys z : List Char}

/-! ## Texts without signs -/

theorem not_mem_signs_of_isBlank (hc : Text.isBlank c = true) : c ∉ signs := by
  intro hsign
  have hpunctuation : signs ⊆ "\"'/(){};<>[]@._".toList := by decide
  rw [Text.isBlank_punctuation c (hpunctuation hsign)] at hc
  cases hc

theorem not_mem_signs_of_isNameChar (hc : isNameChar c = true) : c ∉ signs := by
  rw [isNameChar, Bool.and_eq_true] at hc
  simpa using hc.2

theorem isBlank_of_isNameChar (hc : isNameChar c = true) : Text.isBlank c = false := by
  rw [isNameChar, Bool.and_eq_true] at hc
  simpa using hc.1

theorem Blanks.not_mem_signs (b : Blanks) : ∀ c ∈ b.chars, c ∉ signs :=
  fun c hc => not_mem_signs_of_isBlank (b.blank c hc)

theorem Name.not_mem_signs (n : Name) : ∀ c ∈ n.chars, c ∉ signs :=
  fun c hc => not_mem_signs_of_isNameChar (n.plain c hc)

theorem Blanks.visible_chars (b : Blanks) : visible b.chars = [] := by
  rw [visible, List.filter_eq_nil_iff]
  intro c hc
  simp [b.blank c hc]

theorem Name.visible_chars (n : Name) : visible n.chars = n.chars := by
  rw [visible, List.filter_eq_self]
  intro c hc
  simp [isBlank_of_isNameChar (n.plain c hc)]

/-- Is the text free of signs but for single dots? -/
def isSpelled : List Char → Bool
  | [] => true
  | c :: rest => (if c = '.' then rest.head? ≠ some '.' else !signs.contains c) && isSpelled rest

theorem isSpelled_append (hxs : ∀ c ∈ xs, c ∉ signs) (hys : isSpelled ys = true) :
    isSpelled (xs ++ ys) = true := by
  induction xs with
  | nil => exact hys
  | cons c xs ih =>
    obtain ⟨hc, hxs⟩ := List.forall_mem_cons.mp hxs
    have hdot : c ≠ '.' := by
      rintro rfl
      exact hc (by decide)
    rw [List.cons_append, isSpelled, if_neg hdot, ih hxs, Bool.and_true]
    simpa using hc

theorem isSpelled_dropWhile (p : Char → Bool) (h : isSpelled text = true) :
    isSpelled (text.dropWhile p) = true := by
  induction text with
  | nil => rfl
  | cons c text ih =>
    rw [List.dropWhile_cons]
    split
    · rw [isSpelled, Bool.and_eq_true] at h
      exact ih h.2
    · exact h

theorem head?_ne_dot (hxs : ∀ c ∈ xs, c ∉ signs) (hne : xs ≠ []) (ys : List Char) :
    (xs ++ ys).head? ≠ some '.' := by
  obtain ⟨c, xs, rfl⟩ := List.exists_cons_of_ne_nil hne
  intro hhead
  obtain rfl : c = '.' := Option.some_inj.mp hhead
  exact hxs '.' List.mem_cons_self (by decide)

theorem DottedName.isSpelled_chars (name : DottedName) : isSpelled name.chars = true := by
  obtain ⟨first, rest⟩ := name
  apply isSpelled_append first.not_mem_signs
  induction rest with
  | nil => rfl
  | cons next rest ih =>
    obtain ⟨before, after, name⟩ := next
    rw [List.flatMap_cons, List.append_assoc, List.cons_append, List.append_assoc]
    apply isSpelled_append before.not_mem_signs
    have hplain : ∀ c ∈ after.chars ++ name.chars, c ∉ signs :=
      List.forall_mem_append.mpr ⟨after.not_mem_signs, name.not_mem_signs⟩
    have hnext := head?_ne_dot hplain (by simp [name.ne_nil])
      (rest.flatMap fun (before, after, next) => before.chars ++ '.' :: (after.chars ++ next.chars))
    have hrest := isSpelled_append hplain ih
    rw [List.append_assoc] at hnext hrest
    rw [isSpelled, if_pos rfl, hrest, Bool.and_true]
    exact decide_eq_true hnext

theorem DottedName.exists_last (name : DottedName) :
    ∃ before c, name.chars = before ++ [c] ∧ isNameChar c = true := by
  have hname : ∀ n : Name, ∃ before c, n.chars = before ++ [c] ∧ isNameChar c = true := by
    intro n
    obtain ⟨before, c, hchars⟩ := (List.eq_nil_or_concat n.chars).resolve_left n.ne_nil
    rw [List.concat_eq_append] at hchars
    exact ⟨before, c, hchars, n.plain c (by simp [hchars])⟩
  obtain ⟨first, rest⟩ := name
  rcases List.eq_nil_or_concat rest with rfl | ⟨rest, ⟨before, after, last⟩, rfl⟩
  · simpa [DottedName.chars] using hname first
  · obtain ⟨front, c, hchars, hc⟩ := hname last
    refine ⟨first.chars ++ (rest.flatMap (fun (before, after, next) => before.chars ++ '.' ::
      (after.chars ++ next.chars)) ++
      (before.chars ++ '.' :: (after.chars ++ front))), c, ?_, hc⟩
    simp [DottedName.chars, hchars]

/-- **An annotation is dropped** exactly if its name has no other characters than the erasure
expects. -/
theorem Mark.leak_eq_nil_iff (mark : Mark) :
    mark.leak = [] ↔ ∀ c ∈ mark.written, Erasure.isMarkChar c = true := by
  constructor
  · intro h
    obtain ⟨before, c, hchars, hc⟩ := mark.name.exists_last
    rw [leak, visible, List.filter_eq_nil_iff] at h
    rw [← List.dropWhile_eq_nil_iff]
    by_contra hne
    obtain ⟨more, d, hmore⟩ := (List.eq_nil_or_concat _).resolve_left hne
    rw [List.concat_eq_append] at hmore
    obtain ⟨front, hfront⟩ := List.dropWhile_suffix (l := mark.written) Erasure.isMarkChar
    have hends : front ++ more ++ [d] = mark.lead.chars ++ before ++ [c] := by
      rw [List.append_assoc, ← hmore, hfront, written, hchars, List.append_assoc]
    obtain rfl : d = c := List.singleton_inj.mp (List.append_inj' hends rfl).2
    exact h d (by simp [hmore]) (by simp [isBlank_of_isNameChar hc])
  · intro h
    rw [leak, List.dropWhile_eq_nil_iff.mpr h]
    rfl

end Written

/-! ## One token after another -/

namespace Erasure

/-- The state between two tokens. -/
def between (dims : Nat) (name : List Char) : Erasure := { dims, name := name.reverse }

variable {c : Char} {k : Nat} {name text z : List Char}

theorem run_between_cons (k : Nat) (name : List Char) (c : Char) (rest : List Char) :
    (between k name).run (c :: rest) = ((between k name).step c rest.head?).run rest := by
  simp [run, between]

theorem step_plain (hc : c ∉ signs) (k : Nat) (name : List Char) (next : Option Char) :
    (between k name).step c next = between k (name ++ visible [c]) := by
  have hne : c ≠ '<' ∧ c ≠ '>' ∧ c ≠ '@' ∧ c ≠ '[' ∧ c ≠ ']' ∧ c ≠ '.' := by simpa [signs] using hc
  obtain ⟨hopen, hclose, hat, hleft, hright, hdot⟩ := hne
  cases hblank : Text.isBlank c <;> simp [step, between, visible, *]

theorem step_dot (k : Nat) (name : List Char) {next : Option Char} (hnext : next ≠ some '.') :
    (between k name).step '.' next = between k (name ++ ['.']) := by
  have hblank : Text.isBlank '.' = false := Text.isBlank_punctuation _ (by decide)
  simp [step, between, hnext, hblank]

theorem run_spelled (h : isSpelled text = true) (hz : text.getLast? = some '.' → z.head? ≠ some '.')
    (k : Nat) (name : List Char) : (between k name).run
    (text ++ z) = (between k (name ++ visible text)).run z := by
  induction text generalizing name with
  | nil => simp [visible]
  | cons c text ih =>
    rw [isSpelled, Bool.and_eq_true] at h
    have hrest : text.getLast? = some '.' → z.head? ≠ some '.' := by
      intro hlast
      apply hz
      rw [List.getLast?_cons, hlast]
      rfl
    have hvisible : visible (c :: text) = visible [c] ++ visible text := List.filter_append [c] text
    rw [List.cons_append, run_between_cons, hvisible, ← List.append_assoc]
    by_cases hdot : c = '.'
    · subst hdot
      have hnext : (text ++ z).head? ≠ some '.' := by
        cases text with
        | nil => exact hz rfl
        | cons d text => simpa using h.1
      have hshown : visible ['.'] = ['.'] := by decide +kernel
      rw [step_dot k name hnext, ih h.2 hrest, hshown]
    · rw [if_neg hdot] at h
      rw [step_plain (by simpa using h.1), ih h.2 hrest]

theorem run_plain (h : ∀ c ∈ text, c ∉ signs) (k : Nat) (name z : List Char) :
    (between k name).run (text ++ z) = (between k (name ++ visible text)).run z := by
  apply run_spelled
  · rw [← List.append_nil text]
    exact isSpelled_append h rfl
  · intro hlast
    exact absurd (by decide) (h '.' (List.mem_of_getLast? hlast))

theorem run_blanks (b : Blanks) (k : Nat) (name z : List Char) :
    (between k name).run (b.chars ++ z) = (between k name).run z := by
  rw [run_plain b.not_mem_signs, b.visible_chars, List.append_nil]

theorem run_name (n : Name) (k : Nat) (name z : List Char) :
    (between k name).run (n.chars ++ z) = (between k (name ++ n.chars)).run z := by
  rw [run_plain n.not_mem_signs, n.visible_chars]

/-! ## Annotations -/

theorem isMarkChar_of_isBlank (hc : Text.isBlank c = true) : isMarkChar c = false := by
  have hline : c ≠ '_' := by
    rintro rfl
    exact absurd hc (by decide +kernel)
  have hdot : c ≠ '.' := by
    rintro rfl
    exact absurd hc (by decide +kernel)
  rw [isMarkChar, Text.isAlphanumeric_of_isBlank hc, decide_eq_false hline, decide_eq_false hdot]
  rfl

theorem run_inMark (written : List Char) {gap : Blanks} (hgap : gap.chars ≠ []) (k : Nat)
    (name z : List Char) :
    ({ between k name with inMark := true } : Erasure).run (written ++ (gap.chars ++ z)) =
      (between k name).run (written.dropWhile isMarkChar ++ (gap.chars ++ z)) := by
  have hleave : ∀ c rest, isMarkChar c = false →
      ({ between k name with inMark := true } : Erasure).run (c :: rest) =
        (between k name).run (c :: rest) := by
    intro c rest hc
    simp [run, between, hc, step]
  induction written with
  | nil =>
    obtain ⟨b, blanks, hchars⟩ := List.exists_cons_of_ne_nil hgap
    rw [List.dropWhile_nil, List.nil_append, hchars, List.cons_append]
    exact hleave b _ (isMarkChar_of_isBlank (gap.blank b (by simp [hchars])))
  | cons c written ih =>
    cases hc : isMarkChar c with
    | true =>
      rw [List.dropWhile_cons_of_pos hc, ← ih]
      simp [run, between, hc]
    | false =>
      rw [List.dropWhile_cons_of_neg (by simp [hc])]
      exact hleave c _ hc

theorem run_mark (mark : Mark) (k : Nat) (name z : List Char) :
    (between k name).run (mark.chars ++ z) = (between k (name ++ mark.leak)).run z := by
  have hat : ∀ next, (between k name).step '@' next = { between k name with inMark := true } := by
    intro next
    simp [step, between]
  have hspelled : isSpelled mark.written = true :=
    isSpelled_append mark.lead.not_mem_signs mark.name.isSpelled_chars
  rw [Mark.chars, List.cons_append, run_between_cons, hat, List.append_assoc,
    run_inMark _ mark.gap_ne_nil, run_spelled (isSpelled_dropWhile _ hspelled), run_blanks]
  · rfl
  · intro _
    exact head?_ne_dot mark.gap.not_mem_signs mark.gap_ne_nil z

theorem run_marks (marks : List Mark) (k : Nat) (name z : List Char) :
    (between k name).run (marks.flatMap Mark.chars ++ z) =
      (between k (name ++ marks.flatMap Mark.leak)).run z := by
  induction marks generalizing name with
  | nil => simp
  | cons mark marks ih =>
    rw [List.flatMap_cons, List.append_assoc, run_mark, ih, List.flatMap_cons, List.append_assoc]

/-! ## Generic arguments -/

theorem run_inner {depth : Nat} (h : isBalanced depth text = true) (k : Nat) (name z : List Char) :
    ({ between k name with depth := depth + 1 } : Erasure).run (text ++ z) =
      ({ between k name with depth := 1 } : Erasure).run z := by
  fun_induction isBalanced depth text with
  | case1 depth =>
    obtain rfl : depth = 0 := of_decide_eq_true h
    rfl
  | case2 depth rest ih =>
    rw [← ih h]
    simp [run, between, step]
  | case3 depth rest ih =>
    obtain ⟨hpos, hrest⟩ := Bool.and_eq_true_iff.mp h
    have hpos : 0 < depth := of_decide_eq_true hpos
    rw [← ih hrest, Nat.sub_add_cancel hpos]
    simp [run, between, step]
  | case4 depth c rest hopen hclose ih =>
    have hopen : ¬ c = '<' := hopen
    have hclose : ¬ c = '>' := hclose
    rw [← ih h]
    simp [run, between, step, hopen, hclose]

theorem run_arguments (arguments : Option Arguments) (k : Nat) (name z : List Char) :
    (between k name).run (arguments.elim [] Arguments.chars ++ z) = (between k name).run z := by
  cases arguments with
  | none => rfl
  | some arguments =>
    have hinner := run_inner arguments.balanced k name ('>' :: z)
    rw [Option.elim_some, Arguments.chars, List.append_assoc, run_blanks, List.cons_append,
      List.append_assoc, List.singleton_append, run_between_cons]
    calc ((between k name).step '<' _).run (arguments.inner ++ '>' :: z)
        = ({ between k name with depth := 0 + 1 } : Erasure).run (arguments.inner ++ '>' :: z) := by
          simp [step, between]
      _ = ({ between k name with depth := 1 } : Erasure).run ('>' :: z) := hinner
      _ = (between k name).run z := by simp [run, step, between]

/-! ## Whole types -/

theorem run_segment (s : Segment) (k : Nat) (name z : List Char) :
    (between k name).run (s.chars ++ z) = (between k (name ++ s.read)).run z := by
  simp only [Segment.chars, Segment.read, List.append_assoc, run_blanks, run_marks, run_name,
    run_arguments]

theorem head?_segment_ne_dot (s : Segment) (z : List Char) : (s.chars ++ z).head? ≠ some '.' := by
  obtain ⟨before, marks, n, arguments, after⟩ := s
  simp only [Segment.chars, List.append_assoc]
  by_cases hbefore : before.chars = []
  · rw [hbefore, List.nil_append]
    cases marks with
    | nil => exact head?_ne_dot n.not_mem_signs n.ne_nil _
    | cons mark marks => simp [Mark.chars]
  · exact head?_ne_dot before.not_mem_signs hbefore _

theorem run_segments (rest : List Segment) (k : Nat) (name z : List Char) :
    (between k name).run (rest.flatMap (fun s => '.' :: s.chars) ++ z) =
      (between k (name ++ rest.flatMap fun s => '.' :: s.read)).run z := by
  induction rest generalizing name with
  | nil => simp
  | cons s rest ih =>
    have hdot :=
      step_dot k name (head?_segment_ne_dot s (rest.flatMap (fun s => '.' :: s.chars) ++ z))
    rw [List.flatMap_cons, List.cons_append, List.cons_append, List.append_assoc, run_between_cons,
      hdot, run_segment, ih]
    simp

theorem run_brackets (brackets : List Brackets) (k : Nat) (name z : List Char) :
    (between k name).run (brackets.flatMap Brackets.chars ++ z) =
      (between (k + brackets.length) name).run z := by
  induction brackets generalizing k with
  | nil => rfl
  | cons b brackets ih =>
    have hleft : ∀ next, (between k name).step '[' next = between (k + 1) name := by
      intro next
      simp [step, between]
    have hright : ∀ next, (between (k + 1) name).step ']' next = between (k + 1) name := by
      intro next
      simp [step, between]
    rw [List.flatMap_cons, Brackets.chars, List.cons_append, List.cons_append, List.append_assoc,
      List.append_assoc, run_between_cons, hleft, run_blanks, List.cons_append, run_between_cons,
      hright, run_blanks, ih, List.length_cons]
    congr 2
    omega

theorem run_variadic (variadic : Option Blanks) (k : Nat) (name : List Char) :
    (between k name).run (variadic.elim [] fun after => '.' :: '.' :: '.' :: after.chars) =
      between (k + if variadic.isSome then 1 else 0) name := by
  cases variadic with
  | none => rfl
  | some after =>
    calc (between k name).run ('.' :: '.' :: '.' :: after.chars)
        = (between (k + 1) name).run (after.chars ++ []) := by simp [run, step, between]
      _ = between (k + 1) name := run_blanks after (k + 1) name []

end Erasure

/-- The names of a path of identifiers with dots between them. -/
structure Written.PlainPath where
  first : Name
  rest : List Name

def Written.PlainPath.text (path : PlainPath) : String :=
  String.ofList (path.first.chars ++ path.rest.flatMap fun n => '.' :: n.chars)

namespace WrittenType

theorem run_chars (w : WrittenType) :
    ({} : Erasure).run w.chars = Erasure.between w.dims w.readPath := by
  have hstart : ({} : Erasure) = Erasure.between 0 [] := rfl
  rw [hstart, chars, Erasure.run_segment, Erasure.run_segments, Erasure.run_brackets,
    Erasure.run_variadic, dims, readPath, Nat.zero_add, List.nil_append]

theorem ofWritten_eq_readPath (w : WrittenType) :
    ErasedType.ofWritten w.text = ⟨String.ofList w.readPath, w.dims⟩ := by
  have hne : w.readPath ≠ [] := by
    intro hnil
    obtain ⟨hread, -⟩ := List.append_eq_nil_iff.mp hnil
    exact w.first.name.ne_nil (List.append_eq_nil_iff.mp hread).2
  simp [ErasedType.ofWritten, text, run_chars, Erasure.result, Erasure.between, hne]

theorem length_read (s : Segment) :
    s.read.length = s.name.chars.length + (s.marks.flatMap Mark.leak).length := by
  rw [Segment.read, List.length_append, Nat.add_comm]

theorem length_readPath (w : WrittenType) :
    w.readPath.length = w.path.length + (w.marks.flatMap Mark.leak).length := by
  obtain ⟨first, rest, brackets, variadic⟩ := w
  have hrest : (rest.flatMap fun s => '.' :: s.read).length =
      (rest.flatMap fun s => '.' :: s.name.chars).length +
        ((rest.flatMap Segment.marks).flatMap Mark.leak).length := by
    induction rest with
    | nil => rfl
    | cons s rest ih =>
      simp only [List.flatMap_cons, List.flatMap_append, List.length_append, List.length_cons,
        length_read, ih]
      omega
  simp only [readPath, path, marks, segments, List.flatMap_cons, List.flatMap_append,
    List.length_append, length_read, hrest]
  omega

theorem readPath_eq_path (w : WrittenType) (h : ∀ mark ∈ w.marks, mark.leak = []) :
    w.readPath = w.path := by
  have hread : ∀ s ∈ w.segments, s.read = s.name.chars := by
    intro s hs
    have hnone : s.marks.flatMap Mark.leak = [] :=
      List.flatMap_eq_nil_iff.mpr fun mark hmark => h mark (List.mem_flatMap.mpr ⟨s, hs, hmark⟩)
    rw [Segment.read, hnone, List.nil_append]
  rw [readPath, path, hread w.first List.mem_cons_self]
  congr 1
  apply List.flatMap_congr
  intro s hs
  rw [hread s (List.mem_cons_of_mem _ hs)]

theorem ofWritten_eq_path_iff (w : WrittenType) :
    ErasedType.ofWritten w.text = ⟨String.ofList w.path, w.dims⟩ ↔
      ∀ mark ∈ w.marks, mark.leak = [] := by
  rw [ofWritten_eq_readPath]
  constructor
  · intro h
    have hpath : w.readPath = w.path := String.ofList_injective (congrArg ErasedType.name h)
    have hlength := w.length_readPath
    rw [hpath] at hlength
    have hnone : w.marks.flatMap Mark.leak = [] := List.length_eq_zero_iff.mp (by omega)
    exact List.flatMap_eq_nil_iff.mp hnone
  · intro h
    rw [w.readPath_eq_path h]

/-- A path written without anything else, and pairs of brackets behind it. -/
def ofPath (path : PlainPath) (dims : Nat) : WrittenType :=
  let blanks : Blanks := ⟨[], nofun⟩
  let segment (n : Name) : Segment := ⟨blanks, [], n, none, blanks⟩
  ⟨segment path.first, path.rest.map segment, List.replicate dims ⟨blanks, blanks⟩, none⟩

theorem path_ofPath (path : PlainPath) (dims : Nat) :
    String.ofList (ofPath path dims).path = path.text := by
  simp [ofPath, WrittenType.path, PlainPath.text, List.flatMap_map]

theorem text_ofPath (path : PlainPath) (dims : Nat) :
    (ofPath path dims).text = ErasedType.render ⟨path.text, dims⟩ := by
  have hcopies : ∀ n, (Text.copies "[]" n).toList = (List.replicate n ['[', ']']).flatten := by
    intro n
    induction n with
    | zero => rfl
    | succ n ih => simp [Text.copies, ih, List.replicate_succ]
  rw [← String.toList_inj]
  simp [ofPath, text, chars, Segment.chars, Brackets.chars, PlainPath.text, ErasedType.render,
    hcopies, List.flatMap_map, List.flatMap_replicate]

theorem marks_ofPath (path : PlainPath) (dims : Nat) : (ofPath path dims).marks = [] := by
  simp [ofPath, marks, segments, List.flatMap_map]

/-- **The erasure of a written type** has the dimensions of the type, and for its name the path
together with what annotations leave. It is the path alone, exactly if the names of the annotations
have no other characters than letters, numbers, underscores and dots, and no white space. A type
that is a path of names is read back from its rendering. -/
theorem ofWritten_text (w : WrittenType) :
    ErasedType.ofWritten w.text = ⟨String.ofList w.readPath, w.dims⟩ ∧
      (ErasedType.ofWritten w.text = ⟨String.ofList w.path, w.dims⟩ ↔
        ∀ mark ∈ w.marks, ∀ c ∈ mark.written, Erasure.isMarkChar c = true) ∧
      ∀ (path : PlainPath) (dims : Nat),
        ErasedType.ofWritten (ErasedType.render ⟨path.text, dims⟩) = ⟨path.text, dims⟩ := by
  refine ⟨w.ofWritten_eq_readPath, ?_, ?_⟩
  · rw [w.ofWritten_eq_path_iff]
    exact forall₂_congr fun mark _ => mark.leak_eq_nil_iff
  · intro path dims
    have hpath := (ofPath path dims).ofWritten_eq_path_iff.mpr (by simp [marks_ofPath])
    have hdims : (ofPath path dims).dims = dims := by simp [ofPath, WrittenType.dims]
    rwa [text_ofPath, path_ofPath, hdims] at hpath

/-- A name with an annotation whose name has a dollar sign. -/
def annotatedName : WrittenType where
  first :=
    { before := ⟨[], nofun⟩
      marks :=
        [⟨⟨[], nofun⟩, ⟨⟨"A$B".toList, by decide, List.all_eq_true.mp (by decide +kernel)⟩, []⟩,
        ⟨[' '], List.all_eq_true.mp (by decide +kernel)⟩, by decide⟩]
      name := ⟨"String".toList, by decide, List.all_eq_true.mp (by decide +kernel)⟩
      arguments := none
      after := ⟨[], nofun⟩ }
  rest := []
  brackets := []
  variadic := none

/-- The dollar sign and what comes behind it are read as the beginning of the name. -/
theorem dollar_read_as_name : annotatedName.text = "@A$B String" ∧
    String.ofList annotatedName.path = "String" ∧
    annotatedName.dims = 0 ∧ ErasedType.ofWritten annotatedName.text = ⟨"$BString", 0⟩ := by
  decide +kernel

end WrittenType

end KernelLint
