import KernelLint.Java.Source
import KernelLint.Program.Edit
import KernelLint.Proofs.Program.Lookup
import KernelLint.Proofs.Text.Replace

/-!
# Renaming a method

A method is renamed in its text where its name stands in front of a parenthesis for the first time.
That is the declared name, unless the same characters stand in the text before it: in an annotation,
in a comment or at the end of a longer name. Names have no parenthesis, so that the text after a
renaming says which of the occurrences was replaced.
-/

namespace KernelLint

open Text (replaceFirstChars replaceFirstChars_first exists_first_of_infix)

/-- A name in front of an opening parenthesis. -/
def callChars (name : String) : List Char := name.toList ++ ['(']

/-- The name of a method consists of characters of identifiers, of which the parenthesis is none. -/
def IsPlainName (name : String) : Prop := '(' ∉ name.toList

instance (name : String) : Decidable (IsPlainName name) :=
  inferInstanceAs (Decidable ('(' ∉ name.toList))

section

variable {name other : String} {before rest text : List Char}

theorem toList_withNameText (text old new : String) :
    (withNameText text old new).toList =
      replaceFirstChars (callChars old) (callChars new) text.toList := by
  simp [withNameText, Text.replaceFirst, callChars]

theorem callChars_ne_nil (name : String) : callChars name ≠ [] := by simp [callChars]

theorem eq_of_callChars_append (hname : IsPlainName name) (hother : IsPlainName other)
    {rest rest' : List Char} (h : callChars name ++ rest = callChars other ++ rest') :
    name = other := by
  have hcut : ∀ {name : String}, IsPlainName name → ∀ rest,
      (callChars name ++ rest).takeWhile (· ≠ '(') = name.toList := by
    intro name hname rest
    have hall : ∀ c ∈ name.toList, decide (c ≠ '(') = true := by
      intro c hc
      exact decide_eq_true fun heq => hname (heq ▸ hc)
    rw [callChars, List.append_assoc, List.takeWhile_append_of_pos hall]
    simp
  apply String.toList_inj.mp
  rw [← hcut hname rest, h, hcut hother rest']

/-- **The declared name is replaced** exactly if nothing before it reads the same. -/
theorem replaceFirst_callChars_iff (hname : IsPlainName name) (hother : IsPlainName other)
    (before rest : List Char) :
    replaceFirstChars (callChars name) (callChars other) (before ++ (callChars name ++ rest)) =
      before ++ (callChars other ++ rest) ↔ other = name ∨ ¬ callChars name <:+: before := by
  by_cases hoccurs : callChars name <:+: before
  · obtain ⟨front, back, rfl, hfront⟩ := exists_first_of_infix (callChars_ne_nil name) hoccurs
    have hfirst : replaceFirstChars (callChars name) (callChars other)
        (front ++ (callChars name ++ back) ++ (callChars name ++ rest)) =
          front ++ (callChars other ++ (back ++ (callChars name ++ rest))) := by
      rw [List.append_assoc, List.append_assoc]
      exact replaceFirstChars_first hname hfront _ _
    rw [hfirst]
    constructor
    · intro hsame
      rw [List.append_assoc, List.append_cancel_left_eq, List.append_assoc] at hsame
      exact .inl (eq_of_callChars_append hother hname hsame)
    · intro hcase
      obtain rfl : other = name := hcase.resolve_right fun hnot => hnot hoccurs
      rw [List.append_assoc, List.append_assoc]
  · rw [show replaceFirstChars (callChars name) (callChars other)
      (before ++ (callChars name ++ rest)) =
      before ++ (callChars other ++ rest) from replaceFirstChars_first hname hoccurs _ _]
    exact iff_of_true rfl (.inr hoccurs)

theorem replaceFirst_replaceFirst_iff (hname : IsPlainName name) (hother : IsPlainName other)
    (hoccurs : callChars name <:+: text) :
    replaceFirstChars (callChars other) (callChars name)
        (replaceFirstChars (callChars name) (callChars other) text) = text ↔
      other = name ∨ ∃ front back, text = front ++ (callChars name ++ back) ∧
        ¬ callChars name <:+: front ∧
        ¬ callChars other <:+: front := by
  have hback : ∀ front back, ¬ callChars name <:+: front →
      (replaceFirstChars (callChars other) (callChars name)
          (replaceFirstChars (callChars name) (callChars other)
            (front ++ (callChars name ++ back))) =
        front ++ (callChars name ++ back) ↔ name = other ∨ ¬ callChars other <:+: front) := by
    intro front back hfront
    rw [show replaceFirstChars (callChars name) (callChars other)
      (front ++ (callChars name ++ back)) =
      front ++ (callChars other ++ back) from replaceFirstChars_first hname hfront _ _]
    exact replaceFirst_callChars_iff hother hname front back
  constructor
  · intro hsame
    obtain ⟨front, back, rfl, hfront⟩ := exists_first_of_infix (callChars_ne_nil name) hoccurs
    rcases (hback front back hfront).mp hsame with heq | hnone
    · exact .inl heq.symm
    · exact .inr ⟨front, back, rfl, hfront, hnone⟩
  · rintro (rfl | ⟨front, back, rfl, hfront, hnone⟩)
    · obtain ⟨front, back, rfl, hfront⟩ := exists_first_of_infix (callChars_ne_nil other) hoccurs
      exact (hback front back hfront).mpr (.inl rfl)
    · exact (hback front back hfront).mpr (.inr hnone)

end

namespace Program

variable {p : Program} {id : MethodId} {m : Method}

theorem exists_renameMethod (hm : p.method? id = some m) (name : String) :
    ∃ q, p.renameMethod id name = .ok q ∧
      q.method? id = some { m with text := withNameText m.text m.name name, name } := by
  refine ⟨_, by rw [renameMethod, hm], ?_⟩
  have hbump : ∀ q : Program, q.bump.method? id = q.method? id := fun _ => rfl
  rw [hbump, method?_modifyMethod, hm, Option.map_some, if_pos rfl]

/-- **Renaming a method.** The text of a method is a header, its name, a parenthesis and the rest.
Renaming it succeeds and gives it the new name, as does renaming it back; nothing but the name and
the text of the method changes. The declared name is what is rewritten, exactly if the old name does
not stand in front of a parenthesis in the header already, and the old text is there again in the
end, exactly if the new name does not in front of what is replaced. -/
theorem renameMethod_renameMethod (p : Program) (id : MethodId) (m : Method)
    (header rest : List Char) (name : String) (hm : p.method? id = some m)
    (htext : m.text.toList = header ++ (callChars m.name ++ rest)) (hold : IsPlainName m.name)
    (hnew : IsPlainName name) :
    ∃ q r text back, p.renameMethod id name = .ok q ∧ q.renameMethod id m.name = .ok r ∧
      q.method? id = some { m with text, name } ∧ r.method? id = some { m with text := back } ∧
      (text.toList = header ++ (callChars name ++ rest) ↔ name = m.name ∨
        ¬ callChars m.name <:+: header) ∧
      (back = m.text ↔ name = m.name ∨ ∃ before after,
        m.text.toList = before ++ (callChars m.name ++ after) ∧
        ¬ callChars m.name <:+: before ∧ ¬ callChars name <:+: before) := by
  obtain ⟨q, hq, hqm⟩ := exists_renameMethod hm name
  obtain ⟨r, hr, hrm⟩ := exists_renameMethod hqm m.name
  refine ⟨q, r, _, _, hq, hr, hqm, hrm, ?_, ?_⟩
  · rw [toList_withNameText, htext]
    exact replaceFirst_callChars_iff hold hnew header rest
  · have hoccurs : callChars m.name <:+: m.text.toList := by
      rw [htext]
      exact ⟨header, rest, by rw [List.append_assoc]⟩
    rw [← String.toList_inj, toList_withNameText, toList_withNameText]
    exact replaceFirst_replaceFirst_iff hold hnew hoccurs

/-- A method whose header names it, but in front of no parenthesis. -/
def namedMethod : Program :=
  (Program.empty.addSource ⟨"K.java"⟩
    "class K \x7b @A(name = \"k\") /* k */ static <T> int k(T x) { return k(x); } \x7d"
    .project).2

theorem renameMethod_renameMethod_namedMethod : ∃ q r,
    namedMethod.renameMethod ⟨0⟩ "run" = .ok q ∧ q.renameMethod ⟨0⟩ "k" = .ok r ∧
      (q.method? ⟨0⟩).map (·.text) =
        some "@A(name = \"k\") /* k */ static <T> int run(T x) { return k(x); }" ∧
      (r.method? ⟨0⟩).map (·.text) = (namedMethod.method? ⟨0⟩).map (·.text) := by
  obtain ⟨m, hm, hname, htext⟩ : ∃ m, namedMethod.method? ⟨0⟩ = some m ∧ m.name = "k" ∧
      m.text = "@A(name = \"k\") /* k */ static <T> int k(T x) { return k(x); }" := by
    have hwritten : (namedMethod.method? ⟨0⟩).map (fun m => (m.name, m.text)) =
        some ("k", "@A(name = \"k\") /* k */ static <T> int k(T x) { return k(x); }") := by
          decide +kernel
    obtain ⟨m, hm, heq⟩ := Option.map_eq_some_iff.mp hwritten
    exact ⟨m, hm, congrArg Prod.fst heq, congrArg Prod.snd heq⟩
  have hsplit : m.text.toList =
      "@A(name = \"k\") /* k */ static <T> int ".toList ++
        (callChars m.name ++ "T x) { return k(x); }".toList) := by
    rw [htext, hname]
    decide
  obtain ⟨q, r, text, back, hq, hr, hqm, hrm, hrenamed, hback⟩ :=
    renameMethod_renameMethod namedMethod ⟨0⟩ m _ _ "run" hm hsplit (by rw [hname]; decide)
      (by decide)
  have hnone : ¬ callChars m.name <:+: "@A(name = \"k\") /* k */ static <T> int ".toList := by
    rw [hname]
    decide
  refine ⟨q, r, hq, hname ▸ hr, ?_, ?_⟩
  · rw [hqm, Option.map_some, Option.some_inj, ← String.toList_inj, hrenamed.mpr (.inr hnone)]
    decide
  · rw [hrm, hm, Option.map_some, Option.map_some,
      hback.mpr (.inr ⟨_, _, hsplit, hnone, by decide⟩)]

/-- The text of a method after renamings one after another. -/
def textRenamed (p : Program) (id : MethodId) (names : List String) : Option String :=
  (((names.foldlM (fun (p : Program) name => p.renameMethod id name) p).toOption).bind
    (·.method? id)).map (·.text)

/-- A method with an annotation in front. -/
def markedMethod (mark : String) : Program :=
  (Program.empty.addSource ⟨"K.java"⟩ ("class K \x7b " ++ mark ++ " void k() { } \x7d") .project).2

/-- The annotation is renamed and not the method, also where the name of the method is but the end
of that of the annotation. Renaming back changes the annotation where it has got its name from the
method. -/
theorem annotation_renamed :
    (markedMethod "@k(1)").textRenamed ⟨0⟩ ["n"] = some "@n(1) void k() { }" ∧
    (markedMethod "@Mark(1)").textRenamed ⟨0⟩ ["n"] = some "@Marn(1) void k() { }" ∧
    (markedMethod "@n(1)").textRenamed ⟨0⟩ ["n"] = some "@n(1) void n() { }" ∧
    (markedMethod "@n(1)").textRenamed ⟨0⟩ ["n", "k"] = some "@k(1) void n() { }" := by
  decide +kernel

end Program

end KernelLint
