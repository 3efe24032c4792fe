import KernelLint.Java.Source
import KernelLint.Program.Edit
import KernelLint.Proofs.Program.Lookup
import KernelLint.Proofs.Text.Blank

/-!
# Headers of declarations

A header is a list of pieces: signs, quoted texts and comments, with as many parentheses closed as
are opened. The scanner takes all of a header and stops at the brace or semicolon behind it
(`scan_chars`), so that a new body is put behind the old header without the white space at its end.
What is left is a header again, except where a comment up to the end of a line is the last piece:
trimming takes away the end of that line, and the new body becomes part of the comment.
-/

namespace KernelLint.Header

open Text (isBlank trimBack)

/-! ## The pieces of a header -/

inductive Piece where
  /-- A character that belongs to no quoted text and to no comment. -/
  | sign (c : Char)
  | quoted (quote : Char) (text : List Char)
  /-- A comment up to the end of the line, which is part of it. -/
  | lineComment (text : List Char)
  | comment (text : List Char)
  deriving DecidableEq

def Piece.chars : Piece → List Char
  | .sign c => [c]
  | .quoted quote text => quote :: (text ++ [quote])
  | .lineComment text => '/' :: '/' :: (text ++ ['\n'])
  | .comment text => '/' :: '*' :: (text ++ ['*', '/'])

def chars (pieces : List Piece) : List Char := pieces.flatMap Piece.chars

/-- Can the text stand between two quotes? A backslash takes the character behind it along. -/
def isQuoted (quote : Char) : List Char → Bool
  | [] => true
  | ['\\'] => false
  | '\\' :: _ :: rest => isQuoted quote rest
  | c :: rest => c ≠ quote && isQuoted quote rest

/-- Does a slash in front of the text make a comment of it? -/
def opensComment (rest : List Char) : Bool := rest.head? = some '/' || rest.head? = some '*'

/-- Are these the pieces of a header from a place with so many open parentheses on? The parentheses
are all closed in the end, and braces are opened and semicolons stand only between them. -/
def fits : Nat → List Piece → Bool
  | parens, [] => parens = 0
  | parens, .sign c :: rest =>
    if c = '(' then fits (parens + 1) rest
    else if c = ')' then 0 < parens && fits (parens - 1) rest
    else c ≠ '"' && c ≠ '\'' && (0 < parens || (c ≠ '{' && c ≠ ';')) &&
      (c ≠ '/' || !opensComment (chars rest))
      && fits parens rest
  | parens, .quoted quote text :: rest => (quote = '"' || quote = '\'') && isQuoted quote text &&
      fits parens rest
  | parens, .lineComment text :: rest => !text.contains '\n' && fits parens rest
  | parens, .comment text :: rest => !Text.hasInfixChars ['*', '/'] text && fits parens rest

def Piece.isBlank : Piece → Bool
  | .sign c => Text.isBlank c
  | _ => false

/-- Is a comment up to the end of its line the last piece, but for white space? -/
def endsInLineComment (pieces : List Piece) : Bool :=
  (pieces.rdropWhile Piece.isBlank).getLast?.any (· matches .lineComment _)

theorem endsInLineComment_iff {pieces : List Piece} : endsInLineComment pieces = true ↔
    ∃ (before : List Piece) (text blanks : List Char),
      pieces = before ++ .lineComment text :: blanks.map .sign ∧
      ∀ c ∈ blanks, isBlank c = true := by
  constructor
  · intro h
    induction pieces using List.reverseRecOn with
    | nil => cases h
    | append_singleton pieces piece ih =>
      cases piece with
      | lineComment text => exact ⟨pieces, text, [], rfl, nofun⟩
      | sign c =>
        rw [endsInLineComment, List.rdropWhile_concat] at h
        cases hc : isBlank c with
        | false => simp [Piece.isBlank, hc] at h
        | true =>
          rw [Piece.isBlank, hc, if_pos rfl] at h
          obtain ⟨before, text, blanks, rfl, hblanks⟩ := ih h
          refine ⟨before, text, blanks ++ [c], by simp, ?_⟩
          exact List.forall_mem_append.mpr ⟨hblanks, by simpa using hc⟩
      | quoted quote text => simp [endsInLineComment, Piece.isBlank] at h
      | comment text => simp [endsInLineComment, Piece.isBlank] at h
  · rintro ⟨before, text, blanks, rfl, hblanks⟩
    induction blanks using List.reverseRecOn with
    | nil => simp [endsInLineComment, Piece.isBlank]
    | append_singleton blanks c ih =>
      obtain ⟨hblanks, hc⟩ := List.forall_mem_append.mp hblanks
      have hlast : Piece.isBlank (.sign c) = true := hc c (by simp)
      rw [List.map_append, ← List.cons_append, ← List.append_assoc, endsInLineComment,
        List.map_singleton, List.rdropWhile_concat_pos _ _ _ hlast]
      exact ih hblanks

/-! ## The scanner on a header -/

theorem scan_quoted {quote : Char} (hquote : quote ≠ '\\') {text : List Char}
    (h : isQuoted quote text = true) (n : Nat) (z : List Char) :
    scan (.quoted quote) n (text ++ quote :: z) = text ++ quote :: scan .code n z := by
  fun_induction isQuoted quote text with
  | case1 => simp [scan, Mode.after]
  | case2 => cases h
  | case3 c rest ih => simp [scan, Mode.after, Ne.symm hquote, ih h]
  | case4 c rest hsingle hescaped ih =>
    obtain ⟨hc, hrest⟩ := by simpa using h
    have hescape : c ≠ '\\' := by
      rintro rfl
      cases rest with
      | nil => exact hsingle rfl rfl
      | cons d rest => exact hescaped d rest rfl rfl
    simp [scan, Mode.after, hc, hescape, ih hrest]

theorem scan_lineComment {text : List Char} (h : '\n' ∉ text) (n : Nat) (z : List Char) :
    scan .lineComment n (text ++ z) = text ++ scan .lineComment n z := by
  induction text with
  | nil => rfl
  | cons c text ih =>
    obtain ⟨hc, htext⟩ := List.ne_and_not_mem_of_not_mem_cons h
    rw [List.cons_append, scan, Mode.after, if_neg (Ne.symm hc), ih htext]
    · rfl
    · nofun

theorem scan_comment {text : List Char} (h : Text.hasInfixChars ['*', '/'] text = false) (n : Nat)
    (z : List Char) :
    scan .comment n (text ++ '*' :: '/' :: z) = text ++ '*' :: '/' :: scan .code n z := by
  induction text with
  | nil => simp [scan, Mode.after]
  | cons c text ih =>
    rw [Text.hasInfixChars, Bool.or_eq_false_iff] at h
    have hopen : ¬ (c = '*' ∧ (text ++ '*' :: '/' :: z).head? = some '/') := by
      rintro ⟨rfl, hhead⟩
      cases text with
      | nil => simp at hhead
      | cons d text =>
        obtain rfl : d = '/' := by simpa using hhead
        simp at h
    rw [List.cons_append, scan, Mode.after, if_neg hopen, ih h.2]
    · rfl
    · nofun

theorem chars_cons (piece : Piece) (rest : List Piece) :
    chars (piece :: rest) = piece.chars ++ chars rest := rfl

theorem chars_append (before after : List Piece) :
    chars (before ++ after) = chars before ++ chars after :=
  List.flatMap_append

theorem opensComment_append {cs w w' : List Char}
    (hw : opensComment w = false → opensComment w' = false) (h : opensComment (cs ++ w) = false) :
    opensComment (cs ++ w') = false := by
  cases cs with
  | nil => exact hw h
  | cons c cs => exact h

theorem scan_sign {c : Char} (hopen : c ≠ '(') (hclose : c ≠ ')') (hquote : c ≠ '"' ∧ c ≠ '\'')
    {n : Nat} (hbody : 0 < n ∨ (c ≠ '{' ∧ c ≠ ';')) {z : List Char}
    (hslash : c ≠ '/' ∨ opensComment z = false) :
    scan .code n (c :: z) = c :: scan .code n z := by
  have hstays : ¬ ((c = '{' ∨ c = ';') ∧ n = 0) := by
    rintro ⟨hc, rfl⟩
    rcases hc with rfl | rfl <;> simp at hbody
  have hnext : ∀ d, d = '/' ∨ d = '*' → ¬ (c = '/' ∧ z.head? = some d) := by
    rintro d hd ⟨rfl, hhead⟩
    rcases hd with rfl | rfl <;> simp [opensComment, hhead] at hslash
  have hmode : Mode.after c z.head? .code = .code := by
    have hnone : ¬ (c = '"' ∨ c = '\'') := by tauto
    rw [Mode.after, if_neg hnone, if_neg (hnext '/' (.inl rfl)), if_neg (hnext '*' (.inr rfl))]
  rw [scan, if_neg hstays, hmode, parensAfter, if_neg hopen, if_neg hclose]

/-- **The scanner takes the pieces of a header one after another**, whatever text is put behind the
first of them: only a slash must not be made a comment by it. -/
theorem scan_pieces {before after : List Piece} {n : Nat} (h : fits n (before ++ after) = true)
    {w : List Char} (hw : opensComment (chars after) = false → opensComment w = false) :
    ∃ k, fits k after = true ∧
      scan .code n (chars before ++ w) = chars before ++ scan .code k w := by
  induction before generalizing n with
  | nil => exact ⟨n, h, rfl⟩
  | cons piece rest ih =>
    rw [chars_cons]
    cases piece with
    | sign c =>
      rw [List.cons_append, fits] at h
      split at h
      · rename_i hopen
        obtain ⟨k, hk, hscan⟩ := ih h
        refine ⟨k, hk, ?_⟩
        simp [hopen, Piece.chars, scan, Mode.after, parensAfter, hscan]
      · rename_i hopen
        split at h
        · rename_i hclose
          obtain ⟨k, hk, hscan⟩ := ih (Bool.and_eq_true_iff.mp h).2
          refine ⟨k, hk, ?_⟩
          simp [hclose, Piece.chars, scan, Mode.after, parensAfter, hscan]
        · rename_i hclose
          simp only [Bool.and_eq_true, Bool.or_eq_true, decide_eq_true_eq, Bool.not_eq_true'] at h
          obtain ⟨⟨⟨⟨hdouble, hsingle⟩, hbody⟩, hslash⟩, hrest⟩ := h
          obtain ⟨k, hk, hscan⟩ := ih hrest
          have hthen : c ≠ '/' ∨ opensComment (chars rest ++ w) = false := by
            rw [chars_append] at hslash
            exact hslash.imp_right (opensComment_append hw)
          refine ⟨k, hk, ?_⟩
          simp only [Piece.chars, List.cons_append, List.nil_append]
          rw [scan_sign hopen hclose ⟨hdouble, hsingle⟩ hbody hthen, hscan]
    | quoted quote text =>
      simp only [List.cons_append, fits, Bool.and_eq_true, Bool.or_eq_true, decide_eq_true_eq] at h
      obtain ⟨⟨hquote, htext⟩, hrest⟩ := h
      obtain ⟨k, hk, hscan⟩ := ih hrest
      refine ⟨k, hk, ?_⟩
      have hescape : quote ≠ '\\' := by rcases hquote with rfl | rfl <;> decide
      have hinner := scan_quoted hescape htext n (chars rest ++ w)
      rcases hquote with rfl | rfl <;> simp [Piece.chars, scan, Mode.after, parensAfter,
        hinner, hscan]
    | lineComment text =>
      simp only [List.cons_append, fits, Bool.and_eq_true, Bool.not_eq_true'] at h
      obtain ⟨k, hk, hscan⟩ := ih h.2
      refine ⟨k, hk, ?_⟩
      have htext : '\n' ∉ text := by simpa using h.1
      simp [Piece.chars, scan, Mode.after, parensAfter, scan_lineComment htext, hscan]
    | comment text =>
      simp only [List.cons_append, fits, Bool.and_eq_true, Bool.not_eq_true'] at h
      obtain ⟨k, hk, hscan⟩ := ih h.2
      refine ⟨k, hk, ?_⟩
      simp [Piece.chars, scan, Mode.after, parensAfter, scan_comment h.1, hscan]

theorem scan_chars {pieces : List Piece} (h : fits 0 pieces = true) {w : List Char}
    (hw : opensComment w = false) :
    scan .code 0 (chars pieces ++ w) = chars pieces ++ scan .code 0 w := by
  rw [← List.append_nil pieces] at h
  obtain ⟨k, hk, hscan⟩ := scan_pieces h fun _ => hw
  obtain rfl : k = 0 := by simpa [fits] using hk
  exact hscan

theorem scan_openComment {before after : List Piece} {text : List Char} {n : Nat}
    (h : fits n (before ++ .lineComment text :: after) = true) {text' : List Char}
    (htext : '\n' ∉ text') (w : List Char) :
    ∃ k, scan .code n (chars before ++ '/' :: '/' :: (text' ++ w)) =
      chars before ++ '/' :: '/' :: (text' ++ scan .lineComment k w) := by
  obtain ⟨k, -, hscan⟩ := scan_pieces h (w := '/' :: '/' :: (text' ++ w))
    (by simp [chars_cons, Piece.chars, opensComment])
  refine ⟨k, ?_⟩
  rw [hscan]
  simp [scan, Mode.after, parensAfter, scan_lineComment htext]

/-! ## Trimming a header -/

theorem fits_append_congr {before after after' : List Piece}
    (hafter : ∀ k, fits k after = true → fits k after' = true)
    (hw : opensComment (chars after) = false → opensComment (chars after') = false) {n : Nat}
    (h : fits n (before ++ after) = true) : fits n (before ++ after') = true := by
  induction before generalizing n with
  | nil => exact hafter n h
  | cons piece rest ih =>
    cases piece with
    | sign c =>
      rw [List.cons_append, fits] at h ⊢
      split at h
      · rename_i hopen
        rw [if_pos hopen]
        exact ih h
      · rename_i hopen
        rw [if_neg hopen]
        split at h
        · rename_i hclose
          rw [Bool.and_eq_true] at h
          rw [if_pos hclose, h.1, ih h.2]
          rfl
        · rename_i hclose
          rw [Bool.and_eq_true, Bool.and_eq_true] at h
          obtain ⟨⟨hsign, hslash⟩, hrest⟩ := h
          have hslash' : (decide (c ≠ '/') || !opensComment (chars (rest ++ after'))) = true := by
            simp only [chars_append, Bool.or_eq_true, decide_eq_true_eq,
              Bool.not_eq_true'] at hslash ⊢
            exact hslash.imp_right (opensComment_append hw)
          rw [if_neg hclose, hsign, hslash', ih hrest]
          rfl
    | quoted quote text =>
      rw [List.cons_append, fits, Bool.and_eq_true] at h ⊢
      exact ⟨h.1, ih h.2⟩
    | lineComment text =>
      rw [List.cons_append, fits, Bool.and_eq_true] at h ⊢
      exact ⟨h.1, ih h.2⟩
    | comment text =>
      rw [List.cons_append, fits, Bool.and_eq_true] at h ⊢
      exact ⟨h.1, ih h.2⟩

theorem fits_of_append_blank {before : List Piece} {c : Char} (hc : isBlank c = true) {n : Nat}
    (h : fits n (before ++ [.sign c]) = true) : fits n before = true := by
  rw [← List.append_nil before]
  refine fits_append_congr (fun k hk => ?_) (fun _ => rfl) h
  have hopen : c ≠ '(' := by
    rintro rfl
    simp [Text.isBlank_punctuation '(' (by decide)] at hc
  have hclose : c ≠ ')' := by
    rintro rfl
    simp [Text.isBlank_punctuation ')' (by decide)] at hc
  rw [fits, if_neg hopen, if_neg hclose, Bool.and_eq_true] at hk
  exact hk.2

/-- A trimmed header is the text of a header, except where a comment up to the end of a line came
last. -/
theorem exists_trimmed {pieces : List Piece} {n : Nat} (h : fits n pieces = true) :
    endsInLineComment pieces = true ∨ ∃ trimmed, fits n trimmed = true ∧
      chars trimmed = trimBack (chars pieces) := by
  induction pieces using List.reverseRecOn with
  | nil => exact .inr ⟨[], h, rfl⟩
  | append_singleton before piece ih =>
    have hlast : ∀ c text, isBlank c = false → piece.chars = text ++ [c] →
        trimBack (chars (before ++ [piece])) = chars (before ++ [piece]) := by
      intro c text hc hpiece
      rw [chars_append, chars_cons, hpiece]
      have hend : chars before ++ (text ++ [c] ++ chars []) = (chars before ++ text) ++ [c] := by
        simp [chars]
      rw [hend]
      exact Text.trimBack_eq_self hc
    cases piece with
    | sign c =>
      cases hc : isBlank c with
      | false => exact .inr ⟨_, h, (hlast c [] hc rfl).symm⟩
      | true =>
        have htrim : trimBack (chars (before ++ [.sign c])) = trimBack (chars before) := by
          rw [chars_append]
          exact Text.trimBack_append_blanks (by simpa [chars, Piece.chars] using hc)
        rw [htrim]
        refine (ih (fits_of_append_blank hc h)).imp_left fun hend => ?_
        rwa [endsInLineComment, List.rdropWhile_concat_pos _ _ _
          (show Piece.isBlank (.sign c) = true from hc)]
    | quoted quote text =>
      have hquote : isBlank quote = false := by
        obtain ⟨k, hk, -⟩ := scan_pieces h (w := chars [.quoted quote text]) id
        simp only [fits, Bool.and_eq_true, Bool.or_eq_true, decide_eq_true_eq] at hk
        rcases hk.1.1 with rfl | rfl <;> exact Text.isBlank_punctuation _ (by decide)
      exact .inr ⟨_, h, (hlast quote (quote :: text) hquote rfl).symm⟩
    | lineComment text => exact .inl (endsInLineComment_iff.mpr ⟨before, text, [], rfl, nofun⟩)
    | comment text =>
      have hslash : isBlank '/' = false := Text.isBlank_punctuation _ (by decide)
      exact .inr
        ⟨_, h, (hlast '/' ('/' :: '*' :: (text ++ ['*'])) hslash (by simp [Piece.chars])).symm⟩

end KernelLint.Header

namespace KernelLint

open Header

/-! ## Giving a declaration another body -/

/-- What a new body puts behind the trimmed header. -/
def bodyChars : Option String → List Char
  | some source => ' ' :: (Text.trim source).toList
  | none => [';']

theorem withBodyText_eq_scan (text : String) (body : Option String) :
    (withBodyText text body).toList =
      Text.trimBack (scan .code 0 text.toList) ++ bodyChars body := by
  cases body <;> simp [withBodyText, bodyChars, Text.trimEnd, declarationHeader]

/-- The text is written between braces. -/
def IsBraced (source : String) : Prop :=
  ∃ inner, source.toList = '{' :: (inner ++ ['}'])

theorem bodyChars_of_braced {body : Option String} (h : ∀ source ∈ body, IsBraced source) :
    (∃ inner, bodyChars body = ' ' :: '{' :: inner) ∨ bodyChars body = [';'] := by
  cases body with
  | none => exact .inr rfl
  | some source =>
    obtain ⟨inner, hsource⟩ := h source rfl
    have hfront : Text.trimFront source.toList = source.toList := by
      rw [hsource, Text.trimFront,
        List.dropWhile_cons_of_neg (by simp [Text.isBlank_punctuation '{' (by decide)])]
    have hback : Text.trimBack ('{' :: (inner ++ ['}'])) = '{' :: (inner ++ ['}']) :=
      Text.trimBack_append_cons (Text.isBlank_punctuation '}' (by decide)) ('{' :: inner) []
    refine .inl ⟨inner ++ ['}'], ?_⟩
    rw [bodyChars, Text.trim, hfront, String.toList_ofList, hsource, hback]

/-- A text is a header and what comes behind it: a body or a semicolon. -/
structure IsDeclared (text : String) (header : List Piece) (rest : List Char) : Prop where
  split : text.toList = chars header ++ rest
  fits : fits 0 header = true
  rest : rest.head? = some '{' ∨ rest.head? = some ';'

section

variable {text : String} {header : List Piece} {rest : List Char}

/-- **The header is kept.** A new body comes behind the trimmed header. -/
theorem IsDeclared.toList_withBodyText (h : IsDeclared text header rest) (body : Option String) :
    (withBodyText text body).toList = Text.trimBack (chars header) ++ bodyChars body := by
  obtain ⟨hsplit, hfits, hrest⟩ := h
  have hslash : opensComment rest = false := by
    rcases hrest with hrest | hrest <;> simp [opensComment, hrest]
  have hstop : scan .code 0 rest = [] := by
    cases rest with
    | nil => rfl
    | cons c rest => rcases hrest with hrest | hrest <;> cases hrest <;> simp [scan]
  rw [withBodyText_eq_scan, hsplit, scan_chars hfits hslash, hstop, List.append_nil]

theorem IsDeclared.withBodyText_withBodyText (h : IsDeclared text header rest)
    (hend : endsInLineComment header = false) {first second : Option String}
    (hfirst : ∀ source ∈ first, IsBraced source) :
    withBodyText (withBodyText text first) second = withBodyText text second := by
  obtain ⟨trimmed, hfits, htrimmed⟩ := (exists_trimmed h.fits).resolve_left (by simp [hend])
  have hscan : Text.trimBack (scan .code 0 (withBodyText text first).toList) =
      Text.trimBack (chars header) := by
    have hblank : ∀ c ∈ [' '], Text.isBlank c = true := List.all_eq_true.mp (by decide +kernel)
    rw [h.toList_withBodyText, ← htrimmed]
    rcases bodyChars_of_braced hfirst with ⟨inner, hbody⟩ | hbody <;>
      rw [hbody, scan_chars hfits rfl]
    · have hstop : scan .code 0 (' ' :: '{' :: inner) = [' '] := by
        simp [scan, Mode.after, parensAfter]
      rw [hstop, Text.trimBack_append_blanks hblank, htrimmed, Text.trimBack_trimBack]
    · have hstop : scan .code 0 [';'] = [] := by simp [scan]
      rw [hstop, List.append_nil, htrimmed, Text.trimBack_trimBack]
  rw [← String.toList_inj, withBodyText_eq_scan, hscan, h.toList_withBodyText]

/-- Behind a comment up to the end of the line the scanner takes the beginning of a body for a part
of the header. -/
theorem exists_scanned_more {pieces : List Piece} (hfits : Header.fits 0 pieces = true)
    (hend : endsInLineComment pieces = true) {body : Option String}
    (hbody : ∀ source ∈ body, IsBraced source) :
    ∃ more, more ≠ [] ∧
      Text.trimBack (scan .code 0 (Text.trimBack (chars pieces) ++ bodyChars body)) =
      Text.trimBack (chars pieces) ++ more := by
  obtain ⟨before, comment, blanks, rfl, hblanks⟩ := endsInLineComment_iff.mp hend
  have hline : '\n' ∉ comment := by
    obtain ⟨k, hk, -⟩ :=
        scan_pieces hfits (w := chars (.lineComment comment :: blanks.map .sign)) id
    simp only [Header.fits, Bool.and_eq_true, Bool.not_eq_true'] at hk
    simpa using hk.1
  have hslash : Text.isBlank '/' = false := Text.isBlank_punctuation _ (by decide)
  have htrimmed : Text.trimBack (chars (before ++ .lineComment comment :: blanks.map .sign)) =
      chars before ++ '/' :: '/' :: Text.trimBack comment := by
    have hchars : chars (before ++ .lineComment comment :: blanks.map .sign) =
        (chars before ++ ['/']) ++ '/' :: (comment ++ '\n' :: blanks) := by
      have hsigns : chars (blanks.map .sign) = blanks := by
        simp [chars, List.flatMap_map, Piece.chars]
      simp [chars_append, chars_cons, Piece.chars, hsigns]
    have hlost : ∀ c ∈ '\n' :: blanks, Text.isBlank c = true :=
      List.forall_mem_cons.mpr ⟨by decide +kernel, hblanks⟩
    rw [hchars, Text.trimBack_append_cons hslash, Text.trimBack_append_blanks hlost,
      List.append_assoc]
    rfl
  have hkept : '\n' ∉ Text.trimBack comment :=
    fun hmem => hline ((Text.trimBack_isPrefix comment).subset hmem)
  obtain ⟨k, hscan⟩ := scan_openComment hfits hkept (bodyChars body)
  rw [htrimmed, List.append_assoc, List.cons_append, List.cons_append, hscan]
  generalize Text.trimBack comment = kept
  rcases bodyChars_of_braced hbody with ⟨inner, hbody⟩ | hbody <;> rw [hbody]
  · have hinside : scan .lineComment k (' ' :: '{' :: inner) = ' ' :: '{' ::
        scan .lineComment k inner := by
      simp [scan, Mode.after]
    have hbrace : Text.isBlank '{' = false := Text.isBlank_punctuation _ (by decide)
    refine ⟨' ' :: '{' :: Text.trimBack (scan .lineComment k inner), nofun, ?_⟩
    have htrim := Text.trimBack_append_cons hbrace (chars before ++ '/' :: '/' :: (kept ++ [' ']))
      (scan .lineComment k inner)
    simpa [hinside] using htrim
  · have hinside : scan .lineComment k [';'] = [';'] := by simp [scan]
    have hsemicolon : Text.isBlank ';' = false := Text.isBlank_punctuation _ (by decide)
    refine ⟨[';'], nofun, ?_⟩
    have htrim := Text.trimBack_append_cons hsemicolon (chars before ++ '/' :: '/' :: kept) []
    simpa [hinside, Text.trimBack] using htrim

theorem IsDeclared.withBodyText_ne (h : IsDeclared text header rest)
    (hend : endsInLineComment header = true) {first second : Option String}
    (hfirst : ∀ source ∈ first, IsBraced source) :
    withBodyText (withBodyText text first) second ≠ withBodyText text second := by
  obtain ⟨more, hmore, hscan⟩ := exists_scanned_more h.fits hend hfirst
  intro hsame
  rw [← String.toList_inj, withBodyText_eq_scan, h.toList_withBodyText, h.toList_withBodyText,
    hscan] at hsame
  have hlength := congrArg List.length hsame
  have hpos := List.length_pos_iff.mpr hmore
  simp only [List.length_append] at hlength
  omega

end

namespace Program

variable {p : Program} {id : MethodId} {m : Method}

theorem exists_replaceBody (hm : p.method? id = some m) (body : Option Stmt) (source : String) :
    ∃ q, p.replaceBody id body source = .ok q ∧
      q.method? id =
        some { m with text := withBodyText m.text (body.map fun _ => source), body } := by
  refine ⟨_, by rw [replaceBody, hm], ?_⟩
  have hbump : ∀ q : Program, q.bump.method? id = q.method? id := fun _ => rfl
  rw [hbump, method?_modifyMethod, hm, Option.map_some, if_pos rfl]

/-- **Body edits keep the header.** The text of a method is a header with a body or a semicolon
behind it. The edits of its body succeed, and a single one puts the new body behind the trimmed
header. After a second one the text is what it is without the first one, exactly if no comment up to
the end of a line is the last piece of the header. -/
theorem replaceBody_replaceBody (p : Program) (id : MethodId)
    (m : Method) (header : List Header.Piece) (rest : List Char) (first second : Option Stmt)
    (source source' : String) (hm : p.method? id = some m)
    (htext : IsDeclared m.text header rest) (hfirst : first.isSome = true → IsBraced source) :
    ∃ q q' r, p.replaceBody id first source = .ok q ∧ q.replaceBody id second source' = .ok q' ∧
      p.replaceBody id second source' = .ok r ∧
      ∃ twice once, q'.method? id = some twice ∧ r.method? id = some once ∧
        once.text.toList =
          Text.trimBack (Header.chars header) ++ bodyChars (second.map fun _ => source') ∧
        (twice.text = once.text ↔ Header.endsInLineComment header = false) := by
  have hbraced : ∀ written ∈ first.map fun _ => source, IsBraced written := by
    intro written hwritten
    obtain ⟨body, hbody, rfl⟩ := Option.map_eq_some_iff.mp hwritten
    exact hfirst (Option.isSome_of_mem hbody)
  obtain ⟨q, hq, hqm⟩ := exists_replaceBody hm first source
  obtain ⟨q', hq', htwice⟩ := exists_replaceBody hqm second source'
  obtain ⟨r, hr, honce⟩ := exists_replaceBody hm second source'
  refine ⟨q, q', r, hq, hq', hr, _, _, htwice, honce, htext.toList_withBodyText _, ?_⟩
  constructor
  · intro hsame
    by_contra hend
    rw [Bool.not_eq_false] at hend
    exact htext.withBodyText_ne hend hbraced hsame
  · intro hend
    exact htext.withBodyText_withBodyText hend hbraced

def signs (text : String) : List Header.Piece := text.toList.map .sign

/-- A method whose header has braces and semicolons in an annotation, in a string and in
comments. -/
def annotatedMethod : Program :=
  (Program.empty.addSource ⟨"K.java"⟩
    "class K \x7b @A(\x7b1, \"\\\";\"\x7d) /* ; */ void k(char c) // \x7b\n throws E { } \x7d" .project).2

def annotatedHeader : List Header.Piece :=
  signs "@A(\x7b1, " ++ .quoted '"' ['\\', '"', ';'] :: signs "\x7d) " ++ .comment " ; ".toList ::
    signs " void k(char c) " ++
    .lineComment " \x7b".toList :: signs " throws E "

theorem replaceBody_replaceBody_annotatedMethod : ∃ q q' r,
    annotatedMethod.replaceBody ⟨0⟩ (some (.block default [])) "{ a(); }" = .ok q ∧
    q.replaceBody ⟨0⟩ none "" = .ok q' ∧
      annotatedMethod.replaceBody ⟨0⟩ none "" = .ok r ∧ ∃ twice once, q'.method? ⟨0⟩ = some twice ∧
        r.method? ⟨0⟩ = some once ∧
        once.text.toList = Text.trimBack (Header.chars annotatedHeader) ++ bodyChars none ∧
        twice.text = once.text := by
  obtain ⟨m, hm, htext⟩ := Option.map_eq_some_iff.mp
    (show (annotatedMethod.method? ⟨0⟩).map (·.text.toList) =
    some (Header.chars annotatedHeader ++ "{ }".toList) by decide +kernel)
  obtain ⟨q, q', r, hq, hq', hr, twice, once, htwice, honce, htrimmed, hsame⟩ :=
    replaceBody_replaceBody annotatedMethod ⟨0⟩ m annotatedHeader "{ }".toList
      (some (.block default [])) none "{ a(); }" ""
      hm ⟨htext, by decide +kernel, .inl rfl⟩ fun _ => ⟨" a(); ".toList, by decide⟩
  exact ⟨q, q', r, hq, hq', hr, twice, once, htwice, honce, htrimmed, hsame.mpr (by decide +kernel)⟩

/-- A method with a comment between its header and its body. -/
def commentedMethod : Program :=
  (Program.empty.addSource ⟨"K.java"⟩ "class K \x7b void k() // c\n { } \x7d" .project).2

/-- A method with a single quote in a text block. -/
def blockMethod : Program :=
  (Program.empty.addSource ⟨"K.java"⟩ "class K \x7b @A(\"\"\"\n\" \"\"\") void k() { } \x7d"
    .project).2

/-- The text of a method after edits of its body one after another. -/
def textAfter (p : Program) (id : MethodId) (sources : List String) : Option String :=
  (((sources.foldlM (fun (p : Program) source => p.replaceBody id (some (.block default [])) source)
    p).toOption).bind
    (·.method? id)).map (·.text)

/-- Trimming makes the comment in front of the body one that takes in the first body, so that the
second one is put behind it. Nor does the scanner find the end of a text block with a single quote
in it: both bodies are put behind the old one. -/
theorem lineComment_takes_body :
    commentedMethod.textAfter ⟨0⟩ [] = some "void k() // c\n { }" ∧
    commentedMethod.textAfter ⟨0⟩ ["{ b(); }"] = some "void k() // c { b(); }" ∧
    commentedMethod.textAfter ⟨0⟩ ["{ a(); }", "{ b(); }"] =
      some "void k() // c { a(); } { b(); }" ∧
    blockMethod.textAfter ⟨0⟩ ["{ b(); }"] = some "@A(\"\"\"\n\" \"\"\") void k() { } { b(); }" ∧
    blockMethod.textAfter ⟨0⟩ ["{ a(); }", "{ b(); }"] =
      some "@A(\"\"\"\n\" \"\"\") void k() { } { a(); } { b(); }" := by
  decide +kernel

end Program

end KernelLint
