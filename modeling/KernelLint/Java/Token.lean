import KernelLint.Source.Span
import KernelLint.Syntax.Basic

/-!
# Tokens

The words a source text is made of. A token remembers the white space and the comments in front of
it, so that the text of any run of tokens can be put together again.
-/

namespace KernelLint.Java

inductive TokenKind where
  /-- A keyword or an identifier. -/
  | word
  | literal (kind : Literal)
  /-- An operator or a separator. -/
  | mark
  /-- A character that begins no token, or a literal that does not end. -/
  | unknown
  deriving DecidableEq, Inhabited

/-- A token with its place and the gap before it. -/
structure Token where
  kind : TokenKind
  /-- White space and comments between the previous token and this one. -/
  gap : String := ""
  text : String
  span : Span := {}
  deriving DecidableEq, Inhabited

namespace Token

/-- Does the token follow its predecessor without a gap? -/
def isGlued (t : Token) : Bool := t.gap.isEmpty

/-- Is it a word or a mark of that text? -/
def is (t : Token) (text : String) : Bool :=
  (t.kind = .word || t.kind = .mark) && t.text = text

/-- Two neighbouring tokens as one mark. -/
def join (a b : Token) : Token :=
  { kind := a.kind, gap := a.gap, text := a.text ++ b.gap ++ b.text
    span := ⟨a.span.startLine, a.span.startCol, b.span.endLine, b.span.endCol⟩ }

/-- Is it a word that names something in a place where only the given words are keywords? -/
def isName (t : Token) (keywords : List String) : Bool :=
  t.kind = .word && !keywords.contains t.text

/-- The front of a word as a token of its own, and what is left of the word. -/
def split? (t : Token) (front : String) : Option (Token × Option Token) :=
  if t.kind = .word && front.toList.isPrefixOf t.text.toList then
    let column := t.span.startCol + front.utf8ByteSize
    let rest := String.ofList (t.text.toList.drop front.length)
    some ({ t with text := front, span := { t.span with endCol := column } },
      if rest.isEmpty then none
      else some { t with gap := "", text := rest, span := { t.span with startCol := column } })
  else none

/-- The text of a run of tokens, without the gap before the first. -/
def textOf : List Token → String
  | [] => ""
  | t :: rest => t.text ++ String.join (rest.map fun u => u.gap ++ u.text)

def spanOf : List Token → Span
  | [] => {}
  | t :: rest =>
    let last := rest.getLastD t
    ⟨t.span.startLine, t.span.startCol, last.span.endLine, last.span.endCol⟩

end Token

end KernelLint.Java
