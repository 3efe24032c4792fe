import KernelLint.Java.Token
import KernelLint.Text.Cut
import KernelLint.Text.IdentifierChar

/-!
# The shapes of tokens

How many characters at the front of a text belong together: gaps, words, numbers, quoted literals
and marks. Every function answers a length; the text itself is cut elsewhere.
-/

namespace KernelLint.Java.Lexeme

/-! ## Gaps -/

def isSpace (c : Char) : Bool := c = ' ' || (9 ≤ c.toNat && c.toNat ≤ 13)

/-- The length of a block comment after its opening, closing included. -/
def blockComment? : List Char → Option Nat
  | '*' :: '/' :: _ => some 2
  | _ :: rest => (blockComment? rest).map (· + 1)
  | [] => none

def comment : List Char → Nat
  | '/' :: '/' :: rest => 2 + (rest.takeWhile (· ≠ '\n')).length
  | '/' :: '*' :: rest => ((blockComment? rest).map (· + 2)).getD 0
  | _ => 0

/-- The length of one white space character or one comment. -/
def gapPiece (cs : List Char) : Nat :=
  if cs.head?.any isSpace then 1 else comment cs

/-- The length of all white space and comments at the front. -/
def gap : Nat → List Char → Nat
  | 0, _ => 0
  | fuel + 1, cs =>
    match gapPiece cs with
    | 0 => 0
    | n => n + gap fuel (cs.drop n)

/-! ## Shapes

A shape lists the lengths of all texts of one form at the front of some characters. -/

/-- The lengths of the texts of one form. -/
abbrev Shape := List Char → List Nat

/-- Nothing, or a text of the form. -/
def optional (a : Shape) : Shape := fun cs => 0 :: a cs

/-- A text of one form and behind it one of another. -/
def both (a b : Shape) : Shape := fun cs =>
  (a cs).flatMap fun n => (b (cs.drop n)).map (n + ·)

def oneOf (shapes : List Shape) : Shape := fun cs => shapes.flatMap (· cs)

/-- Texts of several forms one behind the other. -/
def all : List Shape → Shape
  | [] => fun _ => [0]
  | a :: rest => both a (all rest)

/-- One character among the given ones. -/
def among (choices : String) : Shape := fun cs =>
  if cs.head?.any choices.toList.contains then [1] else []

/-- A run of characters of which every part that is long enough to satisfy a test counts. -/
def run (isPart : Char → Bool) (test : List Char → Bool) : Shape := fun cs =>
  let longest := (cs.takeWhile isPart).length
  ((List.range longest).map (· + 1)).filter fun n => test (cs.take n)

def longest (lengths : List Nat) : Nat := lengths.foldl max 0

/-! ## Numbers -/

/-- Is there an underscore next to another one? -/
def hasDoubleUnderscore : List Char → Bool
  | '_' :: '_' :: _ => true
  | _ :: rest => hasDoubleUnderscore rest
  | [] => false

/-- Digits with single underscores between them. -/
def digits (isDigit : Char → Bool) : Shape :=
  run (fun c => isDigit c || c = '_') fun ds =>
    ds.head?.any isDigit && ds.getLast?.any isDigit && !hasDoubleUnderscore ds

/-- A whole number of base ten: zero, or digits that begin with no zero. There may be several
underscores between two digits, but not behind the first. -/
def wholeNumber : Shape :=
  run (fun c => c.isDigit || c = '_') fun ds =>
    ds = ['0'] || (ds.head?.any (fun c => c.isDigit && c ≠ '0') && ds.getLast?.any Char.isDigit &&
      !(['_', '_'].isPrefixOf (ds.drop 1)))

def isBinaryDigit (c : Char) : Bool := c = '0' || c = '1'

def isOctalDigit (c : Char) : Bool := '0' ≤ c && c ≤ '7'

def isHexDigit (c : Char) : Bool :=
  c.isDigit || ('a' ≤ c && c ≤ 'f') || ('A' ≤ c && c ≤ 'F')

/-- Zero and a letter that tells the base. -/
def base (letters : String) : Shape := both (among "0") (among letters)

/-- An integer without suffix. -/
def integer : Shape :=
  oneOf [wholeNumber, both (base "xX") (digits isHexDigit),
    both (oneOf [base "oO", among "0"]) (digits isOctalDigit),
    both (base "bB") (digits isBinaryDigit)]

def exponent (letters : String) (power : Shape) : Shape :=
  all [among letters, optional (among "+-"), power]

/-- The letters that tell the sort of a number with a fraction. -/
def realSuffix : Shape := among "fFdD"

/-- A number of base ten with a fraction, an exponent or a suffix. -/
def decimalReal : Shape :=
  let decimal := digits Char.isDigit
  let power := exponent "eE" decimal
  oneOf [all [decimal, among ".", optional decimal, optional power, optional realSuffix],
    all [among ".", decimal, optional power, optional realSuffix],
    all [wholeNumber, exponent "eEpP" decimal, optional realSuffix],
    all [wholeNumber, optional power, realSuffix]]

/-- A number of base sixteen with a fraction or an exponent. Behind `e` the exponent is one as well,
so that `0x1e+2` is a single number. -/
def hexReal : Shape :=
  let hex := digits isHexDigit
  all [base "xX",
    oneOf [both hex (optional (among ".")), all [optional hex, among ".", hex]],
    optional (both (exponent "eEpP" wholeNumber) (optional realSuffix))]

/-- The sort of a number of some length. -/
def realKind (cs : List Char) : Literal :=
  if cs.getLast?.any "fF".toList.contains then .float else .double

/-- A number: the longest text that is one, an integer before any other. -/
def number (cs : List Char) : TokenKind × Nat :=
  let whole := longest (both integer (optional (among "lL")) cs)
  let real := longest (oneOf [decimalReal, hexReal] cs)
  if whole < real then (.literal (realKind (cs.take real)), real)
  else
    (.literal (if (cs.take whole).getLast?.any "lL".toList.contains then .long else .int), whole)

/-! ## Quoted literals -/

/-- The length of a character literal after its opening quote. -/
def charLiteral? : List Char → Option Nat
  | '\'' :: _ => some 1
  | '\\' :: _ :: rest => (charLiteral? rest).map (· + 2)
  | '\n' :: _ => none
  | _ :: rest => (charLiteral? rest).map (· + 1)
  | [] => none

/-- What surrounds a character inside a string. -/
inductive Nesting where
  /-- The text of a string between single quotes. -/
  | line
  /-- The text of a string between triple quotes; `front` holds until the first character that is no
  white space, and again behind each escape and each embedded expression. -/
  | block (front : Bool)
  /-- An embedded expression. -/
  | embedded
  /-- A character literal in an embedded expression. -/
  | character
  /-- A comment up to the end of the line. -/
  | lineComment
  /-- A comment between marks. -/
  | blockComment
  deriving DecidableEq

/-- The length of the letters and digits of an escape after its backslash, if there is such an
escape. -/
def escape? : List Char → Option Nat
  | [] => none
  | 'x' :: rest => if (rest.take 2).countP isHexDigit = 2 then some 3 else none
  | 'u' :: '\x7b' :: rest =>
    let hex := (rest.takeWhile isHexDigit).length
    if 0 < hex && (rest.drop hex).head? = some '\x7d' then some (hex + 3) else none
  | 'u' :: rest => if (rest.take 4).countP isHexDigit = 4 then some 5 else none
  | _ => some 1

/-- Does a comment begin here that hides a quote or a backslash? At the front of a text block such a
comment is passed over. -/
def hidesQuote (cs : List Char) : Bool :=
  (cs.take (comment cs)).any fun c => c = '"' || c = '\\'

/-- The length up to the end of a string, given the nestings that are open, innermost first. -/
def string? : List Nesting → List Char → Option Nat
  | [], _ => some 0
  | .lineComment :: outer, '\n' :: rest => (string? outer rest).map (· + 1)
  | _, [] => none
  | .line :: outer, '"' :: rest => (string? outer rest).map (· + 1)
  | .line :: outer, '\\' :: '\x7b' :: rest =>
    (string? (.embedded :: .line :: outer) rest).map (· + 2)
  | .line :: outer, '\\' :: c :: rest =>
    if (escape? (c :: rest)).isSome then (string? (.line :: outer) rest).map (· + 2) else none
  | .line :: outer, _ :: rest => (string? (.line :: outer) rest).map (· + 1)
  | .block _ :: outer, '"' :: '"' :: '"' :: rest => (string? outer rest).map (· + 3)
  | .block _ :: outer, '\\' :: '\x7b' :: rest =>
    (string? (.embedded :: .block true :: outer) rest).map (· + 2)
  | .block _ :: outer, '\\' :: _ :: rest => (string? (.block true :: outer) rest).map (· + 2)
  | .block true :: outer, '/' :: '/' :: rest =>
    let inner := if hidesQuote ('/' :: '/' :: rest) then [.lineComment, .block true]
      else [.block false]
    (string? (inner ++ outer) rest).map (· + 2)
  | .block true :: outer, '/' :: '*' :: rest =>
    let inner := if hidesQuote ('/' :: '*' :: rest) then [.blockComment, .block true]
      else [.block false]
    (string? (inner ++ outer) rest).map (· + 2)
  | .block front :: outer, c :: rest =>
    (string? (.block (front && isSpace c) :: outer) rest).map (· + 1)
  | .embedded :: outer, '\x7d' :: rest => (string? outer rest).map (· + 1)
  | .embedded :: outer, '\x7b' :: rest =>
      (string? (.embedded :: .embedded :: outer) rest).map (· + 1)
  | .embedded :: outer, '"' :: '"' :: '"' :: rest =>
    (string? (.block true :: .embedded :: outer) rest).map (· + 3)
  | .embedded :: outer, '"' :: rest => (string? (.line :: .embedded :: outer) rest).map (· + 1)
  | .embedded :: outer, '\'' :: rest =>
      (string? (.character :: .embedded :: outer) rest).map (· + 1)
  | .embedded :: outer, '/' :: '/' :: rest =>
    (string? (.lineComment :: .embedded :: outer) rest).map (· + 2)
  | .embedded :: outer, '/' :: '*' :: rest =>
    (string? (.blockComment :: .embedded :: outer) rest).map (· + 2)
  | .embedded :: outer, _ :: rest => (string? (.embedded :: outer) rest).map (· + 1)
  | .character :: outer, '\'' :: rest => (string? outer rest).map (· + 1)
  | .character :: outer, '\\' :: _ :: rest => (string? (.character :: outer) rest).map (· + 2)
  | .character :: outer, _ :: rest => (string? (.character :: outer) rest).map (· + 1)
  | .lineComment :: outer, _ :: rest => (string? (.lineComment :: outer) rest).map (· + 1)
  | .blockComment :: outer, '*' :: '/' :: rest => (string? outer rest).map (· + 2)
  | .blockComment :: outer, _ :: rest => (string? (.blockComment :: outer) rest).map (· + 1)

/-- The rest of a line, for a literal that does not end. -/
def restOfLine (cs : List Char) : Nat := (cs.takeWhile (· ≠ '\n')).length

/-- A string literal or text block. -/
def stringLiteral (cs : List Char) : TokenKind × Nat :=
  let length := match cs with
    | '"' :: '"' :: '"' :: rest => (string? [.block true] rest).map (· + 3)
    | _ => (string? [.line] (cs.drop 1)).map (· + 1)
  match length with
  | some n => (.literal .string, n)
  | none => (.unknown, restOfLine cs)

/-! ## Words and marks -/

/-- The marks of more than one character, longer ones first. The mark `>` always stands alone, since
it also closes type arguments. -/
def longMarks : List (List Char) :=
  ["<<=", "...", "==", "!=", "<=", "&&", "||", "++", "--", "+=", "-=", "*=", "/=", "&=",
   "|=", "^=", "%=", "<<", "->", "::"].map String.toList

def shortMarks : List Char := "()[]\x7b\x7d;,.@=<>!~?:+-*/&|^%".toList

/-- Sort and length of the token at the front of a text that begins with no gap. -/
def token : List Char → TokenKind × Nat
  | [] => (.unknown, 0)
  | c :: rest =>
    if Text.isIdentifierStart c then (.word, 1 + (rest.takeWhile Text.isIdentifierPart).length)
    else if c.isDigit || (c = '.' && rest.head?.any Char.isDigit) then number (c :: rest)
    else if c = '"' then stringLiteral (c :: rest)
    else if c = '\'' then
      match charLiteral? rest with
      | some n => if n = 1 then (.unknown, 1) else (.literal .char, n + 1)
      | none => (.unknown, 1)
    else match longMarks.find? (·.isPrefixOf (c :: rest)) with
      | some m => (.mark, m.length)
      | none => if shortMarks.contains c then (.mark, 1) else (.unknown, 1)

end KernelLint.Java.Lexeme
