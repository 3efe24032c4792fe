import KernelLint.Text.Cut
import KernelLint.Yaml.Scalar
import KernelLint.Yaml.Text
import KernelLint.Yaml.Token

/-!
# Writing documents

Block style: mappings as `key: value` lines, sequences as dashes at the indentation of their key. A
text is written plain where it reads back as itself; otherwise it is quoted, and a text of several
lines becomes a literal block.
-/

namespace KernelLint.Yaml

/-- A value to be written. -/
inductive Value where
  | bool (b : Bool)
  | nat (n : Nat)
  | text (s : String)
  | texts (items : List String)
  | record (fields : List (String × Value))
  deriving Inhabited

/-! ## Choosing how to write a text -/

/-- May a character stand in a document as it is? -/
def isPrintable (c : Char) : Bool :=
  c = '\n' || (' ' ≤ c && c ≤ '~')
    || (0xA0 ≤ c.toNat && c.toNat ≠ 0xFEFF && c.toNat ≠ 0xFFFE && c.toNat ≠ 0xFFFF)

/-- What matters about the characters of a text. -/
structure Traits where
  /-- An indicator that keeps the text from being plain. -/
  indicator : Bool := false
  lineBreak : Bool := false
  /-- A character that has to be escaped. -/
  special : Bool := false
  /-- A space or line end at the front. -/
  leading : Bool := false
  trailingSpace : Bool := false
  trailingBreak : Bool := false
  /-- A space after a line end. -/
  breakSpace : Bool := false
  /-- A line end after a space. -/
  spaceBreak : Bool := false

/-- Is the first character an indicator, given what follows it? -/
def startsIndicator (c : Char) (next : Option Char) : Bool :=
  "#,[]{}&*!|>'\"%@`".toList.contains c || ((c = '?' || c = ':' || c = '-') && isGap next)

/-- Is a later character an indicator, given its neighbours? -/
def isInnerIndicator (c : Char) (previous next : Option Char) : Bool :=
  (c = ':' && isGap next) || (c = '#' && isGap previous)

/-- The traits of the characters after the first; `previous` is the one before. -/
def traitsFrom : Option Char → List Char → Traits → Traits
  | _, [], t => t
  | previous, c :: rest, t =>
    let atStart := previous.isNone
    let atEnd := rest.isEmpty
    let afterBreak := previous.any isBreak
    let afterSpace := previous = some ' '
    let indicator :=
      if atStart then startsIndicator c rest.head? else isInnerIndicator c previous rest.head?
    traitsFrom (some c) rest {
      indicator := t.indicator || indicator
      lineBreak := t.lineBreak || isBreak c
      special := t.special || !isPrintable c
      leading := t.leading || (atStart && (c = ' ' || isBreak c))
      trailingSpace := t.trailingSpace || (atEnd && c = ' ')
      trailingBreak := t.trailingBreak || (atEnd && isBreak c)
      breakSpace := t.breakSpace || (c = ' ' && afterBreak)
      spaceBreak := t.spaceBreak || (isBreak c && afterSpace) }

def traits (cs : List Char) : Traits :=
  let t := traitsFrom none cs {}
  let marker := cs.take 3 = ['-', '-', '-'] || cs.take 3 = ['.', '.', '.']
  { t with indicator := t.indicator || marker }

namespace Traits

def allowsPlain (t : Traits) : Bool :=
  !(t.leading || t.trailingSpace || t.trailingBreak || t.breakSpace || t.spaceBreak || t.special
    || t.lineBreak || t.indicator)

def allowsSingle (t : Traits) : Bool := !(t.breakSpace || t.spaceBreak || t.special)

def allowsBlock (t : Traits) : Bool := !(t.trailingSpace || t.spaceBreak || t.special)

end Traits

def styleOf (s : String) : Style :=
  let t := traits s.toList
  let single := if t.allowsSingle then Style.singleQuoted else .doubleQuoted
  if s.toList.contains '\n' then (if t.allowsBlock then .literal else .doubleQuoted)
  else if isPlainNonString s || isPaddedNumber s.toList then single
  else if t.allowsPlain then .plain
  else single

/-! ## Writing a text -/

def pad (n : Nat) : List Char := List.replicate n ' '

/-- A text between single quotes; after a line end it goes on at the indentation. -/
def singleChars (indent : Nat) : Bool → List Char → List Char
  | broken, [] => if broken then pad indent else []
  | broken, c :: rest =>
    if isBreak c then c :: singleChars indent true rest
    else
      (if broken then pad indent else [])
        ++ (if c = '\'' then ['\'', '\''] else [c]) ++ singleChars indent false rest

/-- A number in hexadecimal with a fixed number of digits. -/
def hexDigits : Nat → Nat → List Char
  | 0, _ => []
  | width + 1, n =>
    hexDigits width (n / 16) ++ ["0123456789ABCDEF".toList.getD (n % 16) '0']

def escapeOf (c : Char) : List Char :=
  match c with
  | '\x00' => ['0']
  | '\x07' => ['a']
  | '\x08' => ['b']
  | '\t' => ['t']
  | '\n' => ['n']
  | '\x0b' => ['v']
  | '\x0c' => ['f']
  | '\r' => ['r']
  | '\x1b' => ['e']
  | '"' => ['"']
  | '\\' => ['\\']
  | '\x85' => ['N']
  | '\u2028' => ['L']
  | '\u2029' => ['P']
  | _ =>
    if c.toNat ≤ 0xFF then 'x' :: hexDigits 2 c.toNat
    else if c.toNat ≤ 0xFFFF then 'u' :: hexDigits 4 c.toNat
    else 'U' :: hexDigits 8 c.toNat

/-- A character between double quotes. -/
def doubleChar (c : Char) : List Char :=
  if !isPrintable c || isBreak c || c = '"' || c = '\\' then '\\' :: escapeOf c else [c]

/-- The lines of a literal block. -/
def literalChars (indent : Nat) : Bool → List Char → List Char
  | _, [] => []
  | broken, c :: rest =>
    if isBreak c then c :: literalChars indent true rest
    else (if broken then pad indent else []) ++ c :: literalChars indent false rest

/-- The marks of a literal block: its indentation when it begins with white space, and what becomes
of the line ends after it. -/
def literalHints (cs : List Char) : List Char :=
  let indentation := match cs with
    | c :: _ => if c = ' ' || isBreak c then ['2'] else []
    | [] => []
  let chomping := match cs.reverse with
    | [] => ['-']
    | [c] => if isBreak c then ['+'] else ['-']
    | c :: d :: _ => if !isBreak c then ['-'] else if isBreak d then ['+'] else []
  indentation ++ chomping

/-- A text as it stands in a document, with the line end after it. -/
def textChars (indent : Nat) (s : String) : List Char :=
  let cs := s.toList
  match styleOf s with
  | .plain => cs ++ ['\n']
  | .singleQuoted => '\'' :: singleChars indent false cs ++ ['\'', '\n']
  | .doubleQuoted => '"' :: cs.flatMap doubleChar ++ ['"', '\n']
  | _ =>
    let ends := cs.getLast?.any isBreak
    '|' :: literalHints cs ++ ['\n'] ++ literalChars indent true cs ++ (if ends then [] else ['\n'])

/-- The dashes of a sequence. -/
def itemChars (indent : Nat) (items : List String) : List Char :=
  items.flatMap fun s => pad indent ++ ['-', ' '] ++ textChars (indent + 2) s

mutual

/-- What stands after the colon of a key. -/
def valueChars (indent : Nat) : Value → List Char
  | .bool b => (if b then " true\n" else " false\n").toList
  | .nat n => ' ' :: (toString n).toList ++ ['\n']
  | .text s => ' ' :: textChars (indent + 2) s
  | .texts items => if items.isEmpty then " []\n".toList else '\n' :: itemChars indent items
  | .record fields =>
    if fields.isEmpty then " \x7b\x7d\n".toList else '\n' :: fieldChars (indent + 2) fields

/-- The lines of a mapping. -/
def fieldChars (indent : Nat) : List (String × Value) → List Char
  | [] => []
  | (key, value) :: rest =>
    pad indent ++ key.toList ++ ':' :: valueChars indent value ++ fieldChars indent rest

end

/-- A document with a mapping at its root; the keys are plain. -/
def render (fields : List (String × Value)) : String :=
  String.ofList (fieldChars 0 fields)

end KernelLint.Yaml
