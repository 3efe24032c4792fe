import KernelLint.Yaml.Scalar
import KernelLint.Yaml.Text
import KernelLint.Yaml.Token
import KernelLint.Yaml.Uri

/-!
# From text to tokens

A document is read token by token. Whether a scalar is a key shows only at the colon after it, so
the place before every token that might begin a key is remembered, and the key token is put there
when the colon comes.
-/

namespace KernelLint.Yaml

/-- A place where a key may have begun. -/
structure KeyPlace where
  /-- Must it be a key, because it begins a line of a block mapping? -/
  required : Bool
  /-- The number of tokens before it. -/
  number : Nat
  line : Nat
  column : Nat
  index : Nat

/-- The state of the reader. -/
structure Lexer where
  cursor : Cursor
  /-- The least column of the current block's content; zero outside of any block. -/
  indent : Nat := 0
  /-- The same for the blocks around it. -/
  indents : List Nat := []
  /-- May a key begin here? -/
  keyAllowed : Bool := true
  /-- The place of a possible key at this nesting of brackets. -/
  place : Option KeyPlace := none
  /-- The places at the nestings around it. -/
  places : List (Option KeyPlace) := []
  tokens : Array Token := #[]

namespace Lexer

/-- Is the reader between brackets? -/
def inFlow (l : Lexer) : Bool := !l.places.isEmpty

def emit (l : Lexer) (t : Token) : Lexer := { l with tokens := l.tokens.push t }

/-- Put a token in front of the token of the given number. -/
def insert (l : Lexer) (number : Nat) (t : Token) : Lexer :=
  { l with tokens := l.tokens.insertIdxIfInBounds number t }

def goTo (l : Lexer) (c : Cursor) : Lexer := { l with cursor := c }

/-! ## Indentation -/

/-- Close the blocks that are indented further than a least column. -/
def closeBlocks (least : Nat) : List Nat → Lexer → Lexer
  | [], l => if least < l.indent then { l.emit .blockEnd with indent := 0 } else l
  | outer :: rest, l =>
    if least < l.indent then closeBlocks least rest
      { l.emit .blockEnd with indent := outer, indents := rest }
    else l

/-- Close blocks down to a column; brackets ignore indentation. -/
def unroll (l : Lexer) (least : Nat) : Lexer :=
  if l.inFlow then l else closeBlocks least l.indents l

/-- Open a block at a column unless one that deep is open; its start goes before token `number`. -/
def roll (l : Lexer) (column number : Nat) (t : Token) : Lexer :=
  if l.inFlow || column + 1 ≤ l.indent then l
  else { l.insert number t with indent := column + 1, indents := l.indent :: l.indents }

/-! ## Possible keys -/

/-- Give up a possible key; one that had to be a key is a fault. -/
def dropPlace (l : Lexer) : Option Lexer :=
  if l.place.any (·.required) then none else some { l with place := none }

/-- Remember that a key may begin at the cursor. -/
def savePlace (l : Lexer) : Option Lexer :=
  if l.keyAllowed then
    (dropPlace l).map fun l =>
      let c := l.cursor
      { l with place := some {
          required := !l.inFlow && l.indent = c.column + 1
          number := l.tokens.size, line := c.line, column := c.column, index := c.index } }
  else some l

/-- Has a possible key come too far? A key and its colon are on one line and at most 1024 characters
apart. -/
def KeyPlace.stale (k : KeyPlace) (c : Cursor) : Bool :=
  k.line < c.line || k.index + 1024 < c.index

/-- Give up stale keys at every nesting. -/
def dropStale (l : Lexer) : Option Lexer :=
  let stale (k : Option KeyPlace) : Bool := k.any fun k => KeyPlace.stale k l.cursor
  if (l.place :: l.places).any fun k => stale k && k.any (·.required) then none
  else some { l with
    place := if stale l.place then none else l.place
    places := l.places.map fun k => if stale k then none else k }

/-! ## Gaps between tokens -/

/-- Pass blanks, comments and line ends. A byte order mark at the very front takes up a column. -/
def skipGap : Nat → Lexer → Lexer
  | 0, l => l
  | fuel + 1, l =>
    let c := l.cursor
    match c.peek with
    | none => l
    | some x =>
      if (x = '\ufeff' && c.index = 0) || x = ' ' || (x = '\t' && (l.inFlow || !l.keyAllowed)) then
        skipGap fuel (l.goTo c.skip)
      else if x = '#' then skipGap fuel (l.goTo (Cursor.skipWhile (fun y => !isBreak y) c.rest c))
      else if isBreak x then
        skipGap fuel { l.goTo c.skipBreak with keyAllowed := l.keyAllowed || !l.inFlow }
      else l

/-! ## Tokens -/

/-- Characters of the names of anchors, aliases, tag handles and directives. -/
def isWordChar (c : Char) : Bool := c.isAlphanum || c = '_' || c = '-'

/-- May this follow the name of an anchor or alias? -/
def endsName (c : Cursor) : Bool :=
  c.atGap || c.peek.any fun x =>
    x = '?' || x = ':' || x = ',' || x = ']' || x = '}' || x = '%' || x = '@' || x = '`'

/-- An anchor or alias. -/
def lexName (l : Lexer) (make : String → Token) : Option Lexer :=
  let (name, after) := l.cursor.skip.takeWhile isWordChar
  if name.isEmpty || !endsName after then none
  else some ((l.goTo after).emit (make (String.ofList name)))

def isTagChar (c : Char) : Bool :=
  isWordChar c || ";/?:@&=+$.!~*'()%".toList.contains c

/-- Characters of a tag between angle brackets. -/
def isUriChar (c : Char) : Bool := isTagChar c || c = ',' || c = '[' || c = ']'

/-- A tag: verbatim, with a handle, or local. -/
def lexTag (l : Lexer) : Option Lexer :=
  let c := l.cursor
  let done (handle suffix : List Char) (after : Cursor) : Option Lexer :=
    if after.atGap || (l.inFlow && after.at? ',') then
      (uriText? suffix).map fun suffix => (l.goTo after).emit (.tag (String.ofList handle) suffix)
    else none
  if c.peekAt 1 = some '<' then
    let (uri, after) := (c.skipN 2).takeWhile isUriChar
    if uri.isEmpty || !after.at? '>' then none else done [] uri after.skip
  else
    let (word, after) := c.skip.takeWhile isWordChar
    if after.at? '!' then
      let (suffix, after) := after.skip.takeWhile isTagChar
      if suffix.isEmpty then none else done ('!' :: word ++ ['!']) suffix after
    else
      let (suffix, after) := c.skip.takeWhile isTagChar
      if suffix.isEmpty then done [] ['!'] after else done ['!'] suffix after

/-- The version a directive names: two numbers of at most nine digits with a point between them. -/
def lexVersion (c : Cursor) : Option (Token × Cursor) :=
  let (major, point) := c.takeWhile Char.isDigit
  let (minor, after) := point.skip.takeWhile Char.isDigit
  if major.length ≤ 9 && minor.length ≤ 9 && point.at? '.' then
    (digits? 10 major).bind fun m => (digits? 10 minor).map fun n => (.version m n, after)
  else none

/-- The handle a directive explains and what it stands for. -/
def lexHandle (c : Cursor) : Option (Token × Cursor) :=
  let (word, close) := c.skip.takeWhile isWordChar
  let after := if close.at? '!' then close.skip else close
  let start := Cursor.skipWhile isSpaceTab after.rest after
  let (uri, stop) := start.takeWhile isUriChar
  if c.at? '!' && (close.at? '!' || word.isEmpty) && after.atBlank && !uri.isEmpty &&
    stop.atGap then
    let name := if close.at? '!' then '!' :: word ++ ['!'] else ['!']
    (uriText? uri).map fun uri => (.handle (String.ofList name) uri, stop)
  else none

def lexDirective (l : Lexer) : Option Lexer :=
  let (name, after) := l.cursor.skip.takeWhile isWordChar
  let start := Cursor.skipWhile isSpaceTab after.rest after
  let read :=
    if !after.atGap then none
    else if name = "YAML".toList then lexVersion start
    else if name = "TAG".toList then lexHandle start
    else none
  read.bind fun (token, c) => (headerEnd? c).map fun c => (l.goTo c).emit token

/-- A colon after a key, or one that begins a value without a key. -/
def lexValue (l : Lexer) : Option Lexer :=
  let start := l.cursor
  let ready : Option Lexer :=
    match l.place with
    | some k =>
      let l := (l.insert k.number .key).roll k.column k.number .blockMapStart
      some { l with place := none, keyAllowed := false }
    | none =>
      if l.inFlow then some { l with keyAllowed := false }
      else if !l.keyAllowed then none
      else some { l.roll start.column l.tokens.size .blockMapStart with keyAllowed := true }
  ready.map fun l => (l.goTo start.skip).emit .value

/-- Can a plain scalar begin here? -/
def startsPlain (l : Lexer) : Bool :=
  match l.cursor.peek with
  | none => false
  | some x =>
    let next := l.cursor.peekAt 1
    !(isGap (some x) || "-?:,[]{}#&*!|>'\"%@`".toList.contains x)
      || (x = '-' && !next.any isSpaceTab)
      || (!l.inFlow && (x = '?' || x = ':') && !isGap next)

/-- Read one token; the cursor is at its first character. -/
def lexToken (l : Lexer) (x : Char) : Option Lexer :=
  let c := l.cursor
  let fuel := c.rest.length + 1
  let next := c.peekAt 1
  let text (cs : List Char) := String.ofList cs
  if c.column = 0 && x = '%' then
    (l.unroll 0).dropPlace.bind fun l => { l with keyAllowed := false }.lexDirective
  else if c.atDocumentMarker then
    (l.unroll 0).dropPlace.map fun l =>
      ({ l with keyAllowed := false }.goTo (c.skipN 3)).emit
        (if x = '-' then .documentStart else .documentEnd)
  else if x = '[' || x = '{' then
    l.savePlace.map fun l =>
      { (l.goTo c.skip).emit (if x = '[' then .flowSeqStart else .flowMapStart) with
        places := l.place :: l.places, place := none, keyAllowed := true }
  else if x = ']' || x = '}' then
    l.dropPlace.map fun l =>
      { (l.goTo c.skip).emit (if x = ']' then .flowSeqEnd else .flowMapEnd) with
        place := l.places.head?.join, places := l.places.tail, keyAllowed := false }
  else if x = ',' then
    l.dropPlace.map fun l => { (l.goTo c.skip).emit .comma with keyAllowed := true }
  else if x = '-' && isGap next then
    if !l.inFlow && !l.keyAllowed then none
    else (l.roll c.column l.tokens.size .blockSeqStart).dropPlace.map fun l =>
      { (l.goTo c.skip).emit .item with keyAllowed := true }
  else if x = '?' && (l.inFlow || isGap next) then
    if !l.inFlow && !l.keyAllowed then none
    else (l.roll c.column l.tokens.size .blockMapStart).dropPlace.map fun l =>
      { (l.goTo c.skip).emit .key with keyAllowed := !l.inFlow }
  else if x = ':' && (l.inFlow || isGap next) then l.lexValue
  else if x = '*' then
    l.savePlace.bind fun l => { l with keyAllowed := false }.lexName .alias
  else if x = '&' then
    l.savePlace.bind fun l => { l with keyAllowed := false }.lexName .anchor
  else if x = '!' then
    l.savePlace.bind fun l => { l with keyAllowed := false }.lexTag
  else if (x = '|' || x = '>') && !l.inFlow then
    l.dropPlace.bind fun l =>
      (blockText (x = '|') l.indent c.skip).map fun (cs, after) =>
        { (l.goTo after).emit (.scalar (if x = '|' then .literal else .folded) (text cs)) with
          keyAllowed := true }
  else if x = '\'' || x = '"' then
    l.savePlace.bind fun l =>
      (quotedText (x = '"') fuel c.skip []).map fun (cs, after) =>
        { (l.goTo after).emit
            (.scalar (if x = '"' then .doubleQuoted else .singleQuoted) (text cs)) with
          keyAllowed := false }
  else if l.startsPlain then
    l.savePlace.bind fun l =>
      (plainText l.inFlow l.indent fuel c [] {}).map fun (cs, broken, after) =>
        { (l.goTo after).emit (.scalar .plain (text cs)) with keyAllowed := broken }
  else none

def run : Nat → Lexer → Option (Array Token)
  | 0, _ => none
  | fuel + 1, l =>
    ((skipGap (l.cursor.rest.length + 1) l).dropStale).bind fun l =>
      match l.cursor.peek with
      | none => (l.unroll 0).dropPlace.map (·.tokens)
      | some x => ((l.unroll (l.cursor.column + 1)).lexToken x).bind (run fuel)

end Lexer

/-- May a character stand in a document at all? Control characters other than tabs and line ends may
not. -/
def isAllowed (c : Char) : Bool :=
  c = '\t' || c = '\n' || c = '\r' || c = '\x85' || (' ' ≤ c && c ≤ '~')
    || (0xA0 ≤ c.toNat && c.toNat ≠ 0xFFFE && c.toNat ≠ 0xFFFF)

/-- The tokens of a document, or nothing when its text is faulty. -/
def tokens? (text : String) : Option (List Token) :=
  let cs := text.toList
  if cs.all isAllowed then ({ cursor := { rest := cs } : Lexer }.run (cs.length + 2)).map
    Array.toList
  else none

end KernelLint.Yaml
