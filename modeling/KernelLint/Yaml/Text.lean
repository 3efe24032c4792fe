import KernelLint.Yaml.Cursor

/-!
# Texts of scalars

Reading the four ways to write a scalar: plain, quoted, literal and folded. Each reader gives the
text and the position after it, or nothing when the writing is faulty. `fuel` is at least the number
of unread characters.
-/

namespace KernelLint.Yaml

/-- White space met inside a scalar and not yet known to belong to it. -/
structure Pending where
  /-- Spaces and tabs on the current line. -/
  spaces : List Char := []
  /-- The first line end. -/
  first : List Char := []
  /-- The line ends after it. -/
  more : List Char := []
  /-- Was a line end met? -/
  broken : Bool := false

namespace Pending

/-- What the white space stands for: a single line end becomes a space, each further one is kept. -/
def fold (p : Pending) : List Char :=
  if p.broken then
    if p.first = ['\n'] then (if p.more.isEmpty then [' '] else p.more) else p.first ++ p.more
  else p.spaces

def addBreak (p : Pending) (text : List Char) : Pending :=
  if p.broken then { p with more := p.more ++ text }
  else { p with spaces := [], first := text, broken := true }

end Pending

/-! ## Plain scalars -/

/-- Does an indicator end a plain scalar here? -/
def endsPlain (inFlow : Bool) (c : Cursor) : Bool :=
  match c.peek with
  | none => true
  | some x =>
    (x = ':' && isGap (c.peekAt 1))
      || (inFlow && (x = ',' || x = '[' || x = ']' || x = '{' || x = '}'))

/-- A colon that neither ends nor belongs to a plain scalar between brackets. -/
def strayColon (inFlow : Bool) (c : Cursor) : Bool :=
  inFlow && c.at? ':' && (c.peekAt 1).any fun x =>
    x = ',' || x = '?' || x = '[' || x = ']' || x = '{' || x = '}'

/-- The characters of a plain scalar up to the next gap. -/
def plainWord (inFlow : Bool) : Nat → Cursor → List Char → Option (List Char × Cursor)
  | 0, c, acc => some (acc, c)
  | fuel + 1, c, acc =>
    if c.atGap then some (acc, c)
    else if strayColon inFlow c then none
    else if endsPlain inFlow c then some (acc, c)
    else match c.peek with
      | none => some (acc, c)
      | some x => plainWord inFlow fuel c.skip (acc ++ [x])

/-- White space after a word of a plain scalar. A tab must not indent a continuation line. -/
def plainGap (indent : Nat) : Nat → Cursor → Pending → Option (Pending × Cursor)
  | 0, c, p => some (p, c)
  | fuel + 1, c, p =>
    match c.peek with
    | none => some (p, c)
    | some x =>
      if isSpaceTab x then
        if p.broken && c.column < indent && x = '\t' then none
        else plainGap indent fuel c.skip (if p.broken then p
          else { p with spaces := p.spaces ++ [x] })
      else if isBreak x then plainGap indent fuel c.skipBreak (p.addBreak c.breakText)
      else some (p, c)

/-- A plain scalar: its text, whether white space with a line end follows it, and the position after
it. -/
def plainText (inFlow : Bool) (indent : Nat) :
    Nat → Cursor → List Char → Pending → Option (List Char × Bool × Cursor)
  | 0, c, acc, p => some (acc, p.broken, c)
  | fuel + 1, c, acc, p =>
    if c.atDocumentMarker || c.at? '#' then some (acc, p.broken, c)
    else
      match plainWord inFlow (fuel + 1) c [] with
      | none => none
      | some (word, after) =>
        let stays := word.isEmpty
        let acc := if stays then acc else acc ++ p.fold ++ word
        let p := if stays then p else {}
        if !(after.atBlank || after.atBreak) then some (acc, p.broken, after)
        else
          match plainGap indent (fuel + 1) after p with
          | none => none
          | some (p, next) =>
            if !inFlow && next.column < indent then some (acc, p.broken, next)
            else plainText inFlow indent fuel next acc p

/-! ## Quoted scalars -/

def hexValue? (c : Char) : Option Nat :=
  if '0' ≤ c && c ≤ '9' then some (c.toNat - '0'.toNat)
  else if 'a' ≤ c && c ≤ 'f' then some (c.toNat - 'a'.toNat + 10)
  else if 'A' ≤ c && c ≤ 'F' then some (c.toNat - 'A'.toNat + 10)
  else none

def hexNumber? (cs : List Char) : Option Nat :=
  cs.foldl (fun acc c => acc.bind fun n => (hexValue? c).map (n * 16 + ·)) (some 0)

/-- A character by number, if there is one. -/
def charOf? (n : Nat) : Option Char :=
  if n < 0xD800 || (0xDFFF < n && n < 0x110000) then some (Char.ofNat n) else none

/-- The character an escape of one letter stands for. -/
def simpleEscape? : Char → Option Char
  | '0' => some '\x00'
  | 'a' => some '\x07'
  | 'b' => some '\x08'
  | 't' => some '\t'
  | '\t' => some '\t'
  | 'n' => some '\n'
  | 'v' => some '\x0b'
  | 'f' => some '\x0c'
  | 'r' => some '\r'
  | 'e' => some '\x1b'
  | ' ' => some ' '
  | '"' => some '"'
  | '/' => some '/'
  | '\\' => some '\\'
  | 'N' => some '\x85'
  | '_' => some '\xa0'
  | 'L' => some '\u2028'
  | 'P' => some '\u2029'
  | _ => none

/-- The number of digits after an escape that names a code point. -/
def escapeWidth? : Char → Option Nat
  | 'x' => some 2
  | 'u' => some 4
  | 'U' => some 8
  | _ => none

/-- The character an escape stands for and the position after it; the cursor is after the
backslash. -/
def escape? (c : Cursor) : Option (Char × Cursor) :=
  c.peek.bind fun x =>
    match simpleEscape? x with
    | some y => some (y, c.skip)
    | none =>
      (escapeWidth? x).bind fun width =>
        let digits := (c.rest.drop 1).take width
        if digits.length = width then
          ((hexNumber? digits).bind charOf?).map fun y => (y, c.skipN (width + 1))
        else none

/-- The characters of a quoted scalar up to the next gap or quote. The flag tells whether a line end
was escaped. -/
def quotedWord (double : Bool) : Nat → Cursor → List Char → Option (List Char × Bool × Cursor)
  | 0, _, _ => none
  | fuel + 1, c, acc =>
    match c.peek with
    | none => some (acc, false, c)
    | some x =>
      if isSpaceTab x || isBreak x then some (acc, false, c)
      else if !double then
        if x = '\'' then
          if c.peekAt 1 = some '\'' then quotedWord double fuel (c.skipN 2) (acc ++ ['\''])
          else some (acc, false, c)
        else quotedWord double fuel c.skip (acc ++ [x])
      else if x = '"' then some (acc, false, c)
      else if x = '\\' then
        if (c.peekAt 1).any isBreak then some (acc, true, c.skip.skipBreak)
        else match escape? c.skip with
          | none => none
          | some (y, next) => quotedWord double fuel next (acc ++ [y])
      else quotedWord double fuel c.skip (acc ++ [x])

/-- White space inside a quoted scalar. -/
def quotedGap : Nat → Cursor → Pending → Pending × Cursor
  | 0, c, p => (p, c)
  | fuel + 1, c, p =>
    match c.peek with
    | none => (p, c)
    | some x =>
      if isSpaceTab x then
        quotedGap fuel c.skip (if p.broken then p else { p with spaces := p.spaces ++ [x] })
      else if isBreak x then quotedGap fuel c.skipBreak (p.addBreak c.breakText)
      else (p, c)

/-- A quoted scalar; the cursor is after the opening quote. -/
def quotedText (double : Bool) : Nat → Cursor → List Char → Option (List Char × Cursor)
  | 0, _, _ => none
  | fuel + 1, c, acc =>
    if c.atDocumentMarker || c.peek.isNone then none
    else
      match quotedWord double (fuel + 1) c [] with
      | none => none
      | some (word, escaped, after) =>
        let acc := acc ++ word
        if after.at? (if double then '"' else '\'') then some (acc, after.skip)
        else
          let (p, next) := quotedGap (fuel + 1) after
            (if escaped then { broken := true, first := [] } else {})
          quotedText double fuel next (acc ++ p.fold)

/-! ## Block scalars -/

/-- What happens to the line ends after a block scalar. -/
inductive Chomp where
  | strip | clip | keep
  deriving DecidableEq

/-- The header of a block scalar: chomping and indentation marks in either order. -/
def blockHeader? (c : Cursor) : Option (Chomp × Nat × Cursor) :=
  let chomp? : Cursor → Option Chomp := fun c =>
    if c.at? '+' then some .keep else if c.at? '-' then some .strip else none
  let digit? : Cursor → Option Nat := fun c => c.peek.bind fun x =>
    if x.isDigit then some (x.toNat - '0'.toNat) else none
  match chomp? c with
  | some chomp =>
    match digit? c.skip with
    | some 0 => none
    | some n => some (chomp, n, c.skip.skip)
    | none => some (chomp, 0, c.skip)
  | none =>
    match digit? c with
    | some 0 => none
    | some n =>
      match chomp? c.skip with
      | some chomp => some (chomp, n, c.skip.skip)
      | none => some (.clip, n, c.skip)
    | none => some (.clip, 0, c)

/-- The rest of a header line: blanks and a comment, then a line end. -/
def headerEnd? (c : Cursor) : Option Cursor :=
  let c := Cursor.skipWhile isSpaceTab c.rest c
  let c := if c.at? '#' then Cursor.skipWhile (fun x => !isBreak x) c.rest c else c
  if c.peek.isNone then some c else if c.atBreak then some c.skipBreak else none

/-- Empty lines before a line of a block scalar: their line ends, the widest indentation seen and
the position. `indent` is zero while the indentation is still to be found. -/
def blockBreaks : Nat → Nat → Cursor → List Char → Nat → Option (List Char × Nat × Cursor)
  | 0, _, c, acc, widest => some (acc, widest, c)
  | fuel + 1, indent, c, acc, widest =>
    if (indent = 0 || c.column < indent) && c.at? ' ' then
      blockBreaks fuel indent c.skip acc (max widest (c.column + 1))
    else if (indent = 0 || c.column < indent) && c.at? '\t' then none
    else if c.atBreak then
      blockBreaks fuel indent c.skipBreak (acc ++ c.breakText) (max widest c.column)
    else some (acc, max widest c.column, c)

/-- What is known while the lines of a block scalar are read. -/
structure BlockState where
  text : List Char := []
  /-- The line end of the last line. -/
  first : List Char := []
  /-- The line ends of the empty lines after it. -/
  more : List Char := []
  /-- Did the last line begin with white space? -/
  ledBlank : Bool := false

def blockLines (literal : Bool) (indent : Nat) :
    Nat → Cursor → BlockState → Option (BlockState × Cursor)
  | 0, c, s => some (s, c)
  | fuel + 1, c, s =>
    if c.column ≠ indent || c.peek.isNone then some (s, c)
    else
      let blank := c.atBlank
      let joined :=
        if !literal && s.first = ['\n'] && !s.ledBlank && !blank then
          (if s.more.isEmpty then [' '] else []) ++ s.more
        else s.first ++ s.more
      let (line, after) := c.takeWhile fun x => !isBreak x
      let text := s.text ++ joined ++ line
      let (first, next) := if after.atBreak then (after.breakText, after.skipBreak) else ([], after)
      match blockBreaks (fuel + 1) indent next [] 0 with
      | none => none
      | some (more, _, next) =>
        blockLines literal indent fuel next { text, first, more, ledBlank := blank }

/-- A block scalar; the cursor is after its indicator and `outer` is the least column of the
surrounding block. -/
def blockText (literal : Bool) (outer : Nat) (c : Cursor) : Option (List Char × Cursor) :=
  (blockHeader? c).bind fun (chomp, increment, c) =>
    (headerEnd? c).bind fun c =>
      let fuel := c.rest.length + 1
      let given := if increment = 0 then 0 else (outer - 1) + increment
      (blockBreaks fuel given c [] 0).bind fun (breaks, widest, c) =>
        let indent := if given = 0 then max (max widest outer) 1 else given
        (blockLines literal indent fuel c { more := breaks }).map fun (s, c) =>
          let tail := match chomp with
            | .strip => []
            | .clip => s.first
            | .keep => s.first ++ s.more
          (s.text ++ tail, c)

end KernelLint.Yaml
