/-!
# Reading positions

The unread part of a document with its line and column, and the character classes of the format.
-/

namespace KernelLint.Yaml

/-- Line ends: line feed, carriage return and the three others. -/
def isBreak (c : Char) : Bool :=
  c = '\n' || c = '\r' || c = '\x85' || c = '\u2028' || c = '\u2029'

def isSpaceTab (c : Char) : Bool := c = ' ' || c = '\t'

/-- Space, tab, a line end, or the end of the document. -/
def isGap : Option Char → Bool
  | none => true
  | some c => isSpaceTab c || isBreak c

/-- The unread characters and where they begin. -/
structure Cursor where
  rest : List Char
  line : Nat := 0
  column : Nat := 0
  /-- Characters read so far. -/
  index : Nat := 0
  deriving Inhabited

namespace Cursor

def peek (c : Cursor) : Option Char := c.rest.head?

/-- The character `n` places further on. -/
def peekAt (c : Cursor) (n : Nat) : Option Char := c.rest[n]?

def at? (c : Cursor) (x : Char) : Bool := c.peek = some x

/-- Pass one character that ends no line. -/
def skip (c : Cursor) : Cursor :=
  { c with rest := c.rest.tail, column := c.column + 1, index := c.index + 1 }

/-- Pass `n` characters that end no line. -/
def skipN (c : Cursor) (n : Nat) : Cursor :=
  { c with rest := c.rest.drop n, column := c.column + n, index := c.index + n }

/-- Pass one line end; a carriage return and a line feed are one. -/
def skipBreak (c : Cursor) : Cursor :=
  match c.rest with
  | '\r' :: '\n' :: rest => { rest, line := c.line + 1, column := 0, index := c.index + 2 }
  | _ :: rest => { rest, line := c.line + 1, column := 0, index := c.index + 1 }
  | [] => c

/-- What a line end stands for in the text of a scalar. -/
def breakText (c : Cursor) : List Char :=
  match c.peek with
  | some '\u2028' => ['\u2028']
  | some '\u2029' => ['\u2029']
  | _ => ['\n']

def atBreak (c : Cursor) : Bool := c.peek.any isBreak

def atBlank (c : Cursor) : Bool := c.peek.any isSpaceTab

def atGap (c : Cursor) : Bool := isGap c.peek

/-- Do three equal characters followed by a gap begin the line? -/
def atMarker (c : Cursor) (x : Char) : Bool :=
  c.column = 0 && c.rest.take 3 = [x, x, x] && isGap (c.peekAt 3)

/-- Does a document marker begin the line? -/
def atDocumentMarker (c : Cursor) : Bool := c.atMarker '-' || c.atMarker '.'

/-- Pass characters while a test holds; none of them may end a line. -/
def skipWhile (test : Char → Bool) : List Char → Cursor → Cursor
  | [], c => c
  | x :: xs, c => if test x then skipWhile test xs c.skip else c

def takeWhile (c : Cursor) (test : Char → Bool) : List Char × Cursor :=
  let taken := c.rest.takeWhile test
  (taken, c.skipN taken.length)

end Cursor

end KernelLint.Yaml
