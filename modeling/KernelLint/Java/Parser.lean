import KernelLint.Java.Tree

/-!
# Reading trees from tokens

A parser takes tokens from the front and either builds something or gives all of them back. Rules
that can nest in each other refer to each other by a goal; the grammar is the function that reads a
goal.
-/

namespace KernelLint.Java

/-- A reader of tokens that may fail, in which case no token is taken. -/
abbrev Parser := StateT (List Token) Option

/-- What becomes of a semicolon behind a switch in the place of a statement: with it the switch is
an expression that is a statement, without it the semicolon is a statement of its own. -/
inductive SwitchEnd where
  | taken
  | left
  /-- Taken if another statement of the same group follows. -/
  | takenInside
  deriving DecidableEq, Inhabited

/-- Where an expression stands. -/
inductive ExpressionPlace where
  | ordinary
  /-- In a label of a switch, where an arrow may end it. -/
  | label
  /-- In a rule of a switch that could be a lambda, with the end of the label as its parameters. -/
  | rule
  deriving DecidableEq, Inhabited

/-- Does an expression stand in a label of a switch? -/
def ExpressionPlace.inLabel (p : ExpressionPlace) : Bool := p = .label

/-- What a rule can ask another rule for. -/
inductive Goal where
  | expression (place : ExpressionPlace)
  /-- A statement, and what becomes of a semicolon if it is a switch. -/
  | statement (switchEnd : SwitchEnd)
  | block
  /-- A type, possibly with annotations in front. -/
  | type
  /-- One annotation; `declares` tells whether an annotation type can be declared in its place. -/
  | marking (declares : Bool)
  /-- The value of an annotation element. -/
  | elementValue
  /-- The initializer of a variable: an expression or a list in braces. -/
  | initializer
  | classBody
  /-- A class, interface, enum, record or annotation type. -/
  | typeDecl
  /-- A record with patterns for its components; `inLabel` tells whether it stands in a label of a
  switch. -/
  | recordPattern (inLabel : Bool)
  deriving DecidableEq, Inhabited

/-- How every goal is read. -/
abbrev Grammar := Goal → Parser Tree

namespace Parser

/-! ## Looking -/

def ahead : Parser (List Token) := get

/-- Go on only if a test on the tokens ahead holds. -/
def check (test : List Token → Bool) : Parser Unit := do
  if test (← get) then pure () else failure

def nextIs (text : String) (ts : List Token) : Bool :=
  ts.head?.any (·.is text)

/-- Is the next token one of those words or marks? -/
def nextAmong (texts : List String) (ts : List Token) : Bool :=
  ts.head?.any fun t => texts.any t.is

/-- Does a token of one text follow a token that satisfies a test? -/
def thenIs (first : Token → Bool) (second : String) : List Token → Bool
  | a :: b :: _ => first a && b.is second
  | _ => false

/-! ## Taking -/

def takeIf (test : Token → Bool) : Parser Token := do
  match ← get with
  | t :: rest => if test t then set rest; pure t else failure
  | [] => failure

/-- Take a keyword, operator or separator. -/
def word (text : String) : Parser Tree := do
  return .leaf none .plain (← takeIf (·.is text))

/-- Take one of several keywords, operators or separators. -/
def wordAmong (texts : List String) : Parser Tree := do
  return .leaf none .plain (← takeIf fun t => texts.any t.is)

/-- Take a word that is a name where only the given words are keywords. -/
def name (keywords : List String) : Parser Tree := do
  return .leaf none .name (← takeIf (·.isName keywords))

/-- Take a word that is a name whatever it says. -/
def anyName : Parser Tree := name []

/-- Take the name of something declared; the underscore stands for no name. -/
def declaredName (keywords : List String) : Parser Tree := do
  let t ← takeIf (·.isName keywords)
  return .leaf none (if t.is "_" then .wild else .name) t

def superWord : Parser Tree := do
  return .leaf none .superWord (← takeIf (·.is "super"))

def thisWord : Parser Tree := do
  return .leaf none .thisWord (← takeIf (·.is "this"))

/-- Take a mark whose characters are tokens of their own and stand side by side. -/
def gluedMark : List String → Parser Tree
  | [] => failure
  | first :: rest => do
    let start ← takeIf (·.is first)
    let whole ← rest.foldlM (fun joined text => do
      return joined.join (← takeIf fun t => t.is text && t.isGlued)) start
    return .leaf none .plain whole

/-! ## Repeating -/

/-- The trees of a parser, as long as it succeeds, at most `n` times. -/
def manyUpTo {α : Type} (p : Parser α) : Nat → Parser (List α)
  | 0 => pure []
  | n + 1 => (do
      let first ← p
      return first :: (← manyUpTo p n)) <|> pure []

/-- The results of a parser, as long as it succeeds. -/
def many {α : Type} (p : Parser α) : Parser (List α) := do
  manyUpTo p (← get).length

/-- The result of a parser, or nothing. -/
def maybe {α : Type} (p : Parser (List α)) : Parser (List α) :=
  p <|> pure []

def one (p : Parser Tree) : Parser (List Tree) := do
  return [← p]

/-- Trees with a separator between them, at least one. -/
def separated (sep : String) (p : Parser Tree) : Parser (List Tree) := do
  let first ← p
  let rest ← many do return [← word sep, ← p]
  return first :: rest.flatten

/-- Trees with commas between them, possibly none. -/
def listed (p : Parser Tree) : Parser (List Tree) := maybe (separated "," p)

/-- Take a tree in a part of its parent. -/
def taking (r : Role) (p : Parser Tree) : Parser Tree := do
  return (← p).as r

/-- A node over the trees of a parser. -/
def node (kind : NodeKind) (p : Parser (List Tree)) : Parser Tree := do
  return .node none kind (← p)

/-- A node that reads the lists of several parsers one after another. -/
def nodeOf (kind : NodeKind) (ps : List (Parser (List Tree))) : Parser Tree :=
  node kind do
    let parts ← ps.mapM id
    return parts.flatten

/-! ## Passing over what cannot be read -/

/-- The number of tokens of a part that cannot be read: up to the next semicolon outside braces or
to the closing brace of a block it opens, which are included, but not past the end of the
surrounding block. -/
def unreadable : Nat → List Token → Nat
  | _, [] => 0
  | depth, t :: rest =>
    if t.is "\x7b" then 1 + unreadable (depth + 1) rest
    else if t.is "\x7d" then
      match depth with
      | 0 => 0
      | 1 => 1
      | d + 1 => 1 + unreadable d rest
    else if t.is ";" && depth = 0 then 1
    else 1 + unreadable depth rest

/-- The number of tokens of an entry that cannot be read in a list between parentheses. -/
def unreadableEntry (ts : List Token) : Nat :=
  (ts.takeWhile fun t => !([",", ")", "\x7b", "\x7d", ";"].any t.is)).length

/-- Take a number of tokens as an error. -/
def skip (n : Nat) : Parser Tree := do
  let ts ← get
  set (ts.drop n)
  return .node none .error ((ts.take n).map (.leaf none .plain))

/-- Take what cannot be read as an error; fails at a closing brace and at the end. -/
def skipUnreadable : Parser Tree := do
  match unreadable 0 (← get) with
  | 0 => failure
  | n => skip n

/-- Take a semicolon, which may be missing in front of a closing brace. -/
def semicolon : Parser Tree :=
  word ";" <|> do
    check (nextIs "\x7d")
    return .node none .missing []

/-- Take an entry that cannot be read as an error; at least one token when `nonempty` holds. -/
def skipEntry (nonempty : Bool) : Parser Tree := do
  let n := unreadableEntry (← get)
  if nonempty && n = 0 then failure else skip n

end Parser

end KernelLint.Java
