import KernelLint.Java.Grammar.Type

/-!
# Switches and patterns

A switch is the same as a statement and as an expression. Its block holds either groups of
statements or rules with an arrow.
-/

namespace KernelLint.Java

open KernelLint.Java.Parser

/-! ## Patterns -/

def wildPattern : Parser Tree := do
  return .leaf none .wild (← takeIf (·.is "_"))

/-- The words that are keywords where a type or a value can stand, in a label or behind a type
test. -/
def patternKeywords (inLabel : Bool) : List String :=
  if inLabel then Word.typeOrValue else Word.contextual

def recordPatternComponent (g : Grammar) (inLabel : Bool) : Parser Tree :=
  nodeOf .recordPatternComponent [do
    let type ← plainType g ("_" :: patternKeywords inLabel)
    return [type, ← name (if inLabel then behindName type ["instanceof"] else [])]]
  <|> nodeOf .recordPatternComponent [one wildPattern]

/-- The patterns for the components of a record. Those behind the first one cannot be taken for
values. -/
def recordPatternBody (g : Grammar) (inLabel : Bool) : Parser Tree :=
  let component (inLabel : Bool) : Parser Tree :=
    g (.recordPattern inLabel) <|> recordPatternComponent g inLabel
  nodeOf .recordPatternBody [one (word "("), maybe do
    let first ← component inLabel
    let rest ← many do return [← word ",", ← component false]
    return first :: rest.flatten, one (word ")")]

/-- A record with patterns for its components. The record is a simple name or has type arguments. -/
def recordPattern (g : Grammar) (inLabel : Bool) : Parser Tree := do
  let type ← simpleType g (if inLabel then Word.operand else [])
  if !(type.isName || type.isNode .genericType) then failure
  return .node none .recordPattern [type, ← recordPatternBody g inLabel]

/-- A type with the name of the matched value. Behind a dotted name and in front of a condition,
`instanceof` is an operator. -/
def typePattern (g : Grammar) : Parser Tree := do
  let type ← plainType g Word.typeOrValue
  let value ← name (behindName type Word.test)
  let isDotted := type.isNode .scopedType && !type.occurs [.genericType]
  let isOperator := isDotted && value.tokens.any (·.is "instanceof")
  check fun ts => !(isOperator && nextIs "when" ts)
  return .node none .typePattern [type, value]

/-! ## Labels -/

def endsLabel : List Token → Bool := nextAmong ["->", ":"]

/-- Could the tokens of a pattern be those of a call? They hold no type with a name or with
arguments, and no underscore before the first closing parenthesis. -/
def looksLikeCall (ts : List Token) : Bool :=
  let isWord (t : Token) : Bool := t.kind = .word
  ts.all (fun t => isWord t || ["(", ")", ","].any t.is) &&
    (ts.zip (ts.drop 1)).all (fun (a, b) => !(isWord a && isWord b)) &&
    !(ts.takeWhile fun t => !t.is ")").any (·.is "_")

/-- A pattern of a label. In front of a condition it is a call if it could be one. -/
def labelPattern (g : Grammar) : Parser Tree := do
  let p ← g (.recordPattern true) <|> typePattern g
  check fun ts => endsLabel ts || (nextIs "when" ts && !looksLikeCall p.tokens)
  return .node none .pattern [p]

def guardClause (g : Grammar) : Parser Tree :=
  nodeOf .guard [one (word "when"), one (g (.expression .label))]

def switchLabel (g : Grammar) : Parser Tree :=
  nodeOf .switchLabel [one (word "default")]
  <|> nodeOf .switchLabel [one (word "case"),
    one (labelPattern g) <|> separated "," (g (.expression .label)), maybe (one (guardClause g))]

/-! ## Blocks -/

def expressionStmt (g : Grammar) : Parser Tree :=
  nodeOf .expressionStmt [one (g (.expression .ordinary)), one semicolon]

def throwStmt (g : Grammar) : Parser Tree :=
  nodeOf .throwStmt [one (word "throw"), one (g (.expression .ordinary)), one semicolon]

mutual

/-- Could the end of the tree be the parameters of a lambda? -/
def endsInParameters : Tree → Bool
  | .leaf _ kind _ => kind = .name
  | .node _ .paren cs => cs.length = 3 && cs.any (·.isName)
  | .node _ kind cs =>
    [.switchLabel, .guard, .assignment, .binary, .ternary, .lambda, .unary, .updateExpr,
      .cast].contains kind &&
      lastEndsInParameters cs

/-- Could the end of the last tree be the parameters of a lambda? -/
def lastEndsInParameters : List Tree → Bool
  | [] => false
  | [t] => endsInParameters t
  | _ :: rest => lastEndsInParameters rest

end

def ruleBody (g : Grammar) (label : Tree) : Parser Tree := do
  let ts ← ahead
  if nextIs "\x7b" ts then g .block
  else if nextIs "throw" ts then throwStmt g
  else
    let place := if endsInParameters label then .rule else .ordinary
    nodeOf .expressionStmt [one (g (.expression place)), one semicolon]

/-- A rule: a label, an arrow and what is done. -/
def switchRule (g : Grammar) : Parser Tree := do
  let label ← switchLabel g
  return .node none .switchRule [label, ← word "->", ← ruleBody g label]

/-- A statement of a group, or an error in its place. -/
def groupStatement (g : Grammar) (switchEnd : SwitchEnd) : Parser Tree := do
  check fun ts => !nextAmong ["case", "default"] ts
  g (.statement switchEnd) <|> skipUnreadable

/-- A group: one label and the statements after it, possibly none. -/
def switchGroup (g : Grammar) : Parser Tree :=
  nodeOf .switchGroup [one (switchLabel g), one (word ":"),
    maybe do
      let first ← groupStatement g .takenInside
      return first :: (← many (groupStatement g .left))]

/-- All groups or all rules of a switch, as the first one is, with errors in the place of what
cannot be read. -/
def switchEntries (g : Grammar) : Parser (List Tree) :=
  (do return (← switchRule g) :: (← many (switchRule g <|> skipUnreadable)))
  <|> (do return (← switchGroup g) :: (← many (switchGroup g <|> skipUnreadable)))
  <|> many (switchRule g <|> switchGroup g <|> skipUnreadable)

def switchBlock (g : Grammar) : Parser Tree :=
  nodeOf .switchBlock [one (word "\x7b"), switchEntries g, one (word "\x7d")]

def parenthesized (g : Grammar) : Parser Tree :=
  nodeOf .paren [one (word "("), one (g (.expression .ordinary)), one (word ")")]

def switchExpr (g : Grammar) : Parser Tree :=
  nodeOf .switchExpr [one (word "switch"), one (taking .condition (parenthesized g)),
    one (taking .body (switchBlock g))]

end KernelLint.Java
