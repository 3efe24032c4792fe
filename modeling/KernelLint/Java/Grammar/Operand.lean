import KernelLint.Java.Grammar.Switch

/-!
# Operands

What stands between operators: literals, names, calls, creations, class literals and method
references, with the selectors behind them, and assignments, whose left side is such an operand.
-/

namespace KernelLint.Java

open KernelLint.Java.Parser

/-! ## Literals, arguments and creations -/

def argumentList (g : Grammar) : Parser Tree :=
  nodeOf .argumentList [one (word "("), listed (g (.expression .ordinary)), one (word ")")]

def literal : Parser Tree := do
  let t ← takeIf fun t => (t.kind matches .literal _) || ["true", "false", "null"].any t.is
  match t.kind with
  | .literal k => return .leaf none (.literal k) t
  | _ => return .leaf none (.literal (if t.is "null" then .null else .boolean)) t

def arrayInitializer (g : Grammar) : Parser Tree :=
  nodeOf .arrayInitializer [one (word "\x7b"), listed (g .initializer), maybe (one (word ",")),
    one (word "\x7d")]

def dimensionsExpr (g : Grammar) : Parser Tree :=
  nodeOf .dimensionsExpr [markings g, one (word "["), one (g (.expression .ordinary)),
    one (word "]")]

/-- The dimensions of a new array, or empty dimensions and its entries. -/
def arrayShape (g : Grammar) : Parser (List Tree) :=
  (do let dims ← taking .dimensions (dimensions g)
      return [dims, ← taking .value (arrayInitializer g)])
  <|> (do
      let sized ← many (taking .dimensions (dimensionsExpr g))
      if sized.isEmpty then failure
      return sized ++ (← maybe (one (taking .dimensions (dimensions g)))))

/-- The creation of an object or array; `outer` is what stands in front of `new`. -/
def creation (g : Grammar) (outer : List Tree) : Parser Tree := do
  let start ← word "new"
  let marks ← markings g
  let args ← maybe (one (typeArguments g))
  let more ← markings g
  let type ← taking .type (simpleType g [])
  let front := outer ++ [start] ++ marks ++ args ++ more ++ [type]
  if nextIs "(" (← ahead) then
    let arguments ← taking .arguments (argumentList g)
    let body ← if nextIs "\x7b" (← ahead) then one (g .classBody) else pure []
    return .node none .objectCreation (front ++ [arguments] ++ body)
  else
    if !(outer.isEmpty && args.isEmpty) then failure
    return .node none .arrayCreation (front ++ (← arrayShape g))

/-! ## Assignment operators -/

def assignmentOperator : Parser Tree :=
  wordAmong ["=", "+=", "-=", "*=", "/=", "&=", "|=", "^=", "%=", "<<="]
  <|> gluedMark [">", ">", ">", "="] <|> gluedMark [">", ">", "="]

def assignmentAhead (ts : List Token) : Bool := (assignmentOperator.run ts).isSome

/-! ## Types as operands -/

/-- A type followed by `.class`. If it is called or assigned to, it is a member of that name
instead. -/
def classLiteral (g : Grammar) : Parser Tree := do
  let t ← nodeOf .classLiteral [one (plainType g Word.typeOrValue ["class"]), one (word "."),
    one (word "class")]
  check fun ts => !(nextIs "(" ts || assignmentAhead ts)
  return t

/-- Can the type be no value? A dotted name can be one, unless it has annotations, type arguments or
the words `new` and `super` in places that no member can have. -/
def isTypeOnly (t : Tree) : Bool :=
  match t with
  | .leaf _ .primitive _ => true
  | .leaf .. => false
  | .node _ .scopedType _ =>
    t.tokens.any (fun u => ["@", "<", "new"].any u.is) || t.tokens.getLast?.any (·.is "super")
  | .node .. => true

/-- A type that can be no value, in front of a method reference. -/
def referencedType (g : Grammar) : Parser Tree := do
  let t ← annotatedType g Word.typeOrValue
  check (nextIs "::")
  if isTypeOnly t then return t else failure

/-! ## Selectors -/

def operandStart (g : Grammar) : Parser Tree := do
  let ts ← ahead
  if nextIs "(" ts then
    check fun ts => !nextAmong Word.fixedModifier (ts.drop 1)
    parenthesized g
  else if nextIs "new" ts then creation g []
  else if nextIs "this" ts then thisWord
  else if nextIs "super" ts && nextAmong [".", "::"] (ts.drop 1) then superWord
  else if thenIs (·.isName Word.operand) "(" ts then
    nodeOf .methodCall [one (taking .name anyName), one (taking .arguments (argumentList g))]
  else literal <|> classLiteral g <|> referencedType g <|> name Word.operand

def isSuper (t : Tree) : Bool := t matches .leaf _ .superWord _

/-- A member behind an operand and a dot, in a place where some words are keywords: a call or a
field. -/
def namedMember (g : Grammar) (front : List Tree) (keywords : List String) : Parser Tree := do
  if nextIs "this" (← ahead) then
    return .node none .fieldAccess (front ++ [← taking .member thisWord])
  let typeArgs ← maybe (one (typeArguments g))
  let member ← name (if typeArgs.isEmpty then keywords else [])
  if nextIs "(" (← ahead) then
    return .node none .methodCall
      (front ++ typeArgs ++ [member.as .name, ← taking .arguments (argumentList g)])
  else if typeArgs.isEmpty then
    return .node none .fieldAccess (front ++ [member.as .member])
  else failure

def memberAfter (g : Grammar) (t : Tree) : Parser Tree := do
  let dot ← word "."
  let front := [t.as .object, dot]
  let ts ← ahead
  if nextIs "super" ts then
    let upper := [← superWord, ← word "."]
    namedMember g (front ++ upper) []
  else if isSuper t then namedMember g front []
  else if nextIs "new" ts then creation g [t, dot]
  else if ts.head?.any (·.kind = .literal .string) then
    return .node none .template [t, dot, ← literal]
  else namedMember g front ["new"]

def indexAfter (g : Grammar) (t : Tree) : Parser Tree := do
  return .node none .arrayAccess [t.as .array, ← word "[",
    ← taking .index (g (.expression .ordinary)), ← word "]"]

def referenceAfter (g : Grammar) (t : Tree) : Parser Tree := do
  let colons ← word "::"
  let args ← maybe (one (typeArguments g))
  return .node none .methodReference ([t, colons] ++ args ++ [← word "new" <|> anyName])

/-- The selectors after an operand, at most `n`. -/
def selectors (g : Grammar) : Nat → Tree → Parser Tree
  | 0, t => pure t
  | n + 1, t =>
    (do let next ← memberAfter g t <|> indexAfter g t <|> referenceAfter g t
        selectors g n next) <|> pure t

/-- An operand with its selectors. -/
def primary (g : Grammar) : Parser Tree := do
  let start ← operandStart g
  let t ← selectors g (← ahead).length start
  if isSuper t then failure else return t

def isAssignable (t : Tree) : Bool :=
  t.isName || t.isOneOf [.fieldAccess, .arrayAccess]

/-- An operand with its selectors, or an assignment to it. -/
def operand (g : Grammar) (place : ExpressionPlace) : Parser Tree := do
  let t ← primary g
  if isAssignable t && assignmentAhead (← ahead) then
    let op ← taking .operator assignmentOperator
    return .node none .assignment [t.as .left, op, ← taking .right (g (.expression place))]
  else return t

end KernelLint.Java
