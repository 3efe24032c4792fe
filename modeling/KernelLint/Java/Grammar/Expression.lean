import KernelLint.Java.Grammar.Operand
import KernelLint.Java.Grammar.Operator

/-!
# Expressions

Rows of operands and operators, lambdas, casts and conditionals. In a label of a switch the arrow of
a lambda could as well end the label; there a lambda is read only if something follows that ends the
label behind it.
-/

namespace KernelLint.Java

open KernelLint.Java.Parser

/-! ## Looking ahead -/

/-- What follows the closing bracket that belongs to an open one. -/
def afterClosing (opening closing : String) : Nat → List Token → List Token
  | _, [] => []
  | depth, t :: rest =>
    if t.is opening then afterClosing opening closing (depth + 1) rest
    else if t.is closing then
      match depth with
      | 0 | 1 => rest
      | d + 1 => afterClosing opening closing d rest
    else afterClosing opening closing depth rest

/-- What follows the parameters of a lambda, if they are its parameters. -/
def afterParameters (ts : List Token) : List Token :=
  if nextIs "(" ts then afterClosing "(" ")" 0 ts
  else if ts.head?.any (·.isName Word.operand) then ts.drop 1
  else []

def lambdaAhead (ts : List Token) : Bool := nextIs "->" (afterParameters ts)

/-- What can follow a value in a label. -/
def endsLabelValue : List Token → Bool := nextAmong ["->", ":", ",", "when"]

/-- Can the label go on or end behind a lambda? An arrow ends it, unless a block and a semicolon
follow: then the arrow belongs to another lambda. -/
def endsLabelLambda (ts : List Token) : Bool :=
  let body := ts.drop 1
  endsLabelValue ts &&
    !(nextIs "->" ts && nextIs "\x7b" body && nextIs ";" (afterClosing "\x7b" "\x7d" 0 body))

/-- Is there something outside all brackets, before the end of the statement, that can follow a
lambda in a label? -/
def labelEndAhead : Nat → List Token → Bool
  | _, [] => false
  | depth, t :: rest =>
    if ["(", "[", "\x7b"].any t.is then labelEndAhead (depth + 1) rest
    else if [")", "]", "\x7d"].any t.is then
      match depth with
      | 0 => false
      | d + 1 => labelEndAhead d rest
    else if 0 < depth then labelEndAhead depth rest
    else !t.is ";" && (endsLabelValue [t] || labelEndAhead depth rest)

/-- Can a lambda begin here that is part of a label? -/
def labelLambdaAhead (ts : List Token) : Bool :=
  let body := (afterParameters ts).drop 1
  lambdaAhead ts &&
    if nextIs "\x7b" body then endsLabelLambda (afterClosing "\x7b" "\x7d" 0 body)
    else labelEndAhead 0 body

/-- Does an operand begin here that has no sign? -/
def operandAhead (inLabel : Bool) (ts : List Token) : Bool :=
  let others := if inLabel then Word.test else ["instanceof"]
  nextAmong ["(", "!", "~", "@"] ts || ts.head?.any fun t => t.isName others ||
    t.kind matches .literal _

/-! ## Lambdas and casts -/

def lambdaParameters (g : Grammar) : Parser Tree :=
  name Word.operand
  <|> nodeOf .inferredParameters [one (word "("), (do
      let first ← name (Word.operand ++ Word.fixedModifier)
      let rest ← many do return [← word ",", ← anyName]
      return first :: rest.flatten), one (word ")")]
  <|> formalParameters g { typeKeywords := Word.behindParenthesis, nameKeywords := ["instanceof"] }

def lambda (g : Grammar) (place : ExpressionPlace) : Parser Tree := do
  let params ← taking .parameters (lambdaParameters g)
  let arrow ← word "->"
  let body ← if nextIs "\x7b" (← ahead) then g .block else g (.expression place)
  if place.inLabel then check endsLabelLambda
  return .node none .lambda [params, arrow, body.as .body]

def castHead (g : Grammar) : Parser (List Tree) := do
  let start ← word "("
  let first ← taking .type (annotatedType g Word.behindParenthesis)
  let others ← many do return [← word "&", ← taking .type (g .type)]
  return [start, first] ++ others.flatten ++ [← word ")"]

/-- What a row of pieces can go on with. -/
inductive Expectation where
  | operand
  | operator
  /-- Behind a name in parentheses, which can be an operand or the head of a cast. -/
  | either

/-- A lambda, if one can begin here, or what is read otherwise. -/
def lambdaOr (g : Grammar) (place : ExpressionPlace)
    (otherwise : Parser (List Piece × Expectation)) :
    Parser (List Piece × Expectation) := do
  let ts ← ahead
  let asLambda := do return ([.operand (← lambda g place) true], .operator)
  if !place.inLabel && lambdaAhead ts then asLambda
  else if place.inLabel && labelLambdaAhead ts then asLambda <|> otherwise
  else otherwise

/-- Several types in parentheses, which are the head of a cast only in front of a plain operand. -/
def intersectionPieces (g : Grammar) (place : ExpressionPlace) (parts : List Tree) :
    Parser (List Piece × Expectation) := do
  check (!nextIs "instanceof" ·)
  let (value, next) ← lambdaOr g place do return ([.operand (← primary g) true], .operator)
  return (.castHead parts :: value, next)

/-- A name in parentheses, which can be the head of a cast or an operand. A class literal is a cast
only if an operand without sign follows. -/
def namedPieces (g : Grammar) (place : ExpressionPlace) (start : List Token) (parts : List Tree) :
    Parser (List Piece × Expectation) := do
  check fun ts => !nextAmong [".", "[", "::"] ts
  let stop ← ahead
  set start
  let t ← operandStart g
  set stop
  if t.occurs [.classLiteral] then
    check (operandAhead place.inLabel)
    return ([.castHead parts], .operand)
  else return ([.named parts t (parts.any (·.isNode .scopedType))], .either)

/-- An operand or the head of a cast in parentheses. -/
def parenthesizedPieces (g : Grammar) (place : ExpressionPlace) :
    Parser (List Piece × Expectation) :=
  (do let start ← ahead
      let parts ← castHead g
      match parts.filter (·.role = some .type) with
      | [type] =>
        if isTypeOnly type then return ([.castHead parts], .operand)
        else namedPieces g place start parts
      | _ => intersectionPieces g place parts)
  <|> (do return ([.operand (← operand g place) true], .operator))

/-! ## Rows -/

/-- The binary operators made of one token, with their levels. -/
def binaryLevels : List (String × Nat) :=
  [("||", 1), ("&&", 2), ("|", 3), ("^", 4), ("&", 5), ("==", 6), ("!=", 6), ("<", comparisonLevel),
   ("<=", comparisonLevel), ("<<", shiftLevel), ("*", 10), ("/", 10), ("%", 10)]

/-- A binary operator that is no sign, with its level. -/
def binaryOperator : Parser Piece :=
  (do return .binary (← gluedMark [">", ">", ">"] <|> gluedMark [">", ">"]) shiftLevel)
  <|> (do return .binary (← gluedMark [">", "="] <|> word ">") comparisonLevel)
  <|> (do
    let t ← takeIf fun t => binaryLevels.any fun p => t.is p.1
    return .binary (.leaf none .plain t) (((binaryLevels.find? (·.1 = t.text)).map (·.2)).getD 0))

def testedType (g : Grammar) : Parser (List Tree) :=
  one (g (.recordPattern false)) <|> do
    let type ← annotatedType g Word.contextual
    return type.as .right :: (← maybe (one (taking .name (name Word.test))))

/-- A type without the type arguments at its end. -/
def withoutArguments? : Tree → Option Tree
  | .node _ .genericType (t :: _) => some t
  | .node r .annotatedType cs =>
    match cs.getLast? with
    | some (.node _ .genericType (t :: _)) => some (.node r .annotatedType (cs.dropLast ++ [t]))
    | _ => none
  | _ => none

/-- The type of a type test in front of two comparisons that look like type arguments. -/
def comparedType (g : Grammar) : Parser (List Tree) := do
  let start ← ahead
  match withoutArguments? (← annotatedType g Word.contextual) with
  | none => failure
  | some t =>
    set (start.drop t.tokens.length)
    return [t.as .right]

/-- Does something follow that cannot follow a type test, but the operand of a comparison or its
name? -/
def comparandAhead (inLabel : Bool) (ts : List Token) : Bool :=
  operandAhead inLabel ts || assignmentAhead ts || nextAmong [".", "[", "::"] ts
    || (!inLabel && nextIs "->" ts)
    || (nextAmong ["++", "--"] ts &&
      operandAhead inLabel (ts.dropWhile fun t => t.is "++" || t.is "--"))

/-- A type test behind an operand. -/
def typeTest (g : Grammar) (place : ExpressionPlace) : Parser Piece := do
  let start ← word "instanceof"
  let final ← maybe (one (word "final"))
  let tested ← (do
      let tested ← testedType g
      check (!comparandAhead place.inLabel ·)
      return tested) <|> comparedType g
  return .typeTest (start :: final ++ tested)

/-- A plus or minus. -/
def sign : Parser Piece := do return .sign (← wordAmong ["+", "-"])

/-- An increment or decrement. -/
def step : Parser Piece := do return .step (← wordAmong ["++", "--"])

/-- Where an operand is expected: an operand, or what stands in front of one. -/
def operandPieces (g : Grammar) (place : ExpressionPlace) : Parser (List Piece × Expectation) := do
  let ts ← ahead
  if nextAmong ["+", "-"] ts then return ([← sign], .operand)
  else if nextAmong ["++", "--"] ts then return ([← step], .operand)
  else if nextAmong ["!", "~"] ts then return ([.negation (← wordAmong ["!", "~"])], .operand)
  else lambdaOr g place do
    if nextIs "switch" ts then return ([.operand (← switchExpr g) false], .operator)
    else if nextIs "(" ts then parenthesizedPieces g place
    else
      let t ← operand g place
      return ([.operand t (!t.isNode .assignment)], .operator)

/-- Where an operator is expected: an operator or a type test. -/
def operatorPieces (g : Grammar) (place : ExpressionPlace) : Parser (List Piece × Expectation) :=
  (do return ([← typeTest g place], .operator))
  <|> (do return ([← step], .operator))
  <|> (do return ([← sign <|> binaryOperator], .operand))

/-- Some pieces and what follows them in the row. -/
def thenRow (first : Parser (List Piece × Expectation)) (rest : Expectation → Parser (List Piece)) :
    Parser (List Piece) := do
  let (pieces, next) ← first
  return pieces ++ (← rest next)

/-- A row of operands and operators, of at most `n` steps. -/
def row (g : Grammar) (place : ExpressionPlace) : Nat → Expectation → Parser (List Piece)
  | 0, _ => pure []
  | n + 1, .operand => thenRow (operandPieces g place) (row g place n)
  | n + 1, .operator => thenRow (operatorPieces g place) (row g place n) <|> pure []
  | n + 1, .either =>
    thenRow (do return ([← step], .either)) (row g place n)
    <|> thenRow (do check (operandAhead place.inLabel); operandPieces g place) (row g place n)
    <|> thenRow (operatorPieces g place) (row g place n)
    <|> pure []

def expression (g : Grammar) (place : ExpressionPlace) : Parser Tree := do
  let pieces ← row g place ((← ahead).length + 1) .operand
  match group? (place = .rule) pieces with
  | none => failure
  | some condition =>
    if nextIs "?" (← ahead) then
      return .node none .ternary [condition.as .condition, ← word "?",
        ← taking .consequence (g (.expression .ordinary)), ← word ":",
        ← taking .alternative (g (.expression place))]
    else return condition

def initializer (g : Grammar) : Parser Tree := do
  if nextIs "\x7b" (← ahead) then arrayInitializer g else g (.expression .ordinary)

end KernelLint.Java
