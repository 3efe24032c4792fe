import KernelLint.Java.Grammar.Expression

/-!
# Statements

Inside a block, a statement that cannot be read becomes an error and reading goes on after it.
-/

namespace KernelLint.Java

open KernelLint.Java.Parser

/-- Statements one after the other. A semicolon behind a switch belongs to it only if the switch is
the first of them. -/
def statements (g : Grammar) : Parser (List Tree) :=
  maybe do
    let first ← g (.statement .taken) <|> skipUnreadable
    return first :: (← many (g (.statement .left) <|> skipUnreadable))

/-- The closing brace of a block. At the end of the text an error stands for it. -/
def blockEnd : Parser Tree := word "\x7d" <|> do check List.isEmpty; skip 0

def block (g : Grammar) : Parser Tree :=
  nodeOf .block [one (word "\x7b"), statements g, one blockEnd]

/-- A declaration of local variables, in a place where some words are keywords, and some others
behind a type of one word. -/
def localDecl (g : Grammar) (keywords nameKeywords : List String) : Parser Tree := do
  let mods ← modifiers g true
  let type ← taking .type (plainType g (if mods.isEmpty then keywords else Word.member))
  let declarators ← variableDeclarators g (if mods.isEmpty then behindName type nameKeywords
    else [])
  return .node none .localDecl (mods ++ [type] ++ declarators ++ [← semicolon])

/-! ## Branches and loops -/

def ifStmt (g : Grammar) (switchEnd : SwitchEnd) : Parser Tree := do
  let start ← word "if"
  let condition ← taking .condition (parenthesized g)
  let whenTrue ← taking .consequence (g (.statement switchEnd))
  let whenFalse ← if nextIs "else" (← ahead) then
      pure [← word "else", ← taking .alternative (g (.statement switchEnd))]
    else pure []
  return .node none .ifStmt ([start, condition, whenTrue] ++ whenFalse)

def whileStmt (g : Grammar) (switchEnd : SwitchEnd) : Parser Tree :=
  nodeOf .whileStmt [one (word "while"), one (taking .condition (parenthesized g)),
    one (taking .body (g (.statement switchEnd)))]

/-- A loop with its condition at the end. -/
def doStmt (g : Grammar) : Parser Tree :=
  nodeOf .doStmt [one (word "do"), one (taking .body (g (.statement .taken))), one (word "while"),
    one (taking .condition (parenthesized g)), one semicolon]

/-- A loop over the elements of something. -/
def enhancedFor (g : Grammar) (switchEnd : SwitchEnd) : Parser Tree := do
  let front := [← word "for", ← word "("]
  let mods ← modifiers g false
  let type ← taking .type (plainType g (if mods.isEmpty then Word.behindParenthesis
    else Word.modifier))
  let name ← variableName g (if mods.isEmpty then behindName type Word.test else [])
  nodeOf .enhancedForStmt [pure (front ++ mods ++ [type] ++ name), one (word ":"),
    one (taking .value (g (.expression .ordinary))), one (word ")"),
    one (taking .body (g (.statement switchEnd)))]

/-- A loop with initialisation, condition and update. -/
def basicFor (g : Grammar) (switchEnd : SwitchEnd) : Parser Tree :=
  nodeOf .forStmt [one (word "for"), one (word "("),
    one (taking .init (localDecl g Word.behindParenthesis Word.test)) <|> (do
      check fun ts => !nextAmong Word.fixedModifier ts
      let inits ← listed (taking .init (g (.expression .ordinary)))
      return inits ++ [← word ";"]),
    maybe (one (taking .condition (g (.expression .ordinary)))), one (word ";"),
    listed (taking .update (g (.expression .ordinary))), one (word ")"),
    one (taking .body (g (.statement switchEnd)))]

/-! ## Statements of one keyword -/

/-- A statement of one keyword, at most one part and a semicolon. -/
def keywordStmt (kind : NodeKind) (keyword : String) (p : Parser (List Tree)) : Parser Tree :=
  nodeOf kind [one (word keyword), p, one semicolon]

def assertStmt (g : Grammar) : Parser Tree :=
  nodeOf .assertStmt [one (word "assert"), one (g (.expression .ordinary)),
    maybe (do return [← word ":", ← g (.expression .ordinary)]), one semicolon]

/-! ## Exceptions -/

def catchType (g : Grammar) : Parser Tree := do
  let first ← plainType g Word.modifier
  let rest ← many do return [← word "|", ← plainType g []]
  return .node none .catchType (first :: rest.flatten)

def catchClause (g : Grammar) : Parser Tree :=
  nodeOf .catchClause [one (word "catch"), one (word "("),
    one (nodeOf .catchParameter [modifiers g false, one (catchType g), variableName g []]),
    one (word ")"), one (taking .body (g .block))]

def finallyClause (g : Grammar) : Parser Tree :=
  nodeOf .finallyClause [one (word "finally"), one (g .block)]

def declaredResource (g : Grammar) : Parser Tree := do
  let mods ← modifiers g false
  let type ← taking .type (plainType g (if mods.isEmpty then Word.behindParenthesis
    else Word.modifier))
  nodeOf .resource [pure (mods ++ [type]), variableName g [], one (word "="),
    one (taking .value (g (.expression .ordinary)))]

def namedResource (g : Grammar) : Parser Tree := do
  check fun ts => !nextAmong Word.fixedModifier ts
  let t ← primary g
  let isVariable := t.isName && !t.tokens.any fun u => Word.contextual.any u.is
  if isVariable || t.isNode .fieldAccess then return .node none .resource [t] else failure

def resourceSpec (g : Grammar) : Parser Tree :=
  nodeOf .resourceSpec [one (word "("), separated ";" (declaredResource g <|> namedResource g),
    maybe (one (word ";")), one (word ")")]

/-- A protected block; without resources it needs a handler or a last part. The keywords of those
are no names behind it. -/
def tryStmt (g : Grammar) : Parser Tree := do
  let start ← word "try"
  let hasResources := nextIs "(" (← ahead)
  let resources ← if hasResources then one (taking .resources (resourceSpec g)) else pure []
  let body ← taking .body (g .block)
  let handlers ← many (catchClause g)
  let last ← maybe (one (finallyClause g))
  if last.isEmpty then check (!nextAmong ["catch", "finally"] ·)
  if !hasResources && handlers.isEmpty && last.isEmpty then failure
  return .node none (if hasResources then .tryWithResources else .tryStmt)
    ([start] ++ resources ++ [body] ++ handlers ++ last)

/-! ## Locks and labels -/

/-- A statement under a lock. -/
def synchronizedStmt (g : Grammar) : Parser Tree :=
  nodeOf .synchronizedStmt [one (word "synchronized"), one (parenthesized g),
    one (taking .body (g .block))]

def labeledStmt (g : Grammar) (switchEnd : SwitchEnd) : Parser Tree :=
  nodeOf .labeledStmt [one anyName, one (word ":"), one (g (.statement switchEnd))]

/-! ## The header of a source file -/

/-- The package of a source file. Behind several annotations, in front of a simple name, the keyword
is a type. -/
def packageDecl (g : Grammar) : Parser Tree := do
  let marks ← many (g (.marking true))
  let start ← word "package"
  let name ← dottedName []
  if 1 < marks.length && name.isName then failure
  return .node none .packageDecl (marks ++ [start, name, ← word ";"])

def importDecl : Parser Tree :=
  nodeOf .importDecl [one (word "import"), maybe (one (word "static")), one (dottedName []),
    maybe (do return [← word ".", .leaf none .wild (← takeIf (·.is "*"))]), one (word ";")]

/-- A directive of a module: what it needs, shows, opens, uses and provides. -/
def moduleDirective : Parser Tree := do
  let names : Parser (List Tree) := separated "," (dottedName [])
  let manner : Parser Tree := do
    return .leaf none .wild (← takeIf fun t => t.is "transitive" || t.is "static")
  let start ← wordAmong ["requires", "exports", "opens", "uses", "provides"]
  let rest : List (Parser (List Tree)) :=
    if start.isWord "requires" then [many manner, one (dottedName [])]
    else if start.isWord "uses" then [one (dottedName [])]
    else if start.isWord "provides" then [one (dottedName []), one (word "with"), names]
    else [one (dottedName []), maybe do return (← word "to") :: (← names)]
  nodeOf .moduleDirective ([pure [start]] ++ rest ++ [one (word ";")])

/-- A module. Behind its keyword alone, which can be a name too, `instanceof` is an operator. -/
def moduleDecl (g : Grammar) : Parser Tree := do
  let marks ← many (g (.marking true))
  let opens ← maybe (one (word "open"))
  let start ← word "module"
  let name ← dottedName (if marks.isEmpty && opens.isEmpty then ["instanceof"] else [])
  let body ← nodeOf .moduleBody [one (word "\x7b"), many moduleDirective, one (word "\x7d")]
  return .node none .moduleDecl (marks ++ opens ++ [start, name, body])

/-- A part of the header of a source file, which can stand wherever a statement can. -/
def headerDecl (g : Grammar) : Parser Tree :=
  packageDecl g <|> importDecl <|> moduleDecl g

/-! ## All statements -/

/-- Can an expression be a statement here? It begins with no keyword of a statement and no
modifier. -/
def expressionAhead (ts : List Token) : Bool :=
  (nextAmong Word.operand ts || !nextAmong Word.statement ts) && (nonSealed.run ts).isNone

/-- Can only a module follow? Behind a single annotation its first words are no types. -/
def moduleAhead (g : Grammar) (ts : List Token) : Bool :=
  ((g (.marking true)).run ts).any fun (_, rest) => nextAmong ["module", "open"] rest

/-- A statement that begins with no keyword of its own. -/
def plainStmt (g : Grammar) : Parser Tree :=
  g .typeDecl <|> headerDecl g <|>
    (do check (!moduleAhead g ·); localDecl g Word.localType ["instanceof"]) <|> do
    check expressionAhead
    expressionStmt g

/-- Does an operator follow that makes a switch part of a larger expression? -/
def joinsSwitch (ts : List Token) : Bool :=
  nextAmong (["?", "+", "-", ">", "instanceof"] ++ binaryLevels.map (·.1)) ts ||
    (nextAmong ["++", "--"] ts &&
      !operandAhead false (ts.dropWhile fun t => t.is "++" || t.is "--"))

/-- Does a switch take the semicolon that comes next? In front of `else` it does in any case. -/
def takesEnd (switchEnd : SwitchEnd) (ts : List Token) : Bool :=
  nextIs ";" ts && (nextIs "else" (ts.drop 1) ||
    match switchEnd with
    | .taken => true
    | .left => false
    | .takenInside => !nextAmong ["case", "default", "\x7d"] (ts.drop 1))

/-- A switch as a statement, or an expression that begins with one. -/
def switchStmt (g : Grammar) (switchEnd : SwitchEnd) : Parser Tree := do
  let start ← ahead
  let t ← switchExpr g
  let ts ← ahead
  if takesEnd switchEnd ts then return .node none .expressionStmt [t, ← word ";"]
  else if joinsSwitch ts then set start; expressionStmt g
  else return t

def statement (g : Grammar) (switchEnd : SwitchEnd) : Parser Tree := do
  let ts ← ahead
  let value : Parser (List Tree) := one (g (.expression .ordinary))
  if nextIs "\x7b" ts then g .block
  else if nextIs ";" ts then word ";"
  else if nextIs "if" ts then ifStmt g switchEnd
  else if nextIs "while" ts then whileStmt g switchEnd
  else if nextIs "do" ts then doStmt g
  else if nextIs "for" ts then enhancedFor g switchEnd <|> basicFor g switchEnd
  else if nextIs "try" ts then tryStmt g
  else if nextIs "switch" ts then switchStmt g switchEnd
  else if nextIs "return" ts then keywordStmt .returnStmt "return" (maybe value)
  else if nextIs "throw" ts then throwStmt g
  else if nextIs "break" ts then keywordStmt .breakStmt "break" (maybe (one anyName))
  else if nextIs "continue" ts then keywordStmt .continueStmt "continue" (maybe (one anyName))
  else if nextIs "assert" ts then assertStmt g
  else if thenIs (·.is "synchronized") "(" ts then synchronizedStmt g
  else if nextIs "yield" ts && !nextIs "instanceof" (ts.drop 1) then
    keywordStmt .yieldStmt "yield" value <|> plainStmt g
  else if thenIs (·.isName (Word.statement ++ Word.contextual)) ":" ts then labeledStmt g switchEnd
  else plainStmt g

end KernelLint.Java
