import KernelLint.Java.Grammar.Statement

/-!
# Declarations

Classes of all sorts with their members, and whole source files. Inside the body of a class, a
member that cannot be read becomes an error and reading goes on after it.
-/

namespace KernelLint.Java

open KernelLint.Java.Parser

/-! ## Methods and fields -/

def throwsClause (g : Grammar) : Parser (List Tree) :=
  maybe (one (nodeOf .throwsClause [one (word "throws"), separated "," (g .type)]))

/-- A method, in a place where some words are keywords; without a body it ends in a semicolon. -/
def methodDecl (g : Grammar) (keywords : List String) : Parser Tree := do
  let mods ← modifiers g true
  let params ← maybe do
    let ps ← typeParameters g
    return ps :: (← markings g)
  let isGeneric := !params.isEmpty
  let type ← taking .type (plainType g
    (if isGeneric then [] else if mods.isEmpty then keywords else Word.member))
  let name ← taking .name (name (if isGeneric then [] else ["_"]))
  let parameters ← taking .parameters (declaredParameters g)
  let dims ← maybe (one (taking .dimensions (dimensions g)))
  let thrown ← throwsClause g
  let body ← taking .body (g .block) <|> semicolon
  return .node none .methodDecl (mods ++ params ++ [type, name, parameters] ++ dims ++
    thrown ++ [body])

/-- The call of the constructor of a superclass through an object, without its semicolon. With type
arguments it is read as the call of a method of that name first. -/
def outerConstructorCall (g : Grammar) : Parser (List Tree) := do
  let t ← primary g
  match t.children with
  | [object, dot, args, .leaf (some .name) _ callee, arguments] =>
    if callee.is "super" then return [object, dot, args, .leaf none .superWord callee, arguments]
  | _ => pure ()
  return [t.as .object, ← word ".", ← superWord, ← taking .arguments (argumentList g)]

/-- The call of another constructor at the beginning of a constructor. -/
def explicitConstructorCall (g : Grammar) : Parser Tree :=
  nodeOf .explicitConstructorCall [maybe (one (typeArguments g)), one (thisWord <|> superWord),
    one (taking .arguments (argumentList g)), one semicolon]
  <|> nodeOf .explicitConstructorCall [outerConstructorCall g, one semicolon]

def constructorBody (g : Grammar) : Parser Tree :=
  nodeOf .constructorBody [one (word "\x7b"), maybe (one (explicitConstructorCall g)), statements g,
    one blockEnd]

def constructorKeywords : List String := Word.member ++ Word.primitive

def constructorDecl (g : Grammar) : Parser Tree := do
  let mods ← modifiers g true
  let params ← maybe (one (typeParameters g))
  let name ← taking .name (name (if params.isEmpty then constructorKeywords else Word.primitive))
  let parameters ← taking .parameters (declaredParameters g)
  let thrown ← throwsClause g
  let body ← taking .body (constructorBody g)
  return .node none .constructorDecl (mods ++ params ++ [name, parameters] ++ thrown ++ [body])

/-- A constructor of a record without parameters of its own. -/
def compactConstructorDecl (g : Grammar) : Parser Tree :=
  nodeOf .compactConstructorDecl [modifiers g true, one (taking .name (name constructorKeywords)),
    one (taking .body (g .block))]

/-- Fields of one declaration, in a place where some words are keywords. -/
def fieldDecl (g : Grammar) (keywords : List String) : Parser Tree :=
  nodeOf .fieldDecl [modifiers g true, one (taking .type (plainType g keywords)),
    variableDeclarators g [], one semicolon]

def classMember (g : Grammar) : Parser Tree := do
  let ts ← ahead
  if nextIs ";" ts then word ";"
  else if nextIs "\x7b" ts then g .block
  else if thenIs (·.is "static") "\x7b" ts then
    nodeOf .staticInitializer [one (word "static"), one (g .block)]
  else g .typeDecl <|> methodDecl g Word.member <|> constructorDecl g <|>
    fieldDecl g Word.member <|>
    compactConstructorDecl g

def interfaceMember (g : Grammar) : Parser Tree :=
  word ";" <|> g .typeDecl <|> methodDecl g Word.member <|> fieldDecl g Word.member

/-- Members between braces; at the end of the text the closing brace may be missing. -/
def bracedMembers (kind : NodeKind) (member : Parser Tree) : Parser Tree :=
  nodeOf kind [one (word "\x7b"), many (member <|> skipUnreadable),
    one (word "\x7d") <|> do check List.isEmpty; return []]

def classBody (g : Grammar) : Parser Tree := bracedMembers .classBody (classMember g)

def interfaceBody (g : Grammar) : Parser Tree := bracedMembers .interfaceBody (interfaceMember g)

/-- The words that name no type at the front of a member of an annotation type. -/
def elementKeywords : List String := Word.modifier ++ Word.classSort

def elementDecl (g : Grammar) : Parser Tree :=
  nodeOf .elementDecl [modifiers g true, one (taking .type (plainType g elementKeywords)),
    one (taking .name (name ["_"])), one (word "("), one (word ")"),
    maybe (one (taking .dimensions (dimensions g))),
    maybe (do return [← word "default", ← taking .value (g .elementValue)]), one semicolon]

def annotationTypeBody (g : Grammar) : Parser Tree :=
  bracedMembers .annotationTypeBody
    (word ";" <|> elementDecl g <|> fieldDecl g elementKeywords <|> g .typeDecl)

/-! ## Enums -/

def enumConstant (g : Grammar) : Parser Tree :=
  nodeOf .enumConstant [modifiers g false, one (taking .name (name Word.modifier)),
    maybe (one (taking .arguments (argumentList g))), maybe (one (taking .body (g .classBody)))]

def enumBodyDecls (g : Grammar) : Parser Tree :=
  nodeOf .enumBodyDecls [one (word ";"), many (classMember g <|> skipUnreadable)]

def enumBody (g : Grammar) : Parser Tree :=
  nodeOf .enumBody [one (word "\x7b"), listed (enumConstant g), maybe (one (word ",")),
    maybe (one (enumBodyDecls g)), one (word "\x7d") <|> do check List.isEmpty; return []]

/-! ## Classes -/

def typesAfter (kind : NodeKind) (keyword : String) (g : Grammar) : Parser (List Tree) :=
  maybe (one (nodeOf kind [one (word keyword), one (node .typeList (separated "," (g .type)))]))

/-- What follows the keyword of a class. -/
def classTail (g : Grammar) : Parser (List Tree) := do
  let parts ← [one (taking .name anyName), maybe (one (typeParameters g)),
    maybe (one (taking .superclass (nodeOf .superclass [one (word "extends"), one (g .type)]))),
    typesAfter .superInterfaces "implements" g, typesAfter .permits "permits" g,
    one (taking .body (g .classBody))].mapM id
  return parts.flatten

def interfaceTail (g : Grammar) : Parser (List Tree) := do
  let parts ← [one (taking .name anyName), maybe (one (typeParameters g)),
    typesAfter .extendsInterfaces "extends" g, typesAfter .permits "permits" g,
    one (taking .body (interfaceBody g))].mapM id
  return parts.flatten

def recordTail (g : Grammar) : Parser (List Tree) := do
  let parts ← [one (taking .name anyName), maybe (one (typeParameters g)),
    one (taking .parameters (declaredParameters g)), typesAfter .superInterfaces "implements" g,
    one (taking .body (g .classBody))].mapM id
  return parts.flatten

def enumTail (g : Grammar) : Parser (List Tree) := do
  let parts ← [one (taking .name anyName), typesAfter .superInterfaces "implements" g,
    one (taking .body (enumBody g))].mapM id
  return parts.flatten

def annotationTypeTail (g : Grammar) : Parser (List Tree) := do
  return [← taking .name anyName, ← taking .body (annotationTypeBody g)]

def recordAhead (ts : List Token) : Bool :=
  nextIs "record" ts && (ts.drop 1).head?.any (·.isName ["instanceof"]) &&
    nextAmong ["(", "<"] (ts.drop 2)

/-- A class of any sort. -/
def typeDecl (g : Grammar) : Parser Tree := do
  let mods ← modifiers g true
  let declared (kind : NodeKind) (start : Parser Tree) (tail : Parser (List Tree)) :
      Parser Tree := do
    let start ← start
    return .node none kind (mods ++ [start] ++ (← tail))
  let ts ← ahead
  if nextIs "class" ts then declared .classDecl (word "class") (classTail g)
  else if nextIs "interface" ts then declared .interfaceDecl (word "interface") (interfaceTail g)
  else if nextIs "enum" ts then declared .enumDecl (word "enum") (enumTail g)
  else if annotationTypeAhead ts then
    declared .annotationTypeDecl annotationTypeStart (annotationTypeTail g)
  else if recordAhead ts then declared .recordDecl (word "record") (recordTail g)
  else failure

/-! ## Source files -/

/-- Anything that can stand outside of all classes. -/
def topLevel (g : Grammar) : Parser Tree :=
  g .typeDecl <|> methodDecl g Word.localType <|> g (.statement .taken)

/-- Everything in a source file; what cannot be read is passed over token by token. -/
def program (g : Grammar) : Parser Tree :=
  node .program (many (topLevel g <|> skipOne))
where
  /-- One token that cannot be read. -/
  skipOne : Parser Tree := do
    check (!·.isEmpty)
    skip 1

end KernelLint.Java
