import KernelLint.Java.Parser
import KernelLint.Java.Word

/-!
# Names, types, annotations and modifiers

The parts that declarations, statements and expressions share.
-/

namespace KernelLint.Java

open KernelLint.Java.Parser

/-! ## Names -/

/-- Extend a dotted name by the segments that follow. -/
def dottedFrom : Tree → List (List Tree) → Tree
  | name, [] => name
  | name, segment :: rest => dottedFrom (.node none .scopedName (name :: segment)) rest

/-- A name, or several with dots between them. -/
def dottedName (keywords : List String) : Parser Tree := do
  let first ← name keywords
  let rest ← many do return [← word ".", ← anyName]
  return dottedFrom first rest

/-! ## Annotations -/

def elementPair (g : Grammar) : Parser Tree :=
  nodeOf .elementPair [one anyName, one (word "="), one (g .elementValue)]

/-- The arguments of an annotation: named values, or a single value. -/
def annotatedArgs (g : Grammar) : Parser Tree := do
  let isNamed := thenIs (·.isName Word.operand) "="
  let ts ← ahead
  nodeOf .annotatedArgs [one (word "("),
    if isNamed (ts.drop 1) then separated "," (elementPair g) else maybe (one (g .elementValue)),
    one (word ")")]

/-- Is the next token the sign of an annotation, and the word behind it the keyword of an annotation
type? -/
def annotationTypeAhead : List Token → Bool
  | a :: b :: _ => a.is "@" && b.isGlued && (b.split? "interface").isSome
  | _ => false

/-- The sign and the keyword of an annotation type. The keyword may be the front of a longer
word. -/
def annotationTypeStart : Parser Tree := do
  check annotationTypeAhead
  let sign ← takeIf (·.is "@")
  let start ← takeIf fun _ => true
  match start.split? "interface" with
  | some (front, rest) =>
    set (rest.toList ++ (← ahead))
    return .leaf none .plain (sign.join front)
  | none => failure

def marking (g : Grammar) (declares : Bool) : Parser Tree := do
  check fun ts => !(declares && annotationTypeAhead ts)
  let start ← word "@"
  let name ← taking .name (dottedName [])
  if nextIs "(" (← ahead) then
    return .node none .annotatedUse [start, name, (← annotatedArgs g).as .arguments]
  else
    return .node none .markerUse [start, name]

def markings (g : Grammar) : Parser (List Tree) := many (g (.marking false))

def elementValue (g : Grammar) : Parser Tree := do
  let ts ← ahead
  if nextIs "@" ts then g (.marking false)
  else if nextIs "\x7b" ts then
    nodeOf .elementArray [one (word "\x7b"), listed (g .elementValue), maybe (one (word ",")),
      one (word "\x7d")]
  else g (.expression .ordinary)

/-! ## Modifiers -/

/-- The modifier that is made of two words. -/
def nonSealed : Parser Tree := gluedMark ["non", "-", "sealed"]

def modifierWord : Parser Tree := wordAmong Word.modifier <|> nonSealed

/-- Modifiers and annotations in front of a declaration, if there are any; `declares` tells whether
an annotation type can be declared in their place. -/
def modifiers (g : Grammar) (declares : Bool) : Parser (List Tree) := do
  match ← many (g (.marking declares) <|> modifierWord) with
  | [] => return []
  | found => return [.node none .modifiers found]

/-! ## Types -/

def primitiveType : Parser Tree := do
  return .leaf none .primitive (← takeIf fun t => Word.primitive.any t.is)

/-- Empty brackets, possibly with annotations. -/
def dimensions (g : Grammar) : Parser Tree := do
  let pairs ← many do
    let marks ← markings g
    return marks ++ [← word "[", ← word "]"]
  match pairs with
  | [] => failure
  | _ => return .node none .dimensions pairs.flatten

def wildcard (g : Grammar) : Parser Tree :=
  nodeOf .wildcard [markings g, one (word "?"), maybe do
    let bound ← word "extends" <|> superWord
    return [bound, ← g .type]]

def typeArguments (g : Grammar) : Parser Tree :=
  nodeOf .typeArguments [one (word "<"), listed (wildcard g <|> g .type), one (word ">")]

/-- A further segment of a dotted type, which is none of some words. -/
def typeSegment (g : Grammar) (stops : List String) : Parser (List Tree) := do
  let dot ← word "."
  let marks ← markings g
  return dot :: marks ++ [← name stops]

/-- Type arguments and segments after the beginning of a type, at most `n` of them. -/
def typeTail (g : Grammar) (stops : List String) : Nat → Tree → Parser Tree
  | 0, t => pure t
  | n + 1, t =>
    (do if t.isNode .genericType then failure
        let args ← typeArguments g
        typeTail g stops n (.node none .genericType [t, args]))
    <|> (do
        let segment ← typeSegment g stops
        typeTail g stops n (.node none .scopedType (t :: segment)))
    <|> pure t

/-- A type that is no array, in a place where some words are keywords; none of the words `stops` is
a segment of it. -/
def simpleType (g : Grammar) (keywords : List String) (stops : List String := []) : Parser Tree :=
  primitiveType <|> do
    let first ← name keywords
    typeTail g stops (← ahead).length first

/-- A type without annotations in front, in a place where some words are keywords; none of the words
`stops` is a segment of it. -/
def plainType (g : Grammar) (keywords : List String) (stops : List String := []) : Parser Tree := do
  let element ← simpleType g keywords stops
  (do let dims ← dimensions g
      return .node none .arrayType [element, dims.as .dimensions]) <|> pure element

/-- A type, possibly with annotations in front, in a place where some words are keywords. -/
def annotatedType (g : Grammar) (keywords : List String) : Parser Tree := do
  match ← markings g with
  | [] => plainType g keywords
  | marks => return .node none .annotatedType (marks ++ [← plainType g []])

def typeParameter (g : Grammar) : Parser Tree :=
  nodeOf .typeParameter [markings g, one anyName,
    maybe (one (nodeOf .typeBound [one (word "extends"), separated "&" (g .type)]))]

def typeParameters (g : Grammar) : Parser Tree :=
  nodeOf .typeParameters [one (word "<"), separated "," (typeParameter g), one (word ">")]

/-! ## Variables and parameters -/

/-- The words that are keywords behind a type. Only a type of one word can be a value as well,
behind which some words are operators. -/
def behindName (type : Tree) (keywords : List String) : List String :=
  if type.isName then keywords else []

/-- A declared name with dimensions of its own, in a place where some words are keywords. -/
def variableName (g : Grammar) (keywords : List String) : Parser (List Tree) := do
  let name ← taking .name (declaredName keywords)
  return name :: (← maybe (one (taking .dimensions (dimensions g))))

def variableDeclarator (g : Grammar) (keywords : List String) : Parser Tree :=
  nodeOf .variableDeclarator [variableName g keywords, maybe do
    return [← word "=", ← taking .value (g .initializer)]]

/-- Variables of one declaration; some words are keywords in the place of the first name. -/
def variableDeclarators (g : Grammar) (keywords : List String) : Parser (List Tree) := do
  let first ← taking .declarator (variableDeclarator g keywords)
  let rest ← many do return [← word ",", ← taking .declarator (variableDeclarator g [])]
  return first :: rest.flatten

/-- The place of the first parameter: the words that are keywords for its type, and those for its
name behind a type of one word. -/
structure ParameterPlace where
  typeKeywords : List String := Word.modifier
  nameKeywords : List String := []

/-- The receiver that a method may spell out. With annotations in front it has to be qualified, or a
comma follows that ends the parameters: otherwise it is an ordinary parameter. Without them the
first qualifier is no word that can name a parameter. -/
def receiverParameter (g : Grammar) (place : ParameterPlace) : Parser Tree := do
  let marks ← markings g
  let type ← plainType g place.typeKeywords
  let keywords :=
    if marks.isEmpty then "_" :: Word.contextual ++ behindName type place.nameKeywords else []
  let outer ← maybe do
    let first := [← name keywords, ← word "."]
    return first ++ (← many do return [← anyName, ← word "."]).flatten
  let self ← thisWord
  check fun ts => marks.isEmpty || !outer.isEmpty || (nextIs "," ts && nextIs ")" (ts.drop 1))
  return .node none .receiverParameter (marks ++ [type] ++ outer ++ [self])

/-- A parameter that takes any number of arguments. -/
def spreadParameter (g : Grammar) (place : ParameterPlace) : Parser Tree := do
  let mods ← modifiers g false
  let type ← plainType g (if mods.isEmpty then place.typeKeywords else Word.modifier)
  return .node none .spreadParameter (mods ++ [type, ← word "...", ← variableDeclarator g []])

def formalParameter (g : Grammar) (place : ParameterPlace) : Parser Tree := do
  let mods ← modifiers g false
  let type ← taking .type (plainType g (if mods.isEmpty then place.typeKeywords else Word.modifier))
  let name ← variableName g (if mods.isEmpty then behindName type place.nameKeywords else [])
  return .node none .formalParameter (mods ++ [type] ++ name)

/-- A parameter that is no receiver. -/
def plainParameter (g : Grammar) (place : ParameterPlace) : Parser Tree :=
  spreadParameter g place <|> formalParameter g place

/-- Parameters, the first of which stands in a place of its own. A comma behind a receiver need not
be followed by a parameter. -/
def parameterList (g : Grammar) (place : ParameterPlace) : Parser (List Tree) :=
  (do let receiver ← receiverParameter g place
      return receiver :: (← maybe do return (← word ",") :: (← listed (plainParameter g {}))))
  <|> (do
      let first ← plainParameter g place
      let rest ← many do return [← word ",", ← plainParameter g {}]
      return first :: rest.flatten)

/-- The parameters of a method or a lambda, the first of which stands in a place of its own. -/
def formalParameters (g : Grammar) (place : ParameterPlace) : Parser Tree :=
  nodeOf .formalParameters [one (word "("), maybe (parameterList g place), one (word ")")]

/-- A parameter, or an error in its place; the parameter must end where the next one begins. -/
def parameterEntry (p : Parser Tree) (nonempty : Bool) : Parser Tree :=
  (do let t ← p
      check (nextAmong [",", ")"])
      return t) <|> skipEntry nonempty

/-- The parameters of a declaration, where a parameter that cannot be read becomes an error. -/
def declaredParameters (g : Grammar) : Parser Tree :=
  formalParameters g {} <|>
  nodeOf .formalParameters [one (word "("), maybe do
      let first ← parameterEntry (receiverParameter g {} <|> plainParameter g {}) true
      let rest ← many do return [← word ",", ← parameterEntry (plainParameter g {}) false]
      return first :: rest.flatten,
    one (word ")")]

end KernelLint.Java
