import KernelLint.Java.Token

/-!
# Syntax trees

The tree of a source text over its tokens. Leaves are tokens; nodes have a kind and children, and a
child can play a named role in its parent. Text and span of a tree follow from its tokens.
-/

namespace KernelLint.Java

/-- The part a child plays in its parent. -/
inductive Role where
  | name | type | body | superclass | parameters | declarator | dimensions | value | condition
  | consequence | alternative | init | update | resources | object | member | arguments | operator
  | operand | left | right | array | index
  deriving DecidableEq, Inhabited

inductive LeafKind where
  /-- A keyword, operator or separator. -/
  | plain
  /-- An identifier in any use. -/
  | name
  | literal (kind : Literal)
  | thisWord
  | superWord
  /-- A primitive type or `void`. -/
  | primitive
  /-- Another leaf that stands for itself: the star of an import, the pattern that matches all, the
  way in which a module is required. -/
  | wild
  deriving DecidableEq, Inhabited

inductive NodeKind where
  | program | error
  /-- A semicolon that the text lacks. -/
  | missing
  -- declarations
  | packageDecl | importDecl | moduleDecl | moduleBody | moduleDirective | scopedName
  | classDecl | interfaceDecl | enumDecl | recordDecl | annotationTypeDecl
  | classBody | interfaceBody | enumBody | annotationTypeBody | enumBodyDecls | enumConstant
  | superclass | superInterfaces | extendsInterfaces | permits | typeList
  | typeParameters | typeParameter | typeBound
  | modifiers | markerUse | annotatedUse | annotatedArgs | elementPair | elementArray | elementDecl
  | fieldDecl | methodDecl | constructorDecl | compactConstructorDecl | staticInitializer
  | constructorBody | explicitConstructorCall
  | formalParameters | formalParameter | spreadParameter | receiverParameter | inferredParameters
  | throwsClause | variableDeclarator
  -- types
  | scopedType | genericType | arrayType | annotatedType | typeArguments | wildcard | dimensions
  -- statements
  | block | localDecl | expressionStmt | labeledStmt | ifStmt | whileStmt | doStmt | forStmt
  | enhancedForStmt | returnStmt | throwStmt | tryStmt | tryWithResources | assertStmt | breakStmt
  | continueStmt | yieldStmt | synchronizedStmt
  | catchClause | catchParameter | catchType | finallyClause | resourceSpec | resource
  -- switch
  | switchExpr | switchBlock | switchGroup | switchRule | switchLabel | guard
  | pattern | typePattern | recordPattern | recordPatternBody | recordPatternComponent
  -- expressions
  | assignment | binary | instanceofExpr | lambda | ternary | updateExpr | unary | cast | paren
  | objectCreation | arrayCreation | dimensionsExpr | arrayInitializer | fieldAccess | arrayAccess
  | methodCall | methodReference | classLiteral | argumentList | template
  deriving DecidableEq, Inhabited

inductive Tree where
  | leaf (role : Option Role) (kind : LeafKind) (token : Token)
  | node (role : Option Role) (kind : NodeKind) (children : List Tree)
  deriving Inhabited

namespace Tree

def role : Tree → Option Role
  | .leaf r _ _ => r
  | .node r _ _ => r

/-- The same tree in another part. -/
def as (t : Tree) (r : Role) : Tree :=
  match t with
  | .leaf _ k tok => .leaf (some r) k tok
  | .node _ k cs => .node (some r) k cs

def children : Tree → List Tree
  | .leaf .. => []
  | .node _ _ cs => cs

def nodeKind? : Tree → Option NodeKind
  | .leaf .. => none
  | .node _ k _ => some k

def isNode (t : Tree) (k : NodeKind) : Bool := t.nodeKind? = some k

def isOneOf (t : Tree) (ks : List NodeKind) : Bool :=
  t.nodeKind?.any ks.contains

/-- Is it a keyword, operator or separator, be it a missing one? -/
def isPlain : Tree → Bool
  | .leaf _ .plain _ => true
  | .node _ .missing _ => true
  | _ => false

def isName : Tree → Bool
  | .leaf _ .name _ => true
  | _ => false

/-- Is it the keyword, operator or separator of that text? -/
def isWord (t : Tree) (text : String) : Bool :=
  match t with
  | .leaf _ .plain tok => tok.text = text
  | _ => false

/-- The children that are no keywords, operators or separators. -/
def parts (t : Tree) : List Tree := t.children.filter (!·.isPlain)

def child? (t : Tree) (r : Role) : Option Tree := t.children.find? (·.role = some r)

def childrenAs (t : Tree) (r : Role) : List Tree := t.children.filter (·.role = some r)

def childOf? (t : Tree) (k : NodeKind) : Option Tree := t.children.find? (·.isNode k)

mutual

/-- The tokens of a tree from left to right. -/
def tokens : Tree → List Token
  | .leaf _ _ tok => [tok]
  | .node _ _ cs => tokensList cs

def tokensList : List Tree → List Token
  | [] => []
  | t :: rest => tokens t ++ tokensList rest

end

mutual

/-- The number of nodes on the longest way down to a leaf. -/
def height : Tree → Nat
  | .leaf .. => 0
  | .node _ _ cs => heightList cs + 1

def heightList : List Tree → Nat
  | [] => 0
  | t :: rest => max (height t) (heightList rest)

end

mutual

/-- Is there a node of one of these kinds in the tree? -/
def occurs (ks : List NodeKind) : Tree → Bool
  | .leaf .. => false
  | .node _ k cs => ks.contains k || occursList ks cs

/-- Is there a node of one of these kinds in one of the trees? -/
def occursList (ks : List NodeKind) : List Tree → Bool
  | [] => false
  | t :: rest => occurs ks t || occursList ks rest

end

/-- Does the tree contain a part that could not be read, or lack one? -/
def hasError (t : Tree) : Bool := t.occurs [.error, .missing]

def text (t : Tree) : String := Token.textOf t.tokens

def span (t : Tree) : Span := Token.spanOf t.tokens

end Tree

end KernelLint.Java
