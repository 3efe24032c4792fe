/-!
# Words with a meaning

No word is reserved everywhere: a word is a keyword only in a place where that keyword can stand,
and a name in any other. The lists here are the keywords that can stand in some kind of place.
-/

namespace KernelLint.Java.Word

/-- The primitive types and `void`. -/
def primitive : List String :=
  ["byte", "short", "int", "long", "char", "float", "double", "boolean", "void"]

def modifier : List String :=
  ["public", "protected", "private", "abstract", "static", "final", "strictfp", "default",
   "synchronized", "native", "transient", "volatile", "sealed"]

/-- The modifiers that are keywords wherever a modifier can stand. -/
def fixedModifier : List String := modifier.erase "sealed"

/-- The keywords that can begin an operand and name no type. -/
def value : List String := ["this", "super", "new", "switch", "true", "false", "null"]

def operand : List String := primitive ++ value

/-- The words that can name variables and methods but no types where a value may stand as well. -/
def contextual : List String := ["module", "open", "record", "sealed", "with", "yield"]

def classSort : List String := ["class", "enum", "interface"]

/-- The keywords of statements and of the header of a source file, those that are modifiers or
operands as well apart. -/
def statementSort : List String :=
  ["assert", "break", "continue", "do", "for", "if", "import", "package", "return", "throw",
    "try", "while"]

/-- The keywords that can begin a statement or a declaration in its place. -/
def statement : List String := fixedModifier ++ operand ++ classSort ++ statementSort

/-- The words that name no type at the front of a member. -/
def member : List String := modifier ++ classSort ++ ["record"]

/-- The words that name no type where a value may stand as well. -/
def typeOrValue : List String := value ++ contextual

/-- The words that name no type behind an opening parenthesis. -/
def behindParenthesis : List String := modifier ++ typeOrValue

/-- The words that name no type in front of a variable that a statement declares. -/
def localType : List String := behindParenthesis ++ classSort ++ statementSort

/-- The words that name no variable behind the type that it is tested against. -/
def test : List String := ["instanceof", "when"]

end KernelLint.Java.Word
