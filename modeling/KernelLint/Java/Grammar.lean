import KernelLint.Java.Grammar.Declaration
import KernelLint.Java.Lexer

/-!
# The grammar

The rules of all goals tied together, and the tree of a source text.
-/

namespace KernelLint.Java

/-- One rule for every goal. -/
def Grammar.step (g : Grammar) : Grammar
  | .expression place => expression g place
  | .statement switchEnd => statement g switchEnd
  | .block => block g
  | .type => annotatedType g []
  | .marking declares => marking g declares
  | .elementValue => elementValue g
  | .initializer => initializer g
  | .classBody => classBody g
  | .typeDecl => typeDecl g
  | .recordPattern inLabel => recordPattern g inLabel

/-- The grammar for trees that nest at most `depth` goals. -/
def Grammar.upTo : Nat → Grammar
  | 0 => fun _ => failure
  | depth + 1 => (upTo depth).step

/-- The most goals that nest in a text of some tokens. Between two goals in one place a token is
read, or one of few chains of goals is gone down. -/
def Grammar.depthFor (tokens : Nat) : Nat := 8 * tokens + 32

def Tree.ofSource (source : String) : Tree :=
  let tokens := Token.scan source
  let g := Grammar.upTo (Grammar.depthFor tokens.length)
  match (program g).run tokens with
  | some (t, _) => t
  | none => .node none .program []

end KernelLint.Java
