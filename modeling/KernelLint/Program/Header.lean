import KernelLint.Text.Blank
import KernelLint.Text.Cut

/-!
# The header of a declaration

The text of a method declaration up to its body: everything before the first `{` or `;` that stands
outside parentheses, quotes and comments.
-/

namespace KernelLint.Header

/-- What the scanner is inside of. -/
inductive Mode where
  | code
  /-- Between quotes of the given sort. -/
  | quoted (quote : Char)
  /-- Right after a backslash between quotes. -/
  | escaped (quote : Char)
  | lineComment
  /-- At the star that opens a block comment. -/
  | commentOpen
  | comment
  /-- At the slash that closes a block comment. -/
  | commentClose
  deriving DecidableEq

/-- The mode after a character; `next` is the character after it. -/
def Mode.after (c : Char) (next : Option Char) : Mode → Mode
  | .code =>
    if c = '"' ∨ c = '\'' then .quoted c
    else if c = '/' ∧ next = some '/' then .lineComment
    else if c = '/' ∧ next = some '*' then .commentOpen
    else .code
  | .quoted q => if c = q then .code else if c = '\\' then .escaped q else .quoted q
  | .escaped q => .quoted q
  | .lineComment => if c = '\n' then .code else .lineComment
  | .commentOpen => .comment
  | .comment => if c = '*' ∧ next = some '/' then .commentClose else .comment
  | .commentClose => .code

/-- The parentheses open after a character of code. -/
def parensAfter (c : Char) (open_ : Nat) : Nat :=
  if c = '(' then open_ + 1 else if c = ')' then open_ - 1 else open_

/-- The characters before the body. -/
def scan : Mode → Nat → List Char → List Char
  | _, _, [] => []
  | .code, parens, c :: rest =>
    if (c = '{' ∨ c = ';') ∧ parens = 0 then []
    else c :: scan (Mode.after c rest.head? .code) (parensAfter c parens) rest
  | mode, parens, c :: rest => c :: scan (mode.after c rest.head?) parens rest

end KernelLint.Header

namespace KernelLint

/-- The text before the body of a declaration. -/
def declarationHeader (text : String) : String :=
  String.ofList (Header.scan .code 0 text.toList)

/-- The declaration with its body replaced by `body`, or by `;` when there is none. -/
def withBodyText (text : String) (body : Option String) : String :=
  let header := Text.trimEnd (declarationHeader text)
  match body with
  | some source => header ++ " " ++ Text.trim source
  | none => header ++ ";"

/-- The declaration with the first `old(` in it replaced by `new(`. -/
def withNameText (text old new : String) : String :=
  Text.replaceFirst (old ++ "(") (new ++ "(") text

end KernelLint
