import KernelLint.Java.Lexeme

/-!
# From text to tokens

A text is cut into tokens from front to back. What follows the last token is dropped.
-/

namespace KernelLint.Java

namespace Token

/-- The tokens of a text that begins at a location. -/
def scanFrom : Nat → Location → List Char → List Token
  | 0, _, _ => []
  | fuel + 1, start, cs =>
    let gap := Lexeme.gap cs.length cs
    let gapText := cs.take gap
    match cs.drop gap with
    | [] => []
    | body =>
      let (kind, length) := Lexeme.token body
      let first := start.after gapText
      let last := first.after (body.take length)
      { kind
        gap := String.ofList gapText
        text := String.ofList (body.take length)
        span := ⟨first.line, first.column, last.line, last.column⟩ } ::
        scanFrom fuel last (body.drop length)

/-- The tokens of a source text. A byte order mark at the very front counts as white space. -/
def scan (source : String) : List Token :=
  let cs := source.toList
  match cs with
  | '\ufeff' :: rest => scanFrom cs.length ⟨1, 3⟩ rest
  | _ => scanFrom cs.length ⟨1, 0⟩ cs

end Token

end KernelLint.Java
