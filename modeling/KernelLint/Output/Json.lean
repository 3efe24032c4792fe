import KernelLint.Text.Cut

/-!
# JSON text

Values of the JSON format and how they are written: two blanks of indentation a level, one entry a
line, and empty lists and objects on one line.
-/

namespace KernelLint

/-- A JSON value. All numbers that are written are natural numbers. -/
inductive JsonValue where
  | number (n : Nat)
  | text (s : String)
  | list (items : List JsonValue)
  | object (fields : List (String × JsonValue))
  deriving Inhabited

namespace JsonValue

/-- The digits of a control character in an escape. -/
def escapeDigits (n : Nat) : List Char :=
  let digits := Nat.toDigits 16 n
  List.replicate (4 - digits.length) '0' ++ digits

/-- How a character is written inside quotes. -/
def escapeChar (c : Char) : List Char :=
  if c = '"' then ['\\', '"']
  else if c = '\\' then ['\\', '\\']
  else if c = '\n' then ['\\', 'n']
  else if c = '\r' then ['\\', 'r']
  else if c = '\t' then ['\\', 't']
  else if c.toNat = 8 then ['\\', 'b']
  else if c.toNat = 12 then ['\\', 'f']
  else if c.toNat < 32 then ['\\', 'u'] ++ escapeDigits c.toNat
  else [c]

def quote (s : String) : String :=
  "\"" ++ String.ofList (s.toList.flatMap escapeChar) ++ "\""

/-- The start of a line at a depth. -/
def indent (depth : Nat) : String := "\n" ++ Text.copies "  " depth

/-- Entries between brackets, each on a line of its own. -/
def bracket (opening closing : String) (depth : Nat) : List String → String
  | [] => opening ++ closing
  | entries =>
    opening ++ indent (depth + 1) ++ Text.joinWith ("," ++ indent (depth + 1)) entries ++
      indent depth ++
      closing

mutual

def renderAt (depth : Nat) : JsonValue → String
  | .number n => toString n
  | .text s => quote s
  | .list items => bracket "[" "]" depth (renderItems (depth + 1) items)
  | .object fields => bracket "\x7b" "\x7d" depth (renderFields (depth + 1) fields)

def renderItems (depth : Nat) : List JsonValue → List String
  | [] => []
  | v :: rest => renderAt depth v :: renderItems depth rest

def renderFields (depth : Nat) : List (String × JsonValue) → List String
  | [] => []
  | (key, v) :: rest => (quote key ++ ": " ++ renderAt depth v) :: renderFields depth rest

end

def render (v : JsonValue) : String := renderAt 0 v

end JsonValue

end KernelLint
