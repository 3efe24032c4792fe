/-!
# Cutting texts

Tests on the two ends of a text, cuts at a separator, and the replacement of a first occurrence. All
of them read a text as the list of its characters.
-/

namespace KernelLint.Text

def startsWith (s head : String) : Bool :=
  head.toList.isPrefixOf s.toList

def endsWith (s tail : String) : Bool :=
  tail.toList.isSuffixOf s.toList

/-- What follows `head` in a list of characters that begins with it. -/
def afterHead? : List Char → List Char → Option (List Char)
  | [], cs => some cs
  | _ :: _, [] => none
  | h :: hs, c :: cs => if h = c then afterHead? hs cs else none

/-- Replace the first occurrence of `old`; a text without one is kept. -/
def replaceFirstChars (old new : List Char) : List Char → List Char
  | [] => if old.isEmpty then new else []
  | c :: cs =>
    match afterHead? old (c :: cs) with
    | some rest => new ++ rest
    | none => c :: replaceFirstChars old new cs

/-- Replace the first occurrence of `old` by `new`. -/
def replaceFirst (old new s : String) : String :=
  String.ofList (replaceFirstChars old.toList new.toList s.toList)

/-- Does `part` occur somewhere in the list? -/
def hasInfixChars (part : List Char) : List Char → Bool
  | [] => part.isEmpty
  | c :: cs => part.isPrefixOf (c :: cs) || hasInfixChars part cs

def occursIn (part s : String) : Bool :=
  hasInfixChars part.toList s.toList

/-- Cut a list at the first `sep`, which is dropped. -/
def cutAt? (sep : Char) : List Char → Option (List Char × List Char)
  | [] => none
  | c :: cs => if c = sep then some ([], cs) else (cutAt? sep cs).map fun p => (c :: p.1, p.2)

/-- Cut a text at the first `sep`. -/
def splitFirst? (sep : Char) (s : String) : Option (String × String) :=
  (cutAt? sep s.toList).map fun p => (String.ofList p.1, String.ofList p.2)

/-- Cut a text at the last `sep`. -/
def splitLast? (sep : Char) (s : String) : Option (String × String) :=
  (cutAt? sep s.toList.reverse).map fun p =>
    (String.ofList p.2.reverse, String.ofList p.1.reverse)

def isDotted (s : String) : Bool :=
  s.toList.contains '.'

/-- What follows the last dot of a dotted name. -/
def lastSegment (s : String) : String :=
  match splitLast? '.' s with
  | some (_, tail) => tail
  | none => s

/-- Texts put one after another with `sep` in between. -/
def joinWith (sep : String) : List String → String
  | [] => ""
  | [s] => s
  | s :: rest => s ++ sep ++ joinWith sep rest

def copies (s : String) : Nat → String
  | 0 => ""
  | n + 1 => s ++ copies s n

/-- The number of occurrences of a character. -/
def countChar (c : Char) (s : String) : Nat :=
  s.toList.count c

end KernelLint.Text
