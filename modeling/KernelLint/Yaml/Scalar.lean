/-!
# What plain scalars mean

Null, booleans and numbers among plain texts. A number with leading zeros is no number.
-/

namespace KernelLint.Yaml

def isNullText (s : String) : Bool := ["null", "Null", "NULL", "~"].contains s

def boolText? (s : String) : Option Bool :=
  if ["true", "True", "TRUE"].contains s then some true
  else if ["false", "False", "FALSE"].contains s then some false
  else none

/-- Without a sign at the front. -/
def dropSign : List Char → List Char
  | '-' :: rest => rest
  | '+' :: rest => rest
  | cs => cs

/-- Digits behind a leading zero. -/
def isPaddedNumber (cs : List Char) : Bool :=
  match dropSign cs with
  | '0' :: d :: rest => (d :: rest).all Char.isDigit
  | _ => false

/-- The value of a digit in a base up to sixteen. -/
def digitValue? (base : Nat) (c : Char) : Option Nat :=
  let value :=
    if c.isDigit then c.toNat - '0'.toNat
    else if 'a' ≤ c && c ≤ 'f' then c.toNat - 'a'.toNat + 10
    else if 'A' ≤ c && c ≤ 'F' then c.toNat - 'A'.toNat + 10
    else base
  if value < base then some value else none

/-- The number some digits write. -/
def digits? (base : Nat) (cs : List Char) : Option Nat :=
  if cs.isEmpty then none
  else cs.foldl (fun acc c => acc.bind fun n => (digitValue? base c).map (n * base + ·)) (some 0)

/-- The base and the digits of a number without its sign. -/
def numberForm : List Char → Nat × List Char
  | '0' :: 'x' :: rest => (16, rest)
  | '0' :: 'o' :: rest => (8, rest)
  | '0' :: 'b' :: rest => (2, rest)
  | cs => (10, cs)

def dropPlus : List Char → List Char
  | '+' :: rest => rest
  | cs => cs

/-- The natural number a plain text writes. -/
def natText? (s : String) : Option Nat :=
  let cs := s.toList
  let (base, ds) := numberForm (dropPlus cs)
  if base = 10 && isPaddedNumber cs then none else digits? base ds

/-- The natural number whose negation a plain text writes. -/
def negatedText? (s : String) : Option Nat :=
  match s.toList with
  | '-' :: rest =>
    let (base, ds) := numberForm rest
    if base = 10 && isPaddedNumber rest then none else digits? base ds
  | _ => none

/-! ## Floating-point texts -/

/-- The parts of a decimal number: digits before and after the point, and the exponent. -/
structure Decimal where
  whole : List Char
  fraction : List Char
  exponent : Int

def exponent? : List Char → Option Int
  | [] => some 0
  | e :: rest =>
    if e = 'e' || e = 'E' then
      match rest with
      | '-' :: ds => (digits? 10 ds).map fun n => -(n : Int)
      | '+' :: ds => (digits? 10 ds).map fun n => (n : Int)
      | ds => (digits? 10 ds).map fun n => (n : Int)
    else none

def decimal? (cs : List Char) : Option Decimal :=
  let whole := cs.takeWhile Char.isDigit
  let rest := cs.dropWhile Char.isDigit
  let (fraction, rest) := match rest with
    | '.' :: more => (more.takeWhile Char.isDigit, more.dropWhile Char.isDigit)
    | _ => ([], rest)
  if whole.isEmpty && fraction.isEmpty then none
  else (exponent? rest).map fun exponent => ⟨whole, fraction, exponent⟩

/-- Does the number round to a finite double? The bound is the least number that rounds to
infinity. -/
def Decimal.isFinite (d : Decimal) : Bool :=
  let mantissa := ((d.whole ++ d.fraction).foldl (fun n c => n * 10 + (c.toNat - '0'.toNat)) 0)
  let scale := d.exponent - (d.fraction.length : Int)
  let size : Int := (d.whole.length + d.fraction.length : Nat)
  let bound := Nat.pow 2 1024 - Nat.pow 2 970
  if mantissa = 0 then true
  else if scale ≥ 400 then false
  else if scale + size ≤ 0 then true
  else if scale ≥ 0 then mantissa * Nat.pow 10 scale.toNat < bound
  else mantissa < bound * Nat.pow 10 (-scale).toNat

def isFloatText (s : String) : Bool :=
  let cs := s.toList
  let unsigned := dropPlus cs
  let body := match unsigned with
    | '-' :: rest => rest
    | _ => unsigned
  let doubled := cs.head? = some '+' && (unsigned.head? = some '+' || unsigned.head? = some '-')
  if isPaddedNumber cs || doubled then false
  else
    [".inf", ".Inf", ".INF"].contains (String.ofList body)
      || [".nan", ".NaN", ".NAN"].contains s
      || (decimal? body).any Decimal.isFinite

/-- Would a plain text be read as something other than a string? The bounds are those of 128-bit
integers, beyond which an integer is still a floating-point number. -/
def isPlainNonString (s : String) : Bool :=
  s = "" || isNullText s || (boolText? s).isSome || (natText? s).any (· < Nat.pow 2 128)
    || (negatedText? s).any (· ≤ Nat.pow 2 127) || isFloatText s

end KernelLint.Yaml
