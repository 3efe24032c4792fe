import KernelLint.Yaml.Scalar

/-!
# Escapes in tags

In a tag a percent sign and two digits of base sixteen stand for one octet. Octets in a row make up
one character in UTF-8, whose first octet tells how many belong to it.
-/

namespace KernelLint.Yaml

/-- The octet that an escape stands for, and what follows it. -/
def octet? : List Char → Option (Nat × List Char)
  | '%' :: a :: b :: rest => (digits? 16 [a, b]).map (·, rest)
  | _ => none

/-- The number of octets behind the first one of a character, and the bits that the first one
gives. -/
def leadingOctet? (octet : Nat) : Option (Nat × Nat) :=
  if octet < 0x80 then some (0, octet)
  else if 0xC0 ≤ octet && octet < 0xE0 then some (1, octet - 0xC0)
  else if 0xE0 ≤ octet && octet < 0xF0 then some (2, octet - 0xE0)
  else if 0xF0 ≤ octet && octet < 0xF8 then some (3, octet - 0xF0)
  else none

/-- The bits of a character with those of some octets that follow, and what follows them. -/
def trailingOctets? : Nat → Nat → List Char → Option (Nat × List Char)
  | 0, bits, cs => some (bits, cs)
  | n + 1, bits, cs =>
    (octet? cs).bind fun (octet, rest) =>
      if 0x80 ≤ octet && octet < 0xC0 then trailingOctets? n (64 * bits + (octet - 0x80)) rest
      else none

/-- The least code point that needs some octets behind the first. -/
def leastCode : Nat → Nat
  | 0 => 0
  | 1 => 0x80
  | 2 => 0x800
  | _ => 0x10000

/-- The character of some bits. Bits that no character has in this length give the replacement
character, which no known tag contains. -/
def escapedChar (trailing bits : Nat) : Char :=
  if h : bits.isValidChar then
    if leastCode trailing ≤ bits then Char.ofNatAux bits h else '\ufffd'
  else '\ufffd'

/-- The text of a tag with its escapes read, or nothing when one of them is faulty. -/
def unescapeUri? : Nat → List Char → Option (List Char)
  | 0, _ => none
  | _, [] => some []
  | fuel + 1, c :: rest =>
    if c = '%' then
      (octet? (c :: rest)).bind fun (octet, after) =>
        (leadingOctet? octet).bind fun (trailing, bits) =>
          (trailingOctets? trailing bits after).bind fun (bits, after) =>
            (unescapeUri? fuel after).map (escapedChar trailing bits :: ·)
    else (unescapeUri? fuel rest).map (c :: ·)

/-- The text of a tag with its escapes read; it ends before a character of code zero. -/
def uriText? (cs : List Char) : Option String :=
  (unescapeUri? (cs.length + 1) cs).map fun text => String.ofList (text.takeWhile (· ≠ '\x00'))

end KernelLint.Yaml
