namespace TableServer

/-- A scalar value, or a surrogate that has no partner. The escapes of a JSON string can spell such a
surrogate, and it has no form in UTF-8. -/
inductive CodePoint
  | scalar (c : Char)
  /-- The surrogate at this distance from U+D800. -/
  | surrogate (offset : Fin 0x800)
  deriving DecidableEq, Repr, Inhabited

/-- Text as a record holds it. -/
abbrev Text := List CodePoint

namespace CodePoint

def toNat : CodePoint → Nat
  | scalar c => c.toNat
  | surrogate offset => 0xd800 + offset.val

/-- The code point of a sixteen bit unit that stands alone. -/
def ofUnit (unit : Nat) : CodePoint :=
  if 0xd800 ≤ unit ∧ unit < 0xe000 then surrogate (Fin.ofNat 0x800 (unit - 0xd800))
  else scalar (Char.ofNat unit)

def scalar? : CodePoint → Option Char
  | scalar c => some c
  | surrogate _ => none

end CodePoint

namespace Text

def ofChars (cs : List Char) : Text := cs.map .scalar

def ofString (s : String) : Text := ofChars s.toList

/-- The characters of a text without surrogates. -/
def chars? (t : Text) : Option (List Char) := t.mapM CodePoint.scalar?

end Text

/-- The character spelled by a high and a low surrogate. -/
def joinSurrogates (high low : Nat) : Char :=
  Char.ofNat (0x10000 + (high - 0xd800) * 0x400 + (low - 0xdc00))

/-- Sixteen bit units of a code point: two for a character beyond U+FFFF. -/
def CodePoint.units (p : CodePoint) : List Nat :=
  if p.toNat < 0x10000 then [p.toNat]
  else [0xd800 + (p.toNat - 0x10000) / 0x400, 0xdc00 + (p.toNat - 0x10000) % 0x400]

end TableServer
