import TableServer.Text.Printable

namespace TableServer

/-- A number in base sixteen, in at least `width` digits. -/
def hexadecimal (width n : Nat) : List Char :=
  let digits := Nat.toDigits 16 n
  List.replicate (width - digits.length) '0' ++ digits

/-- The shortest numeric escape that can spell a character. -/
def numericEscape (c : Char) : List Char :=
  if c.toNat ≤ 0xff then '\\' :: 'x' :: hexadecimal 2 c.toNat
  else if c.toNat ≤ 0xffff then '\\' :: 'u' :: hexadecimal 4 c.toNat
  else '\\' :: 'U' :: hexadecimal 8 c.toNat

/-- One character inside a literal closed by `quote`; `keep` says what is shown as it is. -/
def literalChar (keep : Char → Bool) (quote c : Char) : List Char :=
  if c = quote ∨ c = '\\' then ['\\', c]
  else if c = '\n' then ['\\', 'n']
  else if c = '\r' then ['\\', 'r']
  else if c = '\t' then ['\\', 't']
  else if keep c then [c]
  else numericEscape c

/-- Single quotes, unless the text holds one of these and no double quote. -/
def literalQuote (cs : List Char) : Char :=
  if cs.contains '\'' && !cs.contains '"' then '"' else '\''

def literalWith (keep : Char → Bool) (s : String) : String :=
  let quote := literalQuote s.toList
  String.ofList (quote :: s.toList.flatMap (literalChar keep quote) ++ [quote])

/-- A text as a quoted literal, for messages that show a name exactly. -/
def quoted (s : String) : String := literalWith isPrintable s

/-- A literal in ASCII alone. -/
def quotedAscii (s : String) : String :=
  literalWith (fun c => isPrintable c && c.toNat < 0x80) s

end TableServer
