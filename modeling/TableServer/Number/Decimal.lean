import TableServer.Number.Binary64
import TableServer.Number.Numeral
import TableServer.Text.Digit

namespace TableServer.Decimal

/-- The most digits of an integer. -/
def digitLimit : Nat := 4300

/-- A minus or plus sign, if there is one, and what follows. -/
def splitSign : List Char → Bool × List Char
  | '-' :: rest => (true, rest)
  | '+' :: rest => (false, rest)
  | cs => (false, cs)

/-- The values of digits, of which there has to be one at least. -/
def digits? (cs : List Char) : Option (List Nat) :=
  if Numeral.underscoresSplit false cs then (cs.filter (· ≠ '_')).mapM digitValue? else none

def ofDigits (digits : List Nat) : Nat := digits.foldl (fun n d => n * 10 + d) 0

def negateIf (negative : Bool) (n : Nat) : Int := if negative then -n else n

/-- An integer as typed on a command line, in decimal digits of any script. Blanks may stand around a
number and single underscores between its digits. -/
def readInteger? (cs : List Char) : Option Int := do
  let (negative, unsigned) := splitSign (trimBoth isSpace cs)
  let digits ← digits? unsigned
  if digitLimit < digits.length then none else some (negateIf negative (ofDigits digits))

/-- Values that have names. -/
def named? (negative : Bool) (cs : List Char) : Option Binary64 :=
  let name := String.ofList (cs.map Char.toLower)
  if name = "inf" ∨ name = "infinity" then some (.infinite negative)
  else if name = "nan" then some .nan
  else none

def isPoint (c : Char) : Bool := c = '.'

def isExponentMark (c : Char) : Bool := c = 'e' || c = 'E'

/-- Digits that may be missing altogether. -/
def digitsOrNone? (cs : List Char) : Option (List Nat) := if cs.isEmpty then some [] else digits? cs

/-- The power of ten behind an exponent mark. -/
def readExponent? (cs : List Char) : Option Int :=
  match cs with
  | [] => some 0
  | _ :: rest => do
    let (negative, unsigned) := splitSign rest
    some (negateIf negative (ofDigits (← digits? unsigned)))

/-- A number with a point and an exponent, as typed on a command line. Blanks and underscores may stand
where they may in an integer. -/
def readReal? (cs : List Char) : Option Binary64 :=
  let (negative, unsigned) := splitSign (trimBoth isSpace cs)
  match named? negative unsigned with
  | some x => some x
  | none => do
    let mantissa := unsigned.takeWhile fun c => !isExponentMark c
    let power ← readExponent? (unsigned.drop mantissa.length)
    let whole ← digitsOrNone? (mantissa.takeWhile fun c => !isPoint c)
    let places ← digitsOrNone? ((mantissa.dropWhile fun c => !isPoint c).drop 1)
    if whole.isEmpty && places.isEmpty then none
    else some (.ofDecimal negative (ofDigits (whole ++ places)) (power - places.length))

end TableServer.Decimal
