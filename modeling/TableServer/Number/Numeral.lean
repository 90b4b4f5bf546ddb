import TableServer.Text.Blank

namespace TableServer.Numeral

/-- Why a text is no numeral that is read. -/
inductive Fault
  | malformed
  | tooLong
  deriving DecidableEq, Repr

/-- The most digits that a numeral may have. -/
def digitLimit : Nat := 4300

/-- A minus sign, if there is one, and what follows. -/
def splitMinus : List Char → Bool × List Char
  | '-' :: rest => (true, rest)
  | cs => (false, cs)

/-- A plain numeral: a zero, or digits that do not start with one, behind a minus sign or none. Too many
digits are found before any character that has no place there. -/
def readPlain (cs : List Char) : Except Fault Int :=
  let (negative, unsigned) := splitMinus cs
  let digits := unsigned.takeWhile Char.isDigit
  if digits.head? = some '0' then
    if unsigned = ['0'] then .ok 0 else .error .malformed
  else if digitLimit < digits.length then .error .tooLong
  else if digits.isEmpty ∨ digits.length ≠ unsigned.length then .error .malformed
  else
    let n : Nat := Nat.ofDigitChars 10 digits 0
    .ok (if negative then -n else n)

/-- The text without the zeros in front, where underscores may stand between them. The last zero stays
if nothing follows or a point does, and a minus sign may come behind zeros as well as before them. -/
def dropZeros? : List Char → Option (List Char)
  | [] => none
  | c :: rest =>
    if c = '0' then
      let isFiller := fun c => c = '0' || c = '_'
      let last := (c :: rest.takeWhile isFiller).getLast?.toList
      match rest.dropWhile isFiller with
      | [] => some last
      | '.' :: rest => some (last ++ '.' :: rest)
      | d :: rest => if d.isDigit || d = '-' then some (d :: rest) else none
    else if c.isDigit then some (c :: rest)
    else none

/-- The text without a fraction of zeros. -/
def dropFraction? (cs : List Char) : Option (List Char) :=
  match cs.dropWhile (· ≠ '.') with
  | [] => some cs
  | _ :: places =>
    if !places.isEmpty && places.all (· = '0') then some (cs.takeWhile (· ≠ '.')) else none

/-- Whether every underscore stands between other characters than underscores; `after` says that such a
character comes before. -/
def underscoresSplit (after : Bool) : List Char → Bool
  | [] => after
  | c :: rest => if c = '_' then after && underscoresSplit false rest else underscoresSplit true rest

def dropUnderscores (cs : List Char) : List Char :=
  if underscoresSplit false cs then cs.filter (· ≠ '_') else cs

/-- The plain numeral that a text is tidied to. -/
def tidy? (cs : List Char) : Option (List Char) := do
  let cs := trimBoth isSpace cs
  let (sign, unsigned) :=
    match cs with
    | '+' :: rest => ([], rest)
    | '-' :: rest => (['-'], rest)
    | cs => ([], cs)
  let digits ← dropZeros? unsigned
  let digits ← dropFraction? digits
  some (sign ++ dropUnderscores digits)

/-- Reads an integer as people type it: beside the plain numeral there may be blanks around it, a plus
sign, zeros in front, zeros after a point, and single underscores between digits. That there are too many
digits is told only of a text that needs no tidying. -/
def read (cs : List Char) : Except Fault Int :=
  match readPlain cs with
  | .error .malformed =>
    match (tidy? cs).map readPlain with
    | some (.ok n) => .ok n
    | _ => .error .malformed
  | result => result

end TableServer.Numeral
