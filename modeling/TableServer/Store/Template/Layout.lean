import TableServer.Store.Template.Fault
import TableServer.Text.Digit

namespace TableServer.Template

/-- Numbers beyond this are refused. -/
def greatestNumber : Nat := Nat.pow 2 63 - 1

/-- A number in decimal digits of any script. -/
def readNumber (soFar : Nat) : List Char → Except Fault (Option Nat)
  | [] => .ok (some soFar)
  | c :: rest =>
    match digitValue? c with
    | none => .ok none
    | some d =>
      if greatestNumber < soFar * 10 + d then .error .tooManyDigits else readNumber (soFar * 10 + d) rest

/-- The number that a name is, if it is one. -/
def number? (name : List Char) : Except Fault (Option Nat) :=
  if name.isEmpty then .ok none else readNumber 0 name

/-- Where the text stands in a field that is wider. -/
inductive Alignment
  | left
  | right
  | centre
  | afterSign
  deriving DecidableEq, Repr

def alignment? (c : Char) : Option Alignment :=
  if c = '<' then some .left
  else if c = '>' then some .right
  else if c = '^' then some .centre
  else if c = '=' then some .afterSign
  else none

/-- A layout as far as it is written. Some of its parts make sense for numbers alone. -/
structure Layout where
  fill : Char
  alignment : Option Alignment
  sign : Option Char
  negativeZero : Bool
  alternate : Bool
  width : Option Nat
  separator : Option Char
  precision : Option Nat
  kind : Option Char
  deriving DecidableEq, Repr

/-- An alignment with the fill character before it, if one is given. -/
def readAlignment (cs : List Char) : Option Char × Option Alignment × List Char :=
  match cs with
  | fill :: mark :: rest =>
    match alignment? mark, alignment? fill with
    | some a, _ => (some fill, some a, rest)
    | none, some a => (none, some a, mark :: rest)
    | none, none => (none, none, cs)
  | [mark] => (none, alignment? mark, if (alignment? mark).isSome then [] else cs)
  | [] => (none, none, cs)

/-- Takes a character that is in a class. -/
def takeOne (p : Char → Bool) (cs : List Char) : Option Char × List Char :=
  match cs with
  | c :: rest => if p c then (some c, rest) else (none, cs)
  | [] => (none, cs)

def takeNumber (cs : List Char) : Except Fault (Option Nat × List Char) := do
  let isDigit := fun c => (digitValue? c).isSome
  let n ← number? (cs.takeWhile isDigit)
  .ok (n, cs.dropWhile isDigit)

/-- A separator of thousands: one of two marks and not both. -/
def takeSeparator (cs : List Char) : Except Fault (Option Char × List Char) :=
  match cs with
  | ',' :: '_' :: _ => .error .bothSeparators
  | '_' :: ',' :: _ => .error .bothSeparators
  | ',' :: rest => .ok (some ',', rest)
  | '_' :: rest => .ok (some '_', rest)
  | cs => .ok (none, cs)

def takePrecision (cs : List Char) : Except Fault (Option Nat × List Char) :=
  match cs with
  | '.' :: rest => do
    match ← takeNumber rest with
    | (none, _) => .error .missingPrecision
    | (some n, rest) => .ok (some n, rest)
  | cs => .ok (none, cs)

/-- Kinds of numbers that a separator can go with. -/
def separable (mark kind : Char) : Bool :=
  ['d', 'e', 'f', 'g', 'E', 'G', '%', 'F', '\x00'].contains kind ||
    (mark = '_' && ['b', 'o', 'x', 'X'].contains kind)

/-- The kind of layout for a kind of values, where none is given. -/
def usualKind (k : Kind) : Char := if k = .text then 's' else 'd'

/-- Reads a layout for values of a kind. Zeros in front go between the sign of a number and its digits,
unless an alignment is given. -/
def readLayout (k : Kind) (text : List Char) : Except Fault Layout := do
  let (fill, alignment, cs) := readAlignment text
  let (sign, cs) := takeOne (fun c => c = ' ' || c = '+' || c = '-') cs
  let (zero, cs) := takeOne (· = 'z') cs
  let (alternate, cs) := takeOne (· = '#') cs
  let (padding, cs) := if fill.isSome then (none, cs) else takeOne (· = '0') cs
  let (width, cs) ← takeNumber cs
  let (separator, cs) ← takeSeparator cs
  let (precision, cs) ← takePrecision cs
  let kind ← match cs with
    | [] => .ok none
    | [c] => .ok (some c)
    | _ => .error (.malformedLayout (String.ofList text) k)
  let chosen := kind.getD (usualKind k)
  match separator with
  | some mark => if separable mark chosen then .ok () else .error (.separator mark chosen)
  | none => .ok ()
  let afterSign := if padding.isSome ∧ k ≠ .text then some Alignment.afterSign else none
  .ok ⟨(fill.or padding).getD ' ', alignment.or afterSign, sign, zero.isSome, alternate.isSome, width,
    separator, precision, kind⟩

/-- No more characters than this are made for a field. It stands for the memory of a machine: there is no
such bound in the language of templates, which lays out wider fields as long as memory lasts, and the
number is one that is small enough for any machine. -/
def greatestWidth : Nat := Nat.pow 2 26

/-- Fields that are too wide for the memory are refused before they are filled up. -/
def Layout.checkSize (l : Layout) : Except Fault Unit :=
  if greatestWidth < l.width.getD 0 ∨ greatestWidth < l.precision.getD 0 then .error .outOfMemory
  else .ok ()

/-- A text between its padding; `middle` is where padding goes that follows a sign. -/
def Layout.pad (l : Layout) (usual : Alignment) (sign body : List Char) : List Char :=
  let room := l.width.getD 0 - (sign.length + body.length)
  let padding := fun n => List.replicate n l.fill
  match l.alignment.getD usual with
  | .left => sign ++ body ++ padding room
  | .right => padding room ++ sign ++ body
  | .centre => padding (room / 2) ++ sign ++ body ++ padding (room - room / 2)
  | .afterSign => sign ++ padding room ++ body

/-- Whatever makes sense for numbers alone is refused. -/
def Layout.checkText (l : Layout) : Except Fault Unit :=
  let kind := l.kind.getD 's'
  if kind ≠ 's' then .error (.unknownKind kind .text)
  else if l.sign = some ' ' then .error .space
  else if l.sign.isSome then .error .sign
  else if l.negativeZero then .error .negativeZero
  else if l.alternate then .error .alternate
  else if l.alignment = some .afterSign then .error .signAlignment
  else if greatestWidth < l.width.getD 0 then .error .outOfMemory
  else .ok ()

/-- A text cut to the precision and filled up to the width. -/
def Layout.text (l : Layout) (cs : List Char) : List Char :=
  l.pad .left [] ((l.precision.map fun n => cs.take n).getD cs)

/-- Digits from the last to the first with a mark between groups, and zeros behind them up to a width;
`left` counts the digits to the next mark. -/
def groupDigits (mark : Char) (size : Nat) : (left : Nat) → (width : Nat) → List Char → List Char
  | left, width, d :: rest =>
    if left = 0 then mark :: d :: groupDigits mark size (size - 1) (width - 2) rest
    else d :: groupDigits mark size (left - 1) (width - 1) rest
  | left, width + 1, [] =>
    if left = 0 then mark :: '0' :: groupDigits mark size (size - 1) (width - 1) []
    else '0' :: groupDigits mark size (left - 1) width []
  | _, 0, [] => []
  termination_by _ width digits => width + digits.length
  decreasing_by all_goals simp only [List.length_cons, List.length_nil]; omega

/-- The digits of a number in groups, with zeros before them up to a width. -/
def Layout.grouped (l : Layout) (size width : Nat) (digits : List Char) : List Char :=
  match l.separator with
  | some mark => (groupDigits mark size size width digits.reverse).reverse
  | none => List.replicate (width - digits.length) '0' ++ digits

/-- A number by its parts: the sign with a mark of the base, digits, and what follows them. -/
def Layout.number (l : Layout) (mark : List Char) (size : Nat) (digits rest : List Char) : List Char :=
  let sign := (match l.sign with
    | some '+' => ['+']
    | some ' ' => [' ']
    | _ => []) ++ mark
  let isZeroFilled := l.fill = '0' && l.alignment = some .afterSign
  let width := if isZeroFilled then l.width.getD 0 - (sign.length + rest.length) else 0
  l.pad .right sign (l.grouped size width digits ++ rest)

/-- A number in a base, with the mark of the base in the alternate form. -/
def Layout.inBase (l : Layout) (n base : Nat) (mark : List Char) (capital : Bool) : List Char :=
  let digits := Nat.toDigits base n
  let digits := if capital then digits.map Char.toUpper else digits
  l.number (if l.alternate then mark else []) (if base = 10 then 3 else 4) digits []

/-- A quotient, rounded to the nearest, and to an even number halfway. -/
def roundQuotient (n d : Nat) : Nat :=
  let (q, r) := (n / d, n % d)
  if d < 2 * r ∨ (2 * r = d ∧ q % 2 = 1) then q + 1 else q

/-- The nearest number with no more than fifty-three binary digits before its zeros. -/
def nearestReal (n : Nat) : Nat :=
  let unit := Nat.pow 2 (n.log2 - 52)
  roundQuotient n unit * unit

/-- The digits of a number of significant places, and the power of ten that the first stands for. -/
def significant (n count : Nat) : List Char × Nat :=
  let length := (Nat.toDigits 10 n).length
  if length ≤ count then
    (Nat.toDigits 10 n ++ List.replicate (count - length) '0', length - 1)
  else
    let digits := Nat.toDigits 10 (roundQuotient n (Nat.pow 10 (length - count)))
    (digits.take count, length - 1 + (digits.length - count))

def trimZeros (cs : List Char) : List Char := (cs.reverse.dropWhile (· = '0')).reverse

/-- The part behind the digits: a point with the places, where there are any or one is asked for. -/
def Layout.places (l : Layout) (places : List Char) : List Char :=
  if places.isEmpty ∧ !l.alternate then [] else '.' :: places

/-- The power of ten behind a number. -/
def shownPower (capital : Bool) (power : Nat) : List Char :=
  let digits := Nat.toDigits 10 power
  (if capital then 'E' else 'e') :: '+' :: List.replicate (2 - digits.length) '0' ++ digits

/-- A number with one digit before the point. -/
def Layout.scientific (l : Layout) (n : Nat) (capital : Bool) : List Char :=
  let (digits, power) := significant n (l.precision.getD 6 + 1)
  l.number [] 3 (digits.take 1) (l.places (digits.drop 1) ++ shownPower capital power)

/-- A number with places behind the point, and a mark behind them. -/
def Layout.fixed (l : Layout) (n : Nat) (mark : List Char) : List Char :=
  l.number [] 3 (Nat.toDigits 10 n) (l.places (List.replicate (l.precision.getD 6) '0') ++ mark)

/-- A number with so many significant digits, and with a power of ten where they are not enough. -/
def Layout.general (l : Layout) (n : Nat) (capital : Bool) : List Char :=
  let count := max 1 (l.precision.getD 6)
  let (digits, power) := significant n count
  let keep := fun places => if l.alternate then places else trimZeros places
  if power < count then
    l.number [] 3 (digits.take (power + 1)) (l.places (keep (digits.drop (power + 1))))
  else l.number [] 3 (digits.take 1) (l.places (keep (digits.drop 1)) ++ shownPower capital power)

/-- A number as the character that it is the number of. -/
def Layout.character (l : Layout) (n : Nat) : Except Fault (List Char) :=
  if l.sign.isSome then .error .characterSign
  else if l.alternate then .error .characterAlternate
  else if 0x10ffff < n then .error .characterRange
  else .ok (l.pad .right [] [Char.ofNat n])

/-- A whole number in digits takes no precision. -/
def Layout.checkWhole (l : Layout) : Except Fault Unit :=
  if l.precision.isSome then .error .numberPrecision
  else if l.negativeZero then .error .numberNegativeZero
  else .ok ()

/-- Lays out a number of a kind of values. -/
def Layout.ofNumber (l : Layout) (k : Kind) (n : Nat) : Except Fault (List Char) := do
  l.checkSize
  let kind := l.kind.getD 'd'
  if ['d', 'n', 'b', 'o', 'x', 'X', 'c'].contains kind then l.checkWhole
  match kind with
  | 'd' => .ok (l.inBase n 10 [] false)
  | 'n' => .ok (l.inBase n 10 [] false)
  | 'b' => .ok (l.inBase n 2 ['0', 'b'] false)
  | 'o' => .ok (l.inBase n 8 ['0', 'o'] false)
  | 'x' => .ok (l.inBase n 16 ['0', 'x'] false)
  | 'X' => .ok (l.inBase n 16 ['0', 'X'] true)
  | 'c' => l.character n
  | 'e' => .ok (l.scientific (nearestReal n) false)
  | 'E' => .ok (l.scientific (nearestReal n) true)
  | 'f' => .ok (l.fixed (nearestReal n) [])
  | 'F' => .ok (l.fixed (nearestReal n) [])
  | 'g' => .ok (l.general (nearestReal n) false)
  | 'G' => .ok (l.general (nearestReal n) true)
  | '%' => .ok (l.fixed (nearestReal (nearestReal n * 100)) ['%'])
  | kind => .error (.unknownKind kind k)

/-- A value as a layout wants it: filled up to a width, cut to a precision, and in some form. -/
def layOut (layout : List Char) (s : Subject) : Except Fault (List Char) :=
  if layout.isEmpty then .ok s.shown
  else match s with
    | .text cs => do
      let l ← readLayout .text layout
      l.checkText
      .ok (l.text cs)
    | .number n => do (← readLayout .number layout).ofNumber .number n
    | .truth b => do (← readLayout .truth layout).ofNumber .truth b.toNat
    | s => .error (.noLayout s.kindOf)

end TableServer.Template
