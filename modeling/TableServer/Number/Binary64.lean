namespace TableServer

/-- A finite number is `± significand * 2 ^ exponent`, with a significand of at most 53 bits. -/
inductive Binary64
  | finite (negative : Bool) (significand : Nat) (exponent : Int)
  | infinite (negative : Bool)
  | nan
  deriving DecidableEq, Repr

namespace Binary64

def leastExponent : Int := -1074
def greatestExponent : Int := 971

/-- The quotient to the nearest, and a half to the even neighbour. -/
def roundQuotient (numerator denominator : Nat) : Nat :=
  let q := numerator / denominator
  let twice := 2 * (numerator % denominator)
  if denominator < twice then q + 1
  else if twice < denominator then q
  else if q % 2 = 0 then q else q + 1

/-- `n * 2 ^ shift` as a quotient. -/
def scaleBinary (shift : Int) (n d : Nat) : Nat × Nat :=
  if 0 ≤ shift then (n * Nat.pow 2 shift.toNat, d) else (n, d * Nat.pow 2 (-shift).toNat)

def scaleDecimal (shift : Int) (n d : Nat) : Nat × Nat :=
  if 0 ≤ shift then (n * Nat.pow 10 shift.toNat, d) else (n, d * Nat.pow 10 (-shift).toNat)

/-- The nearest number to a positive quotient. -/
def ofQuotient (negative : Bool) (numerator denominator : Nat) : Binary64 :=
  let guess : Int := (numerator.log2 : Int) - denominator.log2
  let (n, d) := scaleBinary (-guess) numerator denominator
  let magnitude := if d ≤ n then guess else guess - 1
  let exponent := max leastExponent (magnitude - 52)
  let (n, d) := scaleBinary (-exponent) numerator denominator
  let significand := roundQuotient n d
  let (significand, exponent) :=
    if significand = Nat.pow 2 53 then (Nat.pow 2 52, exponent + 1) else (significand, exponent)
  if greatestExponent < exponent then .infinite negative
  else .finite negative significand exponent

/-- The nearest number to `± digits * 10 ^ power`. Powers far outside the range are settled by the
count of digits alone. -/
def ofDecimal (negative : Bool) (digits : Nat) (power : Int) : Binary64 :=
  if digits = 0 then .finite negative 0 leastExponent
  else
    let size : Int := (Nat.toDigits 10 digits).length + power
    if 310 < size then .infinite negative
    else if size < -330 then .finite negative 0 leastExponent
    else
      let (n, d) := scaleDecimal power digits 1
      ofQuotient negative n d

/-- The magnitude of a finite number as a quotient. -/
def quotient (significand : Nat) (exponent : Int) : Nat × Nat :=
  scaleBinary exponent significand 1

/-- The integer that a number is, if it is one. -/
def integer? : Binary64 → Option Int
  | finite negative significand exponent =>
    let (n, d) := quotient significand exponent
    if n % d = 0 then some (if negative then -(n / d : Nat) else (n / d : Nat)) else none
  | infinite _ => none
  | nan => none

def isFinite : Binary64 → Bool
  | finite .. => true
  | infinite _ => false
  | nan => false

/-- Whether a number is zero or below. -/
def atMostZero : Binary64 → Bool
  | finite negative significand _ => negative || significand = 0
  | infinite negative => negative
  | nan => false

/-- Where the decimal point of a positive quotient stands: it is below `10 ^ point` and no smaller
power. -/
def decimalPoint (numerator denominator : Nat) : Int :=
  if denominator ≤ numerator then (Nat.toDigits 10 (numerator / denominator)).length
  else
    let shift := ((List.range 400).find? fun j => denominator ≤ numerator * Nat.pow 10 j).getD 400
    1 - (shift : Int)

/-- The decimal `digits * 10 ^ power` nearest to a number among those of `count` digits that read
back as it. -/
def decimalOfLength (significand : Nat) (exponent : Int) (count : Nat) : Option (Nat × Int) :=
  let (n, d) := quotient significand exponent
  let power := decimalPoint n d - count
  let (n', d') := scaleDecimal (-power) n d
  let below := n' / d'
  let readsBack := fun digits => ofDecimal false digits power == finite false significand exponent
  match readsBack below, readsBack (below + 1) with
  | true, true => some (roundQuotient n' d', power)
  | true, false => some (below, power)
  | false, true => some (below + 1, power)
  | false, false => none

/-- The shortest decimal that reads back; seventeen digits always do. -/
def shortest (significand : Nat) (exponent : Int) : Nat × Int :=
  ((List.range 17).findSome? fun i => decimalOfLength significand exponent (i + 1)).getD (0, 0)

def exponentText (e : Int) : List Char :=
  let digits := Nat.toDigits 10 e.natAbs
  (if e < 0 then '-' else '+') :: (if digits.length < 2 then '0' :: digits else digits)

/-- The text of a finite magnitude: positional from `10 ^ -4` to below `10 ^ 16`, and with a point in
any case where it is positional. -/
def magnitudeText (significand : Nat) (exponent : Int) : List Char :=
  if significand = 0 then ['0', '.', '0']
  else
    let (digits, power) := shortest significand exponent
    let digits := Nat.toDigits 10 digits
    let point := digits.length + power
    let digits := (digits.reverse.dropWhile (· = '0')).reverse
    if -4 < point ∧ point ≤ 16 then
      if point ≤ 0 then '0' :: '.' :: List.replicate (-point).toNat '0' ++ digits
      else
        let whole := digits.take point.toNat
        let fraction := digits.drop point.toNat
        whole ++ List.replicate (point.toNat - whole.length) '0' ++
          '.' :: (if fraction.isEmpty then ['0'] else fraction)
    else
      let fraction := digits.drop 1
      digits.take 1 ++ (if fraction.isEmpty then [] else '.' :: fraction) ++
        'e' :: exponentText (point - 1)

end Binary64

end TableServer
