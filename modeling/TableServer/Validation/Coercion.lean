import TableServer.Json.Value
import TableServer.Number.Numeral
import TableServer.Validation.Issue

namespace TableServer.Json.Value

/-- Reals are taken for integers strictly between these bounds. -/
def integerBound : Int := Nat.pow 2 63

/-- A value taken for an integer. Truth values, reals without a fraction and numerals are taken for one.
-/
def asInteger : Value → Except Cause Int
  | .integer n => .ok n
  | .boolean b => .ok (if b then 1 else 0)
  | .real x =>
    if !x.isFinite then .error .notFinite
    else match x.integer? with
      | none => .error .fractional
      | some n => if -integerBound < n ∧ n < integerBound then .ok n else .error .hugeInteger
  | .string t =>
    match t.chars? with
    | none => .error .unpairedSurrogate
    | some cs =>
      match Numeral.read cs with
      | .ok n => .ok n
      | .error .malformed => .error .malformedInteger
      | .error .tooLong => .error .hugeInteger
  | .null => .error .noInteger
  | .array _ => .error .noInteger
  | .object _ => .error .noInteger

/-- A string is a string only. -/
def asString : Value → Except Cause Text
  | .string t => .ok t
  | _ => .error .noString

/-- The truth value that a word or a digit stands for. -/
def truthValue? (cs : List Char) : Option Bool :=
  let word := String.ofList (cs.map Char.toLower)
  if ["0", "f", "n", "no", "off", "false"].contains word then some false
  else if ["1", "t", "y", "on", "yes", "true"].contains word then some true
  else none

def truthOfInteger (n : Int) : Except Cause Bool :=
  if n = 0 then .ok false
  else if n = 1 then .ok true
  else if -integerBound ≤ n ∧ n < integerBound then .error .malformedBoolean
  else .error .noBoolean

/-- A value taken for a truth value, which may come as a number or as a word too. -/
def asBoolean : Value → Except Cause Bool
  | .boolean b => .ok b
  | .integer n => truthOfInteger n
  | .real x =>
    match asInteger (.real x) with
    | .error _ => .error .noBoolean
    | .ok n => truthOfInteger n
  | .string t =>
    match t.chars? with
    | none => .error .unpairedSurrogate
    | some cs => (truthValue? cs).elim (.error .malformedBoolean) .ok
  | .null => .error .noBoolean
  | .array _ => .error .noBoolean
  | .object _ => .error .noBoolean

end TableServer.Json.Value
