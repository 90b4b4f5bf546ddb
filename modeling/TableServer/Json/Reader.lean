import TableServer.Json.Writer
import TableServer.Text.Digit

namespace TableServer.Json

/-- What was expected where a text is no JSON. -/
inductive Complaint
  | value
  | comma
  | colon
  | name
  | extraData
  | openString
  | controlCharacter
  | escape
  | unitEscape
  | byteOrderMark
  deriving DecidableEq, Repr

def Complaint.message : Complaint → String
  | value => "Expecting value"
  | comma => "Expecting ',' delimiter"
  | colon => "Expecting ':' delimiter"
  | name => "Expecting property name enclosed in double quotes"
  | extraData => "Extra data"
  | openString => "Unterminated string starting at"
  | controlCharacter => "Invalid control character at"
  | escape => "Invalid \\escape"
  | unitEscape => "Invalid \\uXXXX escape"
  | byteOrderMark => "Unexpected UTF-8 BOM (decode using utf-8-sig)"

/-- A failure while reading; the text from the place of a complaint onwards is kept. -/
inductive Failure
  | malformed (complaint : Complaint) (rest : List Char)
  | tooDeep
  | tooLong (digits : Nat)
  deriving DecidableEq, Repr

abbrev Reader (α : Type) := List Char → Except Failure (α × List Char)

/-- Arrays and objects may stand this deep inside each other. -/
def nestingLimit : Nat := 990

def isJsonBlank (c : Char) : Bool := c = ' ' || c = '\t' || c = '\n' || c = '\r'

def skipBlanks (cs : List Char) : List Char := cs.dropWhile isJsonBlank

/-- A part of a string: a character as it stands, or a unit spelled by its number. -/
inductive Piece
  | char (c : Char)
  | unit (n : Nat)
  deriving DecidableEq, Repr

/-- Two units that make a pair are one character. -/
def joinPieces : List Piece → Text
  | [] => []
  | .char c :: rest => .scalar c :: joinPieces rest
  | .unit high :: rest =>
    match rest with
    | .unit low :: rest' =>
      if 0xd800 ≤ high ∧ high < 0xdc00 ∧ 0xdc00 ≤ low ∧ low < 0xe000 then
        .scalar (joinSurrogates high low) :: joinPieces rest'
      else CodePoint.ofUnit high :: joinPieces (.unit low :: rest')
    | rest => CodePoint.ofUnit high :: joinPieces rest

def hexUnit? (a b c d : Char) : Option Nat := do
  let a ← hexDigit? a
  let b ← hexDigit? b
  let c ← hexDigit? c
  let d ← hexDigit? d
  some (((a * 16 + b) * 16 + c) * 16 + d)

/-- What an escape of two characters stands for. -/
def escaped? (c : Char) : Option Char :=
  if c = '"' then some '"'
  else if c = '\\' then some '\\'
  else if c = '/' then some '/'
  else if c = 'b' then some '\x08'
  else if c = 'f' then some '\x0c'
  else if c = 'n' then some '\n'
  else if c = 'r' then some '\r'
  else if c = 't' then some '\t'
  else none

/-- The rest of a string after its opening quote; `opening` is the text from that quote onwards. A
numbered unit is read only where the text goes on after it. -/
def stringBody (opening : List Char) : Reader (List Piece)
  | [] => .error (.malformed .openString opening)
  | c :: rest =>
    if c = '"' then .ok ([], rest)
    else if c = '\\' then
      match rest with
      | [] => .error (.malformed .openString opening)
      | e :: rest =>
        if e = 'u' then
          match rest with
          | h₁ :: h₂ :: h₃ :: h₄ :: rest' =>
            match hexUnit? h₁ h₂ h₃ h₄, rest' with
            | some unit, _ :: _ => do
              let (pieces, rest) ← stringBody opening rest'
              .ok (.unit unit :: pieces, rest)
            | _, _ => .error (.malformed .unitEscape (e :: rest))
          | _ => .error (.malformed .unitEscape (e :: rest))
        else
          match escaped? e with
          | some d => do
            let (pieces, rest) ← stringBody opening rest
            .ok (.char d :: pieces, rest)
          | none => .error (.malformed .escape (c :: e :: rest))
    else if c.toNat < 0x20 then .error (.malformed .controlCharacter (c :: rest))
    else do
      let (pieces, rest) ← stringBody opening rest
      .ok (.char c :: pieces, rest)

/-- A string whose opening quote has been read. -/
def string (opening : List Char) : Reader Text := fun cs => do
  let (pieces, rest) ← stringBody opening cs
  .ok (joinPieces pieces, rest)

def takeDigits (cs : List Char) : List Char × List Char :=
  (cs.takeWhile Char.isDigit, cs.dropWhile Char.isDigit)

/-- A fraction, where a point is followed by a digit. -/
def fraction (cs : List Char) : Option (List Char × List Char) :=
  match cs with
  | '.' :: rest =>
    let (digits, rest) := takeDigits rest
    if digits.isEmpty then none else some (digits, rest)
  | _ => none

/-- An exponent, where its letter is followed by a digit or by a sign and a digit. -/
def exponent (cs : List Char) : Option (Int × List Char) :=
  match cs with
  | e :: rest =>
    if e = 'e' ∨ e = 'E' then
      let (negative, rest) :=
        match rest with
        | '-' :: rest => (true, rest)
        | '+' :: rest => (false, rest)
        | rest => (false, rest)
      let (digits, rest) := takeDigits rest
      let n : Nat := Nat.ofDigitChars 10 digits 0
      if digits.isEmpty then none else some (if negative then -n else n, rest)
    else none
  | [] => none

/-- The digits before a point: a zero alone, or digits that do not start with one. -/
def wholePart (cs : List Char) : Option (List Char × List Char) :=
  match cs with
  | '0' :: rest => some (['0'], rest)
  | c :: rest => if c.isDigit then some (takeDigits (c :: rest)) else none
  | [] => none

/-- A number is a real where it has a fraction or an exponent, and an integer elsewhere. -/
def number (cs : List Char) : Except Failure (Value × List Char) :=
  let (negative, unsigned) :=
    match cs with
    | '-' :: rest => (true, rest)
    | cs => (false, cs)
  match wholePart unsigned with
  | none => .error (.malformed .value cs)
  | some (whole, rest) =>
    let (places, rest') := (fraction rest).getD ([], rest)
    match places, exponent rest' with
    | [], none =>
      if digitLimit < whole.length then .error (.tooLong whole.length)
      else
        let n : Nat := Nat.ofDigitChars 10 whole 0
        .ok (.integer (if negative then -n else n), rest)
    | places, power =>
      let (power, rest) := power.getD (0, rest')
      let digits := Nat.ofDigitChars 10 (whole ++ places) 0
      .ok (.real (Binary64.ofDecimal negative digits (power - places.length)), rest)

/-- Words that stand for values. -/
def words : List (List Char × Value) := [
  ("null".toList, .null), ("true".toList, .boolean true), ("false".toList, .boolean false),
  ("NaN".toList, .real .nan), ("Infinity".toList, .real (.infinite false)),
  ("-Infinity".toList, .real (.infinite true))]

def scalar (cs : List Char) : Except Failure (Value × List Char) :=
  match words.find? fun (word, _) => word.isPrefixOf cs with
  | some (word, v) => .ok (v, cs.drop word.length)
  | none => number cs

/-- Items up to the closing bracket, the first of them next. Each item takes a character, so that the
length of the text is fuel enough. -/
def items (item : Reader Value) : (fuel : Nat) → Reader (List Value)
  | 0, cs => .error (.malformed .value cs)
  | fuel + 1, cs => do
    let (v, rest) ← item cs
    match skipBlanks rest with
    | ']' :: rest => .ok ([v], rest)
    | ',' :: rest =>
      let (vs, rest) ← items item fuel (skipBlanks rest)
      .ok (v :: vs, rest)
    | rest => .error (.malformed .comma rest)

/-- Members up to the closing brace, the next of which starts with its name. -/
def members (item : Reader Value) : (fuel : Nat) → Reader (List (Text × Value))
  | 0, cs => .error (.malformed .value cs)
  | fuel + 1, cs =>
    match cs with
    | '"' :: body => do
      let (name, rest) ← string cs body
      match skipBlanks rest with
      | ':' :: rest =>
        let (v, rest) ← item (skipBlanks rest)
        match skipBlanks rest with
        | '\x7d' :: rest => .ok ([(name, v)], rest)
        | ',' :: rest =>
          let (ms, rest) ← members item fuel (skipBlanks rest)
          .ok ((name, v) :: ms, rest)
        | rest => .error (.malformed .comma rest)
      | rest => .error (.malformed .colon rest)
    | cs => .error (.malformed .name cs)

def array (item : Reader Value) (fuel : Nat) : Reader Value := fun cs =>
  match skipBlanks cs with
  | ']' :: rest => .ok (.array [], rest)
  | cs => do
    let (vs, rest) ← items item fuel cs
    .ok (.array vs, rest)

def object (item : Reader Value) (fuel : Nat) : Reader Value := fun cs =>
  match skipBlanks cs with
  | '\x7d' :: rest => .ok (.object [], rest)
  | cs => do
    let (ms, rest) ← members item fuel cs
    .ok (.object (mergeMembers ms), rest)

/-- One value, with so many more levels of nesting allowed. -/
def value (fuel : Nat) : Nat → Reader Value
  | _, '"' :: body => do
    let (t, rest) ← string ('"' :: body) body
    .ok (.string t, rest)
  | 0, '[' :: _ => .error .tooDeep
  | depth + 1, '[' :: rest => array (value fuel depth) fuel rest
  | 0, '\x7b' :: _ => .error .tooDeep
  | depth + 1, '\x7b' :: rest => object (value fuel depth) fuel rest
  | _, cs => scalar cs

/-- A place in a text, with lines and columns counted from one. -/
structure Position where
  line : Nat
  column : Nat
  offset : Nat
  deriving DecidableEq, Repr

/-- The place that `before` leads up to. -/
def Position.after (before : List Char) : Position :=
  { line := before.count '\n' + 1
    column := (before.reverse.takeWhile (· ≠ '\n')).length + 1
    offset := before.length }

/-- Why a text is no value. -/
inductive Fault
  | malformed (complaint : Complaint) (position : Position)
  | tooDeep
  | tooLong (digits : Nat)
  deriving DecidableEq, Repr

def Failure.locate (text : List Char) : Failure → Fault
  | malformed complaint rest => .malformed complaint (.after (text.take (text.length - rest.length)))
  | tooDeep => .tooDeep
  | tooLong digits => .tooLong digits

/-- The message of a malformed text, with its place. -/
def faultMessage (complaint : Complaint) (p : Position) : String :=
  s!"{complaint.message}: line {p.line} column {p.column} (char {p.offset})"

/-- Reads one value and nothing after it. -/
def readWhole (text : List Char) : Except Failure Value :=
  if text.head? = some '\ufeff' then .error (.malformed .byteOrderMark text)
  else do
    let (v, rest) ← value text.length nestingLimit (skipBlanks text)
    match skipBlanks rest with
    | [] => .ok v
    | rest => .error (.malformed .extraData rest)

/-- Reads a JSON text. A fault says what was expected, and where. Infinities and the number that is none
are accepted, and the nesting of arrays and objects is bounded. -/
def read (text : List Char) : Except Fault Value := (readWhole text).mapError (·.locate text)

end TableServer.Json
