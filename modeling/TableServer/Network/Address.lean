import TableServer.Text.Digit
import TableServer.Text.Split

namespace TableServer

/-- Addresses of hosts, of either version. -/
inductive Address
  /-- An address of version four as a number of thirty-two bits. -/
  | four (number : Nat)
  /-- An address of version six as it is written. -/
  | six (written : String)
  deriving DecidableEq, Repr

namespace Address

def splitPoints (cs : List Char) : List (List Char) := splitMarks (· = '.') cs

/-- A number below 256 without zeros in front. -/
def octet? (cs : List Char) : Option Nat :=
  if cs.length ≤ 3 ∧ (cs.length = 1 ∨ cs.head? ≠ some '0') then
    (readBase? 10 cs).filter (· < 256)
  else none

def joinOctets (octets : List Nat) : Nat := octets.foldl (fun n octet => n * 256 + octet) 0

/-- Four decimal numbers below 256, without zeros in front. -/
def plainFour? (cs : List Char) : Option Nat :=
  match (splitPoints cs).mapM octet? with
  | some octets => if octets.length = 4 then some (joinOctets octets) else none
  | none => none

def isGroup (cs : List Char) : Bool := cs.length ≤ 4 && (readBase? 16 cs).isSome

/-- How many groups a run of them has. At its end an address of version four counts for two. -/
def groups? (fourMayEnd : Bool) (cs : List Char) : Option Nat :=
  if cs.isEmpty then some 0
  else
    let parts := splitMarks (· = ':') cs
    let last := parts.getLast?.getD []
    if parts.all isGroup then some parts.length
    else if fourMayEnd && parts.dropLast.all isGroup && (plainFour? last).isSome then
      some (parts.length + 1)
    else none

/-- The texts before and behind the first two colons in a row. -/
def splitGap : List Char → Option (List Char × List Char)
  | ':' :: ':' :: rest => some ([], rest)
  | c :: rest => (splitGap rest).map fun (before, behind) => (c :: before, behind)
  | [] => none

/-- There are eight groups, or fewer with a gap for the others. -/
def isPlainSix (cs : List Char) : Bool :=
  match splitGap cs with
  | none => groups? true cs = some 8
  | some (before, behind) =>
    match groups? false before, groups? true behind with
    | some m, some n => m + n < 8
    | _, _ => false

/-- The address that a host spells in plain form: of version four with four decimal numbers, or of version
six. -/
def ofPlain? (host : String) : Option Address :=
  match plainFour? host.toList with
  | some n => some (four n)
  | none => if isPlainSix host.toList then some (six host) else none

/-- A number whose start tells its base. -/
def number? : List Char → Option Nat
  | '0' :: 'x' :: digits => readBase? 16 digits
  | '0' :: 'X' :: digits => readBase? 16 digits
  | '0' :: digits => readBase? 8 ('0' :: digits)
  | cs => readBase? 10 cs

/-- The address of its numbers. All but the last are below 256, and the last has the bytes that they
leave. -/
def ofNumbers? (numbers : List Nat) : Option Nat :=
  let first := numbers.dropLast
  let last := numbers.getLast?.getD 0
  let room := Nat.pow 256 (4 - first.length)
  if first.length < 4 ∧ first.all (· < 256) ∧ last < room then some (joinOctets first * room + last)
  else none

/-- The address of a short form: up to four numbers in bases eight, ten and sixteen, of which the last
fills what is left. -/
def ofShort? (cs : List Char) : Option Address :=
  (((splitPoints cs).mapM number?).bind ofNumbers?).map four

def octets (number : Nat) : List Nat :=
  [number / Nat.pow 256 3, number / Nat.pow 256 2 % 256, number / 256 % 256, number % 256]

def toString : Address → String
  | four number => String.intercalate "." ((octets number).map Nat.repr)
  | six written => written

end Address

end TableServer
