import TableServer.Json.Value
import TableServer.Text.Quoted

namespace TableServer.Json

/-- Decimal numbers with more digits are neither read nor written. -/
def digitLimit : Nat := 4300

/-- How a value is written: what stands behind commas and colons, how far an item is indented, and whether
all is in ASCII. Three layouts are in use. -/
structure Layout where
  afterComma : Text
  afterColon : Text
  /-- Spaces for each level, where every item starts a line of its own. -/
  indent : Option Nat
  /-- Whether all that is not printable ASCII is escaped. -/
  ascii : Bool

/-- Lines between server and client. -/
def Layout.compact : Layout := ⟨[], [], none, false⟩
/-- Table files. -/
def Layout.indented : Layout := ⟨[], Text.ofString " ", some 2, false⟩
/-- Lines for a terminal, in ASCII. -/
def Layout.terminal : Layout := ⟨Text.ofString " ", Text.ofString " ", none, true⟩

/-- The fault of writing: an integer has too many digits. -/
structure TooLong where
  deriving DecidableEq, Repr

def unitEscape (unit : Nat) : List Char := '\\' :: 'u' :: hexadecimal 4 unit

/-- Characters with an escape of two characters. -/
def shortEscape? (c : Char) : Option Char :=
  if c = '"' then some '"'
  else if c = '\\' then some '\\'
  else if c = '\n' then some 'n'
  else if c = '\r' then some 'r'
  else if c = '\t' then some 't'
  else if c = '\x08' then some 'b'
  else if c = '\x0c' then some 'f'
  else none

def writePoint (ascii : Bool) (p : CodePoint) : Text :=
  match p with
  | .scalar c =>
    match shortEscape? c with
    | some e => Text.ofChars ['\\', e]
    | none =>
      if c.toNat < 0x20 ∨ ascii ∧ 0x7f ≤ c.toNat then Text.ofChars (p.units.flatMap unitEscape)
      else [p]
  | .surrogate _ => if ascii then Text.ofChars (p.units.flatMap unitEscape) else [p]

def writeString (ascii : Bool) (t : Text) : Text :=
  .scalar '"' :: t.flatMap (writePoint ascii) ++ [.scalar '"']

def writeInteger (n : Int) : Except TooLong Text :=
  let digits := Nat.toDigits 10 n.natAbs
  if digitLimit < digits.length then .error ⟨⟩
  else .ok (Text.ofChars (if n < 0 then '-' :: digits else digits))

def writeReal (x : Binary64) : Text :=
  match x with
  | .finite negative significand exponent =>
    Text.ofChars ((if negative then ['-'] else []) ++ Binary64.magnitudeText significand exponent)
  | .infinite negative => Text.ofString (if negative then "-Infinity" else "Infinity")
  | .nan => Text.ofString "NaN"

/-- The start of a line at a level. -/
def Layout.line (layout : Layout) (level : Nat) : Text :=
  match layout.indent with
  | none => []
  | some width => .scalar '\n' :: List.replicate (width * level) (.scalar ' ')

/-- Written items between brackets, the items one level further in than the brackets. -/
def Layout.enclose (layout : Layout) (level : Nat) (opening closing : Char) : List Text → Text
  | [] => [.scalar opening, .scalar closing]
  | item :: items =>
    .scalar opening :: layout.line (level + 1) ++ item ++
      items.flatMap (fun i =>
        .scalar ',' :: layout.afterComma ++ layout.line (level + 1) ++ i) ++
      layout.line level ++ [.scalar closing]

mutual

def writeAt (layout : Layout) (level : Nat) : Value → Except TooLong Text
  | .null => .ok (Text.ofString "null")
  | .boolean b => .ok (Text.ofString (if b then "true" else "false"))
  | .integer n => writeInteger n
  | .real x => .ok (writeReal x)
  | .string t => .ok (writeString layout.ascii t)
  | .array items => do
    let written ← writeItems layout (level + 1) items
    .ok (layout.enclose level '[' ']' written)
  | .object members => do
    let written ← writeMembers layout (level + 1) members
    .ok (layout.enclose level '\x7b' '\x7d' written)

def writeItems (layout : Layout) (level : Nat) : List Value → Except TooLong (List Text)
  | [] => .ok []
  | v :: rest => do
    let v ← writeAt layout level v
    let rest ← writeItems layout level rest
    .ok (v :: rest)

def writeMembers (layout : Layout) (level : Nat) : List (Text × Value) → Except TooLong (List Text)
  | [] => .ok []
  | (name, v) :: rest => do
    let v ← writeAt layout level v
    let rest ← writeMembers layout level rest
    .ok ((writeString layout.ascii name ++ .scalar ':' :: layout.afterColon ++ v) :: rest)

end

/-- The JSON text of a value. There is none where an integer has too many digits. -/
def write (layout : Layout) (v : Value) : Except TooLong Text := writeAt layout 0 v

end TableServer.Json
