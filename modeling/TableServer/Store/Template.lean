import TableServer.Store.Template.Layout
import TableServer.Store.Template.Syntax

namespace TableServer.Template

def startsSelector (c : Char) : Bool := c = '.' || c = '['

/-- Follows the selectors of a path, each an attribute or an index. Each takes characters, so that the
length of the path is fuel enough. -/
def select : (fuel : Nat) → Subject → List Char → Except Fault Subject
  | 0, s, _ => .ok s
  | _, s, [] => .ok s
  | fuel + 1, s, c :: rest =>
    if c = '.' then
      let name := rest.takeWhile fun c => !startsSelector c
      if name.isEmpty then .error .emptyAttribute
      else do
        let s ← (s.attributeNamed (String.ofList name)).mapError .noAttribute
        select fuel s (rest.drop name.length)
    else if c = '[' then
      match rest.dropWhile (· ≠ ']') with
      | [] => .error .openIndex
      | _ :: after => do
        let name := rest.takeWhile (· ≠ ']')
        let number? ← number? name
        if name.isEmpty then .error .emptyAttribute
        else
          let index := number?.elim (Subject.Index.name name) Subject.Index.number
          select fuel (← (s.item index).mapError .noItem) after
    else .error .afterIndex

/-- The name that a template may use. -/
def tableName : List Char := "table".toList

/-- The value of a field's path, which starts with the name. -/
def lookup (value : List Char) (path : List Char) : Except Fault Subject := do
  let first := path.takeWhile fun c => !startsSelector c
  match ← number? first with
  | some index => .error (.positional index)
  | none =>
    if first.isEmpty then .error (.positional 0)
    else if first = tableName then select path.length (.text value) (path.drop first.length)
    else .error (.unknownName (String.ofList first))

/-- The value of a field in the form that its conversion asks for. -/
def convert (conversion : Option Char) (s : Subject) : Except Fault Subject :=
  match conversion with
  | none => .ok s
  | some c =>
    if c = 's' then .ok (.text s.shown)
    else if c = '\x00' then .ok s
    else if c = 'r' then .ok (.text (s.quotedBy quoted).toList)
    else if c = 'a' then .ok (.text (s.quotedBy quotedAscii).toList)
    else .error (.unknownConversion c)

/-- Layouts can hold fields, and theirs cannot. -/
def expandTo (value : List Char) : (depth : Nat) → List Char → Except Fault (List Char)
  | 0, _ => .error .tooDeep
  | depth + 1, template => do
    let pieces ← (parts template).mapM fun part => do
      match ← part with
      | .char c => .ok [c]
      | .field f =>
        let s ← convert f.conversion (← lookup value f.path)
        let layout ← if f.layout.contains '\x7b' then expandTo value depth f.layout else .ok f.layout
        layOut layout s
    .ok pieces.flatten

/-- The template with a table's name in its fields. A field in braces stands for the name or for what its
selectors reach from there, and can choose a conversion, and a layout after a colon; doubled braces stand
for themselves. -/
def expand (template table : String) : Except Fault String :=
  (expandTo table.toList 2 template.toList).map String.ofList

end TableServer.Template
