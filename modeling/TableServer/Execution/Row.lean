import TableServer.Record
import TableServer.Report
import TableServer.Statement.Command
import TableServer.Text.Quoted

namespace TableServer

/-- Why columns make no record. -/
inductive ColumnFault
  | duplicate (column : String)
  | unknown (columns : List String)
  deriving DecidableEq, Repr

def ColumnFault.message : ColumnFault → String
  | duplicate column => s!"duplicate column '{column}'"
  | unknown columns => "unknown column(s): " ++ String.intercalate ", " (columns.map quoted)

/-- Columns that an insertion may name. The id is given by the table, so that its value is ignored. -/
def knownColumns : List String := ["name", "description", "id"]

/-- The first column that repeats an earlier one; `seen` are those before the list. -/
def firstRepeated (seen : List String) : List String → Option String
  | [] => none
  | column :: rest =>
    if seen.contains column then some column else firstRepeated (column :: seen) rest

namespace Insertion

/-- The value of a column, empty where it is not named. -/
def cell (i : Insertion) (column : String) : String :=
  ((i.fields.find? fun (c, _) => c = column).map (·.2)).getD ""

/-- The record that an insertion stores under an id. A column that is not known or is named twice makes
none. -/
def record (id : Nat) (i : Insertion) : Except ColumnFault Record :=
  match firstRepeated [] i.columns with
  | some column => .error (.duplicate column)
  | none =>
    match i.columns.filter fun column => !knownColumns.contains column with
    | [] => .ok ⟨id, Text.ofString (i.cell "name"), Text.ofString (i.cell "description")⟩
    | unknown => .error (.unknown unknown)

/-- The record of an insertion, or the report of what is wrong with its columns. -/
def build (id : Nat) (i : Insertion) : Except ErrorReport Record :=
  (i.record id).mapError fun fault => .execution fault.message (.ofString i.table)

end Insertion

/-- One more than the greatest id, and one where there is none. -/
def nextId (records : List Record) : Nat := records.foldl (fun greatest r => max greatest r.id) 0 + 1

end TableServer
