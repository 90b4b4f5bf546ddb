namespace TableServer

/-- A new row for a table: cells as written, so that a repeated column shows. -/
structure Insertion where
  table : String
  cells : List (String × String)
  deriving DecidableEq, Repr

namespace Insertion

def columns (i : Insertion) : List String := i.cells.map (·.1)

def values (i : Insertion) : List String := i.cells.map (·.2)

/-- Pairs columns with values, which there have to be the same number of. -/
def ofLists? (table : String) (columns values : List String) : Option Insertion :=
  if columns.length = values.length then some ⟨table, columns.zip values⟩ else none

/-- Sets a cell; a column that is there keeps its place and gets the new value. -/
def setCell (column value : String) : List (String × String) → List (String × String)
  | [] => [(column, value)]
  | (c, v) :: rest => if c = column then (c, value) :: rest else (c, v) :: setCell column value rest

/-- Each column once, with its last value. -/
def fields (i : Insertion) : List (String × String) :=
  i.cells.foldl (fun fields (column, value) => setCell column value fields) []

end Insertion

/-- What a statement asks for. -/
inductive Command
  | selectAll (table : String)
  | selectById (table : String) (id : Int)
  | insert (i : Insertion)
  deriving DecidableEq, Repr

def Command.table : Command → String
  | selectAll table => table
  | selectById table _ => table
  | insert i => i.table

end TableServer
