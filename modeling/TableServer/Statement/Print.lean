import TableServer.Statement.Command

namespace TableServer.Command

/-- An item of a list stands in a quote that it does not contain, and as it is where it contains both. -/
def printItem (item : String) : List Char :=
  let cs := item.toList
  if !cs.contains '\'' then '\'' :: cs ++ ['\'']
  else if !cs.contains '"' then '"' :: cs ++ ['"']
  else cs

def printItems : List String → List Char
  | [] => []
  | [item] => printItem item
  | item :: rest => printItem item ++ ',' :: ' ' :: printItems rest

def printList (items : List String) : List Char := '(' :: printItems items ++ [')']

def printChars : Command → List Char
  | selectAll table => "SELECT * FROM ".toList ++ table.toList
  | selectById table id =>
    "SELECT * FROM ".toList ++ table.toList ++ " WHERE id = ".toList ++ (toString id).toList
  | insert i =>
    "INSERT INTO ".toList ++ i.table.toList ++ ' ' :: printList i.columns ++
      " VALUES ".toList ++ printList i.values

/-- The plain text of a command. -/
def print (c : Command) : String := String.ofList c.printChars

end TableServer.Command
