import TableServer.Json.Value

namespace TableServer

/-- Kinds of errors, each with the code of its own. -/
inductive ErrorKind
  | general
  | parse
  | storage
  | execution
  deriving DecidableEq, Repr

/-- The code of a report of a kind, where it has no other. -/
def ErrorKind.code : ErrorKind → String
  | general => "TABLEDB_ERROR"
  | parse => "PARSE_ERROR"
  | storage => "STORAGE_ERROR"
  | execution => "EXECUTION_ERROR"

/-- An error as it is reported: a message with a code, and details under names. A detail that is not known
is null. -/
structure ErrorReport where
  kind : ErrorKind
  message : String
  code : String
  details : List (String × Json.Value)

namespace ErrorReport

/-- A report with a code of its own, unless that is empty. -/
def general (message code : String) (details : List (String × Json.Value)) : ErrorReport :=
  ⟨.general, message, if code = "" then ErrorKind.general.code else code, details⟩

def ofKind (kind : ErrorKind) (message : String) (details : List (String × Json.Value)) : ErrorReport :=
  ⟨kind, message, kind.code, details⟩

def parse (message : String) (statement : Json.Value) : ErrorReport :=
  ofKind .parse message [("statement", statement)]

def storage (message : String) (table path reason : Json.Value) : ErrorReport :=
  ofKind .storage message [("table", table), ("path", path), ("reason", reason)]

def execution (message : String) (table : Json.Value) : ErrorReport :=
  ofKind .execution message [("table", table)]

/-- The details in the order of their names. -/
def sortedDetails (r : ErrorReport) : List (String × Json.Value) :=
  r.details.mergeSort fun a b => decide (a.1 ≤ b.1)

end ErrorReport

end TableServer
