import TableServer.Record

namespace TableServer

/-- What a statement comes to. -/
inductive Result
  | rows (records : List Record)
  | inserted (record : Record)
  | notFound
  | parseFailure (message : String)
  | executionFailure (message : String)
  deriving DecidableEq, Repr

namespace Result

def isError : Result → Bool
  | rows _ => false
  | inserted _ => false
  | notFound => true
  | parseFailure _ => true
  | executionFailure _ => true

/-- An object that tells of an error. -/
def errorObject (message : String) : Json.Value :=
  .object [(Text.ofString "error", Json.Value.ofString message)]

/-- The JSON value that a result is answered with. -/
def payload : Result → Json.Value
  | rows records => Record.listToJson records
  | inserted record =>
    .object [(Text.ofString "success", .boolean true), (Text.ofString "newData", record.toJson)]
  | notFound => errorObject "Data not found"
  | parseFailure message => errorObject message
  | executionFailure message => errorObject message

/-- The result of a failure that clients are not told about. -/
def internalError : Result := executionFailure "internal error"

/-- The result of a command of a kind that there is not. -/
def unsupportedKind (kind : String) : Result :=
  executionFailure ("unsupported command type: " ++ kind)

end Result

end TableServer
