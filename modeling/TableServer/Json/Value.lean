import TableServer.Text.CodePoint
import TableServer.Number.Binary64

namespace TableServer.Json

/-- Values of JSON. A number written with a point or an exponent is kept apart from an integer, and the
members of an object keep their order. -/
inductive Value
  | null
  | boolean (b : Bool)
  | integer (n : Int)
  | real (x : Binary64)
  | string (t : Text)
  | array (items : List Value)
  | object (members : List (Text × Value))
  deriving Inhabited

namespace Value

def ofString (s : String) : Value := .string (Text.ofString s)

end Value

/-- Sets a member; one that is there keeps its place and gets the new value. -/
def setMember (name : Text) (v : Value) : List (Text × Value) → List (Text × Value)
  | [] => [(name, v)]
  | (n, w) :: rest => if n = name then (n, v) :: rest else (n, w) :: setMember name v rest

/-- The members of an object as written: of equal names the last value counts, at the first place. -/
def mergeMembers (written : List (Text × Value)) : List (Text × Value) :=
  written.foldl (fun members (name, v) => setMember name v members) []

/-- The value of the member with a name. -/
def member? (name : Text) (members : List (Text × Value)) : Option Value :=
  (members.find? fun (n, _) => n == name).map (·.2)

end TableServer.Json
