import TableServer.Validation.Coercion

namespace TableServer

/-- The rows of a table. -/
structure Record where
  id : Nat
  name : Text
  description : Text
  deriving DecidableEq, Repr

namespace Record

/-- The members of a record in JSON. -/
def members (r : Record) : List (Text × Json.Value) := [
  (Text.ofString "id", .integer r.id),
  (Text.ofString "name", .string r.name),
  (Text.ofString "description", .string r.description)]

def toJson (r : Record) : Json.Value := .object r.members

/-- The names of the members. -/
def memberNames : List Text := ["id", "name", "description"].map Text.ofString

/-- An id is a whole number that is not below zero. -/
def readId (v : Json.Value) : Except Cause Nat := do
  let n ← v.asInteger
  if n < 0 then .error .negative else .ok n.toNat

/-- A member that a record may lack is empty then. -/
def readText : Option Json.Value → Except Cause Text
  | none => .ok []
  | some v => v.asString

/-- The issue of a member, if its value has one. -/
def issueOf {α : Type} (name : String) : Except Cause α → List Issue
  | .ok _ => []
  | .error cause => [.atMember name cause]

/-- The issue of a member that no record has. -/
def unexpected (name : Text) : List Issue :=
  if memberNames.contains name then [] else [⟨[.member name], .unexpected⟩]

/-- A record from its members in any order. The issues come in the order of the fields, with unknown
members after them. -/
def ofMembers (members : List (Text × Json.Value)) : Except (List Issue) Record :=
  let field := fun name => Json.member? (Text.ofString name) members
  let id := (field "id").elim (.error .missing) readId
  let name := readText (field "name")
  let description := readText (field "description")
  let unknown := members.flatMap fun (name, _) => unexpected name
  match id, name, description, unknown with
  | .ok id, .ok name, .ok description, [] => .ok ⟨id, name, description⟩
  | id, name, description, unknown =>
    .error (issueOf "id" id ++ issueOf "name" name ++ issueOf "description" description ++ unknown)

/-- A record from its form in JSON, or all that is wrong with it. -/
def ofJson : Json.Value → Except (List Issue) Record
  | .object members =>
    if members.all fun (name, _) => name.chars?.isSome then ofMembers members
    else .error [⟨[], .unpairedSurrogate⟩]
  | _ => .error [⟨[], .noRecord⟩]

/-- The records of items, the first at an index; all issues of all items are kept. -/
def ofItems (index : Nat) : List Json.Value → Except (List Issue) (List Record)
  | [] => .ok []
  | v :: rest =>
    match ofJson v, ofItems (index + 1) rest with
    | .ok r, .ok rs => .ok (r :: rs)
    | .ok _, .error issues => .error issues
    | .error issues, .ok _ => .error (issues.map (Issue.under (.index index)))
    | .error issues, .error more => .error (issues.map (Issue.under (.index index)) ++ more)

def listOfJson : Json.Value → Except (List Issue) (List Record)
  | .array items => ofItems 0 items
  | _ => .error [⟨[], .noList⟩]

def listToJson (rs : List Record) : Json.Value := .array (rs.map toJson)

end Record

end TableServer
