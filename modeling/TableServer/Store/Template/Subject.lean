import TableServer.Store.Template.Lookup
import TableServer.Text.Quoted

namespace TableServer.Template

/-- A part of a series, and the argument of a kind. -/
inductive Item
  | text (cs : List Char)
  | number (n : Nat)
  | kind (k : Kind)
  deriving DecidableEq, Repr

/-- What a field can stand for. From a text it can reach its characters, the kind of values that it
belongs to, the members of that kind, and so on from each of these. -/
inductive Subject
  | text (cs : List Char)
  | number (n : Nat)
  | truth (b : Bool)
  | nothing
  | series (items : List Item)
  /-- A dictionary, of which only empty ones can be reached. -/
  | dictionary
  | view (k : Kind)
  | applied (origin : Kind) (argument : Item)
  | kind (k : Kind)
  | member (owner : Kind) (m : Member)
  /-- A member of `owner` that has been taken from a value. -/
  | bound (value : Subject) (owner : Kind) (m : Member)
  deriving DecidableEq, Repr

def Item.subject : Item → Subject
  | text cs => .text cs
  | number n => .number n
  | kind k => .kind k

namespace Subject

def kindOf : Subject → Kind
  | text _ => .text
  | number _ => .number
  | truth _ => .truth
  | nothing => .nothing
  | series _ => .series
  | dictionary => .dictionary
  | view _ => .view
  | applied _ _ => .applied
  | kind _ => .kind
  | member _ m =>
    match m.form with
    | .method => .method
    | .slot => .slot
    | .shared => .shared
    | .free => .free
    | .maker => .boundMethod
    | .property => .property
    | .field => .field
    | .constant _ => .nothing
  | bound _ _ m => if m.form = .slot then .boundSlot else .boundMethod

/-- Where things are kept, as texts of bound members tell it. It is one constant for the addresses that a
machine gives to its objects, which are others in every run: such a text is of the right form, but it is
not the one that a real run shows. -/
def place : String := "0x7f0000000000"

/-- A member that is bound, by the kind of what it is bound to. -/
def shownBound (k : Kind) (m : Member) : String :=
  let what := if m.form = .slot then s!"method-wrapper '{m.name}'" else s!"built-in method {m.name}"
  s!"<{what} of {k.fullName} object at {place}>"

def shownMember (owner : Kind) (m : Member) : String :=
  let shown := fun what => s!"<{what} '{m.name}' of '{owner.fullName}' objects>"
  match m.form with
  | .method => shown "method"
  | .slot => shown "slot wrapper"
  | .shared => shown "method"
  | .free => s!"<staticmethod({shownBound .kind m})>"
  | .maker => shownBound .kind m
  | .property => shown "attribute"
  | .field => shown "member"
  | .constant t => t.elim "None" quoted

def shownItem (quote : String → String) : Item → String
  | .text cs => quote (String.ofList cs)
  | .number n => n.repr
  | .kind k => k.shown

/-- The members of a kind by their names. -/
def shownEntries (k : Kind) : String :=
  let entries := k.ownMembers.map fun m => quoted m.name ++ ": " ++ shownMember k m
  "\x7b" ++ String.intercalate ", " entries ++ "\x7d"

/-- As it stands with texts in the given quotes. A comma follows an item that is alone in a series. -/
def quotedBy (quote : String → String) : Subject → String
  | text cs => quote (String.ofList cs)
  | number n => n.repr
  | truth b => if b then "True" else "False"
  | nothing => "None"
  | series [i] => "(" ++ shownItem quote i ++ ",)"
  | series items => "(" ++ String.intercalate ", " (items.map (shownItem quote)) ++ ")"
  | dictionary => "\x7b\x7d"
  | view k => "mappingproxy(" ++ shownEntries k ++ ")"
  | applied origin i => origin.name ++ "[" ++ shownItem quote i ++ "]"
  | kind k => k.shown
  | member owner m => shownMember owner m
  | bound s _ m => shownBound s.kindOf m

/-- As it stands in a path: a text as it is, a view by its entries alone, and all else with texts in
quotes. -/
def shown : Subject → List Char
  | text cs => cs
  | view k => (shownEntries k).toList
  | s => (s.quotedBy quoted).toList

/-- A subject as messages name it that miss something in it. -/
def owner (ofKind : String) : Subject → String
  | kind k => s!"{ofKind} '{k.fullName}'"
  | s => s!"'{s.kindOf.fullName}' object"

/-- What an attribute is missing for. -/
inductive Miss
  | unknown (s : Subject) (name : String)
  /-- Known by its name, but not there. -/
  | absent (name : String)
  deriving DecidableEq, Repr

def ofName (name : String) : Subject := .text name.toList

def ofText? (t : Option String) : Subject := t.elim nothing ofName

/-- The whole name of a member that has been taken from a value. A slot goes by its owner. -/
def boundName (s : Subject) (owner : Kind) (m : Member) : String :=
  let home := match m.form, s with
    | .slot, _ => owner
    | _, kind k => k
    | _, s => s.kindOf
  home.name ++ "." ++ m.name

/-- What a kind says about itself. -/
def aboutKind (k : Kind) : Subject :=
  if k = .kind then
    ofName "type(object) -> the object's type\ntype(name, bases, dict, **kwds) -> a new type"
  else match k.ownMember? "__doc__" with
    | none => nothing
    | some m =>
      match m.form with
      | .constant t => ofText? t
      | _ => member k m

/-- The value of a property or a field of a kind. -/
def ofKind (k : Kind) (name : String) : Except Miss Subject :=
  if name = "__name__" ∨ name = "__qualname__" then .ok (ofName k.name)
  else if name = "__module__" then .ok (ofName k.home)
  else if name = "__base__" then .ok (k.above.head?.elim nothing kind)
  else if name = "__bases__" then .ok (series ((k.above.take 1).map .kind))
  else if name = "__mro__" then .ok (series (k.order.map .kind))
  else if name = "__dict__" then .ok (view k)
  else if name = "__doc__" then .ok (aboutKind k)
  else if name = "__text_signature__" then .ok (ofText? k.usage)
  else if name = "__basicsize__" then .ok (number k.basicSize)
  else if name = "__itemsize__" then .ok (number k.itemSize)
  else if name = "__flags__" then .ok (number k.marks)
  else if name = "__dictoffset__" then .ok (number k.ownOffset)
  else if name = "__weakrefoffset__" then .ok (number k.watchOffset)
  else if name = "__abstractmethods__" then .error (.absent name)
  else .error (.unknown (kind k) name)

/-- The value of a property or a field of a member. -/
def ofMember (owner : Kind) (m : Member) (name : String) : Option Subject :=
  if name = "__name__" then some (ofName m.name)
  else if name = "__qualname__" then some (ofName (owner.name ++ "." ++ m.name))
  else if name = "__objclass__" then some (kind owner)
  else if name = "__doc__" then some (ofText? m.about)
  else if name = "__text_signature__" then some (ofText? m.usage)
  else if name = "__func__" ∨ name = "__wrapped__" then some (bound (kind owner) owner m)
  else if name = "__isabstractmethod__" then some (truth false)
  else if name = "__dict__" then some dictionary
  else none

/-- The value of a property or a field of a bound member. -/
def ofBound (s : Subject) (owner : Kind) (m : Member) (name : String) : Option Subject :=
  if name = "__self__" then some (if m.form = .free then nothing else s)
  else if name = "__name__" then some (ofName m.name)
  else if name = "__qualname__" then some (ofName (boundName s owner m))
  else if name = "__module__" then some nothing
  else if name = "__objclass__" then some (kind owner)
  else if name = "__doc__" then some (ofText? m.about)
  else if name = "__text_signature__" then some (ofText? m.usage)
  else none

/-- The value of a property or a field of a kind with an argument. -/
def ofApplied (origin : Kind) (argument : Item) (name : String) : Option Subject :=
  if name = "__origin__" then some (kind origin)
  else if name = "__args__" then some (series [argument])
  else if name = "__parameters__" then some (series [])
  else if name = "__unpacked__" then some (truth false)
  else if name = "__typing_unpacked_tuple_args__" then some nothing
  else none

/-- The value of a property of a number. -/
def ofNumber (n : Nat) (name : String) : Option Subject :=
  if name = "real" ∨ name = "numerator" then some (number n)
  else if name = "imag" then some (number 0)
  else if name = "denominator" then some (number 1)
  else none

/-- The value of a property or a field. -/
def value (s : Subject) (name : String) : Except Miss Subject :=
  let orMiss := fun (v : Option Subject) => v.elim (.error (.unknown s name)) Except.ok
  if name = "__class__" then .ok (kind s.kindOf)
  else match s with
    | kind k => ofKind k name
    | member owner m => orMiss (ofMember owner m name)
    | bound s owner m => orMiss (ofBound s owner m name)
    | applied origin argument => orMiss (ofApplied origin argument name)
    | number n => orMiss (ofNumber n name)
    | truth b => orMiss (ofNumber b.toNat name)
    | _ => orMiss none

/-- A member as a value has it whose kind has the member. -/
def take (s : Subject) (owner : Kind) (m : Member) : Except Miss Subject :=
  match m.form with
  | .method => .ok (bound s owner m)
  | .slot => .ok (bound s owner m)
  | .shared => .ok (bound (kind s.kindOf) owner m)
  | .free => .ok (bound (kind owner) owner m)
  | .maker => .ok (bound (kind owner) owner m)
  | .property => s.value m.name
  | .field => s.value m.name
  | .constant t => .ok (ofText? t)

/-- A member as its kind has it, or a kind below. -/
def ownedBy (k owner : Kind) (m : Member) : Subject :=
  match m.form with
  | .shared => bound (kind k) owner m
  | .free => bound (kind owner) owner m
  | .maker => bound (kind owner) owner m
  | .constant t => ofText? t
  | _ => member owner m

/-- What a kind has under a name: what all kinds have as a value, then its own members, and then the
other members of kinds. -/
def attributeOfKind (k : Kind) (name : String) : Except Miss Subject :=
  match Kind.member? .kind name, k.member? name with
  | some (owner, m), own =>
    if m.isData then (kind k).take owner m
    else match own with
      | some (owner, m) => .ok (ownedBy k owner m)
      | none => (kind k).take owner m
  | none, some (owner, m) => .ok (ownedBy k owner m)
  | none, none => .error (.unknown (kind k) name)

/-- What a value has under a name: properties and fields of its kind, and else the members of its kind
bound to it. -/
def attributeOfValue (s : Subject) (name : String) : Except Miss Subject :=
  match s.kindOf.member? name with
  | some (owner, m) => s.take owner m
  | none => .error (.unknown s name)

/-- Attributes that a kind with an argument has itself. For all others the kind stands in. -/
def appliedNames : List String := [
  "__class__", "__origin__", "__args__", "__unpacked__", "__parameters__",
  "__typing_unpacked_tuple_args__", "__mro_entries__", "__reduce_ex__", "__reduce__", "__copy__",
  "__deepcopy__"]

/-- What an attribute names. -/
def attributeNamed (s : Subject) (name : String) : Except Miss Subject :=
  match s with
  | kind k => attributeOfKind k name
  | applied origin _ =>
    if appliedNames.contains name then s.attributeOfValue name else attributeOfKind origin name
  | s => s.attributeOfValue name

/-- What an index is given as: a number, or any other text. -/
inductive Index
  | number (n : Nat)
  | name (cs : List Char)
  deriving DecidableEq, Repr

def Index.item : Index → Item
  | number n => .number n
  | name cs => .text cs

/-- Why there is no item at an index. -/
inductive NoItem
  | outOfRange (s : Subject)
  | byName (s : Subject)
  | missing (key : Item)
  | noItems (s : Subject)
  /-- A kind with an argument takes no further one. -/
  | closed (s : Subject)
  deriving DecidableEq, Repr

/-- Kinds that can have an argument. -/
def takesArgument (k : Kind) : Bool := k = .kind || k = .series || k = .dictionary || k = .view

/-- The item at an index. -/
def item (s : Subject) (i : Index) : Except NoItem Subject :=
  match s, i with
  | text cs, .number n => cs[n]?.elim (.error (.outOfRange s)) fun c => .ok (text [c])
  | series items, .number n => items[n]?.elim (.error (.outOfRange s)) fun i => .ok i.subject
  | text _, .name _ => .error (.byName s)
  | series _, .name _ => .error (.byName s)
  | dictionary, i => .error (.missing i.item)
  | view _, .number n => .error (.missing (.number n))
  | view k, .name cs =>
    match k.ownMember? (String.ofList cs) with
    | none => .error (.missing (.text cs))
    | some m =>
      match m.form with
      | .maker => .ok (bound (kind k) k m)
      | .constant t => .ok (ofText? t)
      | _ => .ok (member k m)
  | kind k, i => if takesArgument k then .ok (applied k i.item) else .error (.noItems s)
  | applied _ _, _ => .error (.closed s)
  | s, _ => .error (.noItems s)

end Subject

end TableServer.Template
