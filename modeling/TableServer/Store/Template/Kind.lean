namespace TableServer.Template

/-- Kinds of values that a field of a template can reach. -/
inductive Kind
  | text
  | number
  | truth
  | nothing
  | series
  | dictionary
  /-- A view of the members of a kind, by their names. -/
  | view
  /-- A kind with an argument. -/
  | applied
  | kind
  | general
  /-- Members of kinds: those that can be called, those that stand for an operation, and those that are
  called with a kind or with nothing. -/
  | method
  | slot
  | shared
  | free
  /-- Members that hold a value. -/
  | property
  | field
  /-- Methods and slots of a value. -/
  | boundMethod
  | boundSlot
  deriving DecidableEq, Repr

namespace Kind

def name : Kind → String
  | text => "str"
  | number => "int"
  | truth => "bool"
  | nothing => "NoneType"
  | series => "tuple"
  | dictionary => "dict"
  | view => "mappingproxy"
  | applied => "GenericAlias"
  | kind => "type"
  | general => "object"
  | method => "method_descriptor"
  | slot => "wrapper_descriptor"
  | shared => "classmethod_descriptor"
  | free => "staticmethod"
  | property => "getset_descriptor"
  | field => "member_descriptor"
  | boundMethod => "builtin_function_or_method"
  | boundSlot => "method-wrapper"

/-- Where a kind is at home. -/
def home (k : Kind) : String := if k = applied then "types" else "builtins"

/-- The name with the home where that is not the common one. -/
def fullName (k : Kind) : String := if k = applied then k.home ++ "." ++ k.name else k.name

def shown (k : Kind) : String := s!"<class '{k.fullName}'>"

/-- The kinds above a kind, up to the kind of all values. -/
def above : Kind → List Kind
  | general => []
  | truth => [number, general]
  | _ => [general]

/-- The kinds whose members a value of a kind has, nearest first; a member counts that comes first among
them. -/
def order (k : Kind) : List Kind := k :: k.above

/-- How a kind is called. -/
def usage : Kind → Option String
  | general => some "()"
  | series => some "(iterable=(), /)"
  | _ => none

/-- Bytes that a value takes. -/
def basicSize : Kind → Nat
  | text => 80
  | number => 24
  | truth => 32
  | nothing => 16
  | series => 24
  | dictionary => 48
  | view => 24
  | applied => 64
  | kind => 904
  | general => 16
  | free => 32
  | property => 48
  | field => 48
  | boundSlot => 32
  | _ => 56

/-- Bytes that a value takes more for each of its items. -/
def itemSize : Kind → Nat
  | number => 4
  | truth => 4
  | series => 8
  | kind => 40
  | _ => 0

/-- Marks of a kind, each a bit. -/
def marks : Kind → Nat
  | text => 273159424
  | number => 21501184
  | truth => 21500160
  | nothing => 528640
  | series => 71849248
  | dictionary => 541611328
  | view => 545088
  | applied => 548096
  | kind => 2148031744
  | general => 529664
  | method => 678272
  | slot => 676224
  | shared => 545152
  | free => 546048
  | property => 545152
  | field => 545152
  | boundMethod => 547200
  | boundSlot => 545152

/-- Where a value keeps attributes of its own. -/
def ownOffset : Kind → Nat
  | kind => 264
  | free => 24
  | _ => 0

/-- Where a value keeps track of those who watch it. -/
def watchOffset : Kind → Nat
  | kind => 368
  | applied => 40
  | boundMethod => 40
  | _ => 0

end Kind

end TableServer.Template
