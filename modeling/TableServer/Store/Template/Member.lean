import TableServer.Store.Template.Kind

namespace TableServer.Template

/-- What a member is where it is taken from a value: methods and slots are bound to the value, or to its
kind; properties and fields give a value; constants are what they are. -/
inductive Form
  | method
  | slot
  /-- Bound to the kind of a value. -/
  | shared
  /-- Bound to nothing. -/
  | free
  /-- Makes values, and is bound to its own kind. -/
  | maker
  | property
  | field
  | constant (text : Option String)
  deriving DecidableEq, Repr

/-- A member of a kind, with how it is called and what it says about itself. -/
structure Member where
  name : String
  form : Form
  /-- How it is called. -/
  usage : Option String
  /-- What it says about itself. -/
  about : Option String
  deriving DecidableEq, Repr

namespace Member

/-- Whether a member gives a value that no other member can hide. -/
def isData (m : Member) : Bool := m.form = .property || m.form = .field

def ofLines (lines : List String) : Option String :=
  if lines.isEmpty then none else some (String.intercalate "\n" lines)

def method (name : String) (usage : Option String) (about : List String) : Member :=
  ⟨name, .method, usage, ofLines about⟩

def shared (name : String) (usage : Option String) (about : List String) : Member :=
  ⟨name, .shared, usage, ofLines about⟩

def free (name : String) (usage : Option String) (about : List String) : Member :=
  ⟨name, .free, usage, ofLines about⟩

def maker : Member :=
  ⟨"__new__", .maker, some "($type, *args, **kwargs)",
    some "Create and return a new object.  See help(type) for accurate signature."⟩

def property (name : String) (about : Option String) : Member := ⟨name, .property, none, about⟩

def field (name : String) : Member := ⟨name, .field, none, none⟩

def constant (name : String) (lines : List String) : Member :=
  ⟨name, .constant (ofLines lines), none, none⟩

def nothing (name : String) : Member := ⟨name, .constant none, none, none⟩

/-- What slots say about themselves, which goes by their names; those that are called in the same way
stand together. -/
def slotNotes : List (String × List (String × String)) := [
  ("($self, /)", [
    ("__abs__", "abs(self)"), ("__bool__", "True if self else False"), ("__float__", "float(self)"),
    ("__hash__", "Return hash(self)."),
    ("__index__", "Return self converted to an integer, if self is suitable for use as an index " ++
      "into a list."),
    ("__int__", "int(self)"), ("__invert__", "~self"), ("__iter__", "Implement iter(self)."),
    ("__len__", "Return len(self)."), ("__neg__", "-self"), ("__pos__", "+self"),
    ("__repr__", "Return repr(self)."), ("__str__", "Return str(self).")]),
  ("($self, name, /)", [
    ("__delattr__", "Implement delattr(self, name)."),
    ("__getattribute__", "Return getattr(self, name).")]),
  ("($self, value, /)", [
    ("__add__", "Return self+value."), ("__and__", "Return self&value."),
    ("__divmod__", "Return divmod(self, value)."), ("__eq__", "Return self==value."),
    ("__floordiv__", "Return self//value."), ("__ge__", "Return self>=value."),
    ("__gt__", "Return self>value."), ("__ior__", "Return self|=value."),
    ("__le__", "Return self<=value."), ("__lshift__", "Return self<<value."),
    ("__lt__", "Return self<value."), ("__mod__", "Return self%value."),
    ("__mul__", "Return self*value."), ("__ne__", "Return self!=value."),
    ("__or__", "Return self|value."), ("__radd__", "Return value+self."),
    ("__rand__", "Return value&self."), ("__rdivmod__", "Return divmod(value, self)."),
    ("__rfloordiv__", "Return value//self."), ("__rlshift__", "Return value<<self."),
    ("__rmod__", "Return value%self."), ("__rmul__", "Return value*self."),
    ("__ror__", "Return value|self."), ("__rrshift__", "Return value>>self."),
    ("__rshift__", "Return self>>value."), ("__rsub__", "Return value-self."),
    ("__rtruediv__", "Return value/self."), ("__rxor__", "Return value^self."),
    ("__sub__", "Return self-value."), ("__truediv__", "Return self/value."),
    ("__xor__", "Return self^value.")]),
  ("($self, key, /)", [
    ("__contains__", "Return key in self."), ("__delitem__", "Delete self[key]."),
    ("__getitem__", "Return self[key].")]),
  ("($self, name, value, /)", [
    ("__setattr__", "Implement setattr(self, name, value).")]),
  ("($self, /, *args, **kwargs)", [
    ("__call__", "Call self as a function."),
    ("__init__", "Initialize self.  See help(type(self)) for accurate signature.")]),
  ("($self, value, mod=None, /)", [
    ("__pow__", "Return pow(self, value, mod)."), ("__rpow__", "Return pow(value, self, mod).")]),
  ("($self, key, value, /)", [
    ("__setitem__", "Set self[key] to value.")]),
  ("($self, instance, owner=None, /)", [
    ("__get__", "Return an attribute of instance, which is of type owner.")]),
  ("($self, instance, value, /)", [
    ("__set__", "Set an attribute of instance to value.")]),
  ("($self, instance, /)", [
    ("__delete__", "Delete an attribute of instance.")])]

/-- How a slot is called, with what it says about itself. -/
def slotNote? (name : String) : Option (String × String) :=
  slotNotes.findSome? fun (usage, notes) =>
    (notes.find? (·.1 = name)).map fun (_, about) => (usage, about)

def slots (names : List String) : List Member := names.map fun name =>
  let note? := slotNote? name
  ⟨name, .slot, note?.map (·.1), note?.map (·.2)⟩

end Member

end TableServer.Template
