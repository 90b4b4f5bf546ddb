import TableServer.Store.Template.Member

namespace TableServer.Template

open Member

/-- The members of methods that are bound to a value, in order; those of the other forms follow. -/
def boundMethodMembers : List Member :=
  slots
    ["__repr__", "__hash__", "__call__", "__getattribute__", "__lt__", "__le__", "__eq__", "__ne__",
     "__gt__", "__ge__"] ++
  [
    method "__reduce__" none [],
    field "__module__",
    property "__doc__" none,
    property "__name__" none,
    property "__qualname__" none,
    property "__self__" none,
    property "__text_signature__" none]

def boundSlotMembers : List Member :=
  slots
    ["__repr__", "__hash__", "__call__", "__getattribute__", "__lt__", "__le__", "__eq__", "__ne__",
     "__gt__", "__ge__"] ++
  [
    method "__reduce__" none [],
    field "__self__",
    property "__objclass__" none,
    property "__name__" none,
    property "__qualname__" none,
    property "__doc__" none,
    property "__text_signature__" none]

def methodMembers : List Member :=
  slots ["__repr__", "__call__", "__getattribute__", "__get__"] ++
  [
    method "__reduce__" none [],
    field "__objclass__",
    field "__name__",
    property "__doc__" none,
    property "__qualname__" none,
    property "__text_signature__" none]

def slotMembers : List Member :=
  slots ["__repr__", "__call__", "__getattribute__", "__get__"] ++
  [
    method "__reduce__" none [],
    field "__objclass__",
    field "__name__",
    property "__doc__" none,
    property "__qualname__" none,
    property "__text_signature__" none]

def sharedMembers : List Member :=
  slots ["__repr__", "__call__", "__getattribute__", "__get__"] ++
  [
    field "__objclass__",
    field "__name__",
    property "__doc__" none,
    property "__qualname__" none,
    property "__text_signature__" none]

def propertyMembers : List Member :=
  slots ["__repr__", "__getattribute__", "__get__", "__set__", "__delete__"] ++
  [
    field "__objclass__",
    field "__name__",
    property "__doc__" none,
    property "__qualname__" none]

def fieldMembers : List Member :=
  slots ["__repr__", "__getattribute__", "__get__", "__set__", "__delete__"] ++
  [
    method "__reduce__" none [],
    field "__objclass__",
    field "__name__",
    property "__doc__" none,
    property "__qualname__" none]

def freeMembers : List Member :=
  [maker] ++
  slots ["__repr__", "__call__", "__get__", "__init__"] ++
  [
    field "__func__",
    field "__wrapped__",
    property "__isabstractmethod__" none,
    property "__dict__" none,
    nothing "__doc__"]

end TableServer.Template
