import TableServer.Store.Template.Member

namespace TableServer.Template

open Member

/-- The members that all values have, in order. -/
def generalMembers : List Member :=
  [maker] ++
  slots
    ["__repr__", "__hash__", "__str__", "__getattribute__", "__setattr__", "__delattr__", "__lt__",
     "__le__", "__eq__", "__ne__", "__gt__", "__ge__", "__init__"] ++
  [
    method "__reduce_ex__" (some "($self, protocol, /)") ["Helper for pickle."],
    method "__reduce__" (some "($self, /)") ["Helper for pickle."],
    method "__getstate__" (some "($self, /)") ["Helper for pickle."],
    shared "__subclasshook__" none
      ["Abstract classes can override this to customize issubclass().", "",
       "This is invoked early on by abc.ABCMeta.__subclasscheck__().",
       "It should return True, False or NotImplemented.  If it returns",
       "NotImplemented, the normal algorithm is used.  Otherwise, it",
       "overrides the normal algorithm (and the outcome is cached).", ""],
    shared "__init_subclass__" none
      ["This method is called when a class is subclassed.", "",
       "The default implementation does nothing. It may be", "overridden to extend subclasses.", ""],
    method "__format__" (some "($self, format_spec, /)") ["Default object formatter."],
    method "__sizeof__" (some "($self, /)") ["Size of object in memory, in bytes."],
    method "__dir__" (some "($self, /)") ["Default dir() implementation."],
    property "__class__" (some "the object's class"),
    constant "__doc__"
      ["The base class of the class hierarchy.", "",
       "When called, it accepts no arguments and returns a new featureless",
       "instance that has no instance attributes and cannot be given any.", ""]]

/-- The members of kinds, in order. -/
def kindMembers : List Member :=
  [maker] ++
  slots
    ["__repr__", "__call__", "__getattribute__", "__setattr__", "__delattr__", "__init__", "__or__",
     "__ror__"] ++
  [
    method "mro" (some "($self, /)") ["Return a type's method resolution order."],
    method "__subclasses__" (some "($self, /)") ["Return a list of immediate subclasses."],
    shared "__prepare__" none
      ["__prepare__() -> dict", "used to create the namespace for the class statement"],
    method "__instancecheck__" (some "($self, instance, /)") ["Check if an object is an instance."],
    method "__subclasscheck__" (some "($self, subclass, /)") ["Check if a class is a subclass."],
    method "__dir__" (some "($self, /)") ["Specialized __dir__ implementation for types."],
    method "__sizeof__" (some "($self, /)") ["Return memory consumption of the type object."],
    field "__basicsize__",
    field "__itemsize__",
    field "__flags__",
    field "__weakrefoffset__",
    field "__base__",
    field "__dictoffset__",
    field "__mro__",
    property "__name__" none,
    property "__qualname__" none,
    property "__bases__" none,
    property "__module__" none,
    property "__abstractmethods__" none,
    property "__dict__" none,
    property "__doc__" none,
    property "__text_signature__" none,
    property "__annotations__" none]

/-- The members of the value that stands for nothing, in order. -/
def nothingMembers : List Member :=
  [maker] ++
  slots ["__repr__", "__bool__"] ++
  [nothing "__doc__"]

/-- The members of kinds with an argument, in order. -/
def appliedMembers : List Member :=
  [maker] ++
  slots
    ["__repr__", "__hash__", "__call__", "__getattribute__", "__lt__", "__le__", "__eq__", "__ne__",
     "__gt__", "__ge__", "__iter__", "__or__", "__ror__", "__getitem__"] ++
  [
    method "__mro_entries__" none [],
    method "__instancecheck__" none [],
    method "__subclasscheck__" none [],
    method "__reduce__" none [],
    method "__dir__" none [],
    field "__origin__",
    field "__args__",
    field "__unpacked__",
    property "__parameters__" (some "Type variables in the GenericAlias."),
    property "__typing_unpacked_tuple_args__" none,
    constant "__doc__"
      ["Represent a PEP 585 generic type", "",
       "E.g. for t = list[int], t.__origin__ is list and t.__args__ is (int,)."]]

end TableServer.Template
