import TableServer.Store.Template.CollectionMembers
import TableServer.Store.Template.KindMembers
import TableServer.Store.Template.NumberMembers
import TableServer.Store.Template.OwnMembers
import TableServer.Store.Template.TextMembers

namespace TableServer.Template.Kind

/-- The members of a kind itself. -/
def ownMembers : Kind → List Member
  | text => textMembers
  | number => numberMembers
  | truth => truthMembers
  | nothing => nothingMembers
  | series => seriesMembers
  | dictionary => dictionaryMembers
  | view => viewMembers
  | applied => appliedMembers
  | kind => kindMembers
  | general => generalMembers
  | method => methodMembers
  | slot => slotMembers
  | shared => sharedMembers
  | free => freeMembers
  | property => propertyMembers
  | field => fieldMembers
  | boundMethod => boundMethodMembers
  | boundSlot => boundSlotMembers

def ownMember? (k : Kind) (name : String) : Option Member := k.ownMembers.find? (·.name = name)

/-- The member that a value of a kind has under a name, with the kind that it comes from. -/
def member? (k : Kind) (name : String) : Option (Kind × Member) :=
  k.order.findSome? fun owner => (owner.ownMember? name).map fun m => (owner, m)

end TableServer.Template.Kind
