import TableServer.Text.Split

namespace TableServer

/-- Names behind a root or none. The slashes in front are the root: none in a relative path, else one, or
exactly two where there are exactly two. -/
structure Path where
  slashes : Nat
  names : List String
  deriving DecidableEq, Repr

namespace Path

/-- Whether a part of a path counts as a name. -/
def isName (name : String) : Bool := name != "" && name != "."

/-- Reads a path. Empty names and single dots go; a name of two dots stays, for it means something only
where the names before it are known to be directories. -/
def ofChars (cs : List Char) : Path :=
  let slashes := (cs.takeWhile (· = '/')).length
  { slashes := if slashes = 2 then 2 else min slashes 1
    names := ((splitMarks (· = '/') cs).map String.ofList).filter isName }

def ofString (s : String) : Path := ofChars s.toList

/-- A path as seen from another; one with a root stands for itself. -/
def join (base p : Path) : Path :=
  if p.slashes = 0 then { base with names := base.names ++ p.names } else p

def parent (p : Path) : Path := { p with names := p.names.dropLast }

/-- The last name; it is empty where there is none. -/
def name (p : Path) : String := p.names.getLast?.getD ""

/-- The directory that is the start of relative paths is written as a dot. -/
def toString (p : Path) : String :=
  if p.slashes = 0 ∧ p.names = [] then "."
  else String.ofList (List.replicate p.slashes '/') ++ String.intercalate "/" p.names

/-- The names without those that a name of two dots behind them takes back. Two dots stay where nothing
is before them; a root has nothing above it. -/
def shortened (p : Path) : List String :=
  let names := p.names.foldl (fun before name =>
    if name = ".." ∧ before.head?.any (· != "..") then before.tail else name :: before) []
  if p.slashes = 0 then names.reverse else names.reverse.dropWhile (· = "..")

/-- The names that two lists start with in common, counted. -/
def countCommon : List String → List String → Nat
  | a :: as, b :: bs => if a = b then countCommon as bs + 1 else 0
  | _, _ => 0

/-- A path as seen from a directory, by the names alone; one with another root stands for itself. -/
def relativeTo (directory p : Path) : Path :=
  if directory.slashes = p.slashes then
    let common := countCommon directory.shortened p.shortened
    ⟨0, List.replicate (directory.shortened.length - common) ".." ++ p.shortened.drop common⟩
  else p

/-- No file system takes a NUL character. -/
def hasNul (p : Path) : Bool := p.names.any fun name => name.toList.contains '\x00'

end Path

end TableServer
