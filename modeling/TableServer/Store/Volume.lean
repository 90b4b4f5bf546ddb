import TableServer.Store.Failure
import TableServer.Text.Utf8

namespace TableServer

/-- What can stand at a place of a volume: a directory, or a file with its content. -/
inductive Node
  | directory
  | file (content : Bytes)
  deriving DecidableEq, Repr

/-- The names from the root to a node. -/
abbrev Place := List String

/-- A file system without links: what stands where. Of two entries for a place the first counts. The root
is a directory always. -/
structure Volume where
  entries : List (Place × Node)
  deriving Repr

namespace Volume

def empty : Volume := ⟨[]⟩

def node? (v : Volume) (place : Place) : Option Node :=
  if place = [] then some .directory else (v.entries.find? fun e => e.1 = place).map (·.2)

def remove (v : Volume) (place : Place) : Volume := ⟨v.entries.filter fun e => e.1 ≠ place⟩

def put (v : Volume) (place : Place) (node : Node) : Volume := ⟨(place, node) :: (v.remove place).entries⟩

theorem node?_put_self (v : Volume) {place : Place} (node : Node) (h : place ≠ []) :
    (v.put place node).node? place = some node := by
  simp [node?, put, h]

theorem node?_remove_self (v : Volume) {place : Place} (h : place ≠ []) :
    (v.remove place).node? place = none := by
  simp [node?, remove, h, List.find?_filter]

theorem node?_remove_of_ne (v : Volume) {place other : Place} (h : other ≠ place) :
    (v.remove place).node? other = v.node? other := by
  unfold node? remove
  split
  · rfl
  · rw [List.find?_filter]
    congr 2
    funext e
    by_cases he : e.1 = other <;> simp [he, h]

theorem node?_put_of_ne (v : Volume) {place other : Place} (node : Node) (h : other ≠ place) :
    (v.put place node).node? other = v.node? other := by
  have hr := node?_remove_of_ne v h
  unfold node? at hr ⊢
  split
  · rfl
  · next ho =>
    simp only [ho, ↓reduceIte] at hr
    simp only [put, List.find?_cons, Ne.symm h, decide_false, hr]

/-- The longest name in bytes. -/
def nameLimit : Nat := 255

/-- Longer paths in bytes are refused before any step. -/
def pathLimit : Nat := 4095

/-- Follows names from a place. All but the last have to lead to a directory. -/
def walk (v : Volume) (place : Place) : List String → Except FileError Place
  | [] => .ok place
  | name :: rest =>
    match v.node? place with
    | none => .error .notFound
    | some (.file _) => .error .notDirectory
    | some .directory =>
      if nameLimit < name.utf8ByteSize then .error .nameTooLong
      else walk v (if name = ".." then place.dropLast else place ++ [name]) rest

/-- The place that a path leads to, by steps from the root. A name of two dots steps back. -/
def resolve (v : Volume) (p : Path) : Except FileError Place :=
  if pathLimit < p.toString.utf8ByteSize then .error .nameTooLong else v.walk [] p.names

/-- What stands where a path leads to. -/
def status (v : Volume) (p : Path) : Except FileError Node := do
  match v.node? (← v.resolve p) with
  | none => .error .notFound
  | some node => .ok node

def isDirectory (v : Volume) (p : Path) : Bool :=
  match v.status p with
  | .ok .directory => true
  | _ => false

def read (v : Volume) (p : Path) : Except FileError Bytes := do
  match ← v.status p with
  | .directory => .error .isDirectory
  | .file content => .ok content

/-- Makes one directory. -/
def makeDirectory (v : Volume) (p : Path) : Except FileError Volume := do
  let place ← v.resolve p
  match v.node? place with
  | some _ => .error .occupied
  | none => .ok (v.put place .directory)

/-- Makes a directory unless it is there, and before it those above; the names come from the last to
the first. Directories made before a refusal stay. A refusal tells which directory it is about. -/
def makeDirectoriesFrom (slashes : Nat) : List String → Volume → Except (Path × FileError) Unit × Volume
  | [], v => (.ok (), v)
  | name :: above, v =>
    let p : Path := ⟨slashes, (name :: above).reverse⟩
    let settle := fun (v : Volume) (result : Except FileError Volume) =>
      match result with
      | .ok v => (.ok (), v)
      | .error e => if v.isDirectory p then (.ok (), v) else (.error (p, e), v)
    match v.makeDirectory p with
    | .error .notFound =>
      match makeDirectoriesFrom slashes above v with
      | (.ok (), v) => settle v (v.makeDirectory p)
      | (.error e, v) => (.error e, v)
    | result => settle v result

def makeDirectories (v : Volume) (p : Path) : Except (Path × FileError) Unit × Volume :=
  makeDirectoriesFrom p.slashes p.names.reverse v

/-- Makes an empty file where nothing stands yet. -/
def create (v : Volume) (p : Path) : Except FileError Volume := do
  let place ← v.resolve p
  match v.node? place with
  | some _ => .error .occupied
  | none => .ok (v.put place (.file []))

/-- Adds to the end of a file. -/
def append (v : Volume) (p : Path) (more : Bytes) : Except FileError Volume := do
  let place ← v.resolve p
  match v.node? place with
  | some (.file content) => .ok (v.put place (.file (content ++ more)))
  | some .directory => .error .isDirectory
  | none => .error .notFound

def delete (v : Volume) (p : Path) : Volume :=
  match v.resolve p with
  | .ok place => v.remove place
  | .error _ => v

/-- Moves a file in one step, onto another if one stands there. -/
def rename (v : Volume) (source target : Path) : Except FileError Volume := do
  let origin ← v.resolve source
  let goal ← v.resolve target
  match v.node? origin with
  | none => .error .notFound
  | some node =>
    if target.name = "" ∨ target.name = ".." then .error .busy
    else match v.node? goal with
      | some .directory => .error .isDirectory
      | _ => .ok ((v.remove origin).put goal node)

/-- Names in a directory, each once. -/
def list (v : Volume) (place : Place) : List String :=
  (v.entries.filterMap fun e => if e.1.dropLast = place then e.1.getLast? else none).eraseDups

end Volume

end TableServer
