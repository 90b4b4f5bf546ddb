import TableServer.Json.Writer
import TableServer.Store.Save
import TableServer.Store.Table
import TableServer.Text.Alphanumeric
import TableServer.Text.Newline

namespace TableServer

namespace TableFile

/-- The content of a table file: a JSON array of records, indented for people to read. -/
def encode (records : List Record) : Except Unexpected Bytes :=
  match Json.write .indented (Record.listToJson records) with
  | .error _ => .error .longNumber
  | .ok text =>
    match text.chars? with
    | none => .error .unpairedSurrogate
    | some cs => .ok (Utf8.encode cs)

/-- Why a content is no list of records: it is corrupt, or the reading itself breaks off. -/
inductive Fault
  | corrupt (reason : Corruption)
  | unexpected (cause : Unexpected)
  deriving DecidableEq, Repr

/-- Reads a content, with line ends of any kind taken for newlines. -/
def decode (content : Bytes) : Except Fault (List Record) :=
  match Utf8.decode content with
  | none => .error (.unexpected .notUtf8)
  | some cs =>
    match Json.read (unifyNewlines cs) with
    | .error (.malformed complaint position) => .error (.corrupt (.malformed complaint position))
    | .error .tooDeep => .error (.unexpected .tooDeep)
    | .error (.tooLong digits) => .error (.unexpected (.longNumeral digits))
    | .ok v => (Record.listOfJson v).mapError fun issues => .corrupt (.invalid issues)

end TableFile

/-- Tables as files of a directory, one file each. -/
structure FileStore where
  directory : Path
  pattern : String
  sync : Bool
  volume : Volume
  deriving Repr

namespace FileStore

def isSafe (c : Char) : Bool := isAlphanumeric c || c = '_'

/-- The name of a table as far as it may stand in a file name. -/
def safeName (table : String) : String := String.ofList (table.toList.filter isSafe)

/-- The path of a table. The pattern is expanded with what of the table's name is safe in a file name. -/
def path (s : FileStore) (table : String) : Except StoreFailure Path :=
  if safeName table = "" then .error (.reported (.invalidName table))
  else match Template.expand s.pattern (safeName table) with
    | .ok name => .ok (s.directory.join (.ofString name))
    | .error fault => .error (.unexpected (.template fault))

/-- The records of a table whose file has been read; a table without one is empty. -/
def records (table : String) (p : Path) :
    Except FileError Bytes → Except StoreFailure (List Record)
  | .error .notFound => .ok []
  | .error e => .error (.reported (.unreadable table p e))
  | .ok content =>
    match TableFile.decode content with
    | .ok records => .ok records
    | .error (.corrupt reason) => .error (.reported (.corrupt table p reason))
    | .error (.unexpected cause) => .error (.unexpected cause)

/-- The records of a table as its file has them. -/
def read (s : FileStore) (table : String) : Except StoreFailure (List Record) := do
  let p ← s.path table
  if p.hasNul then .error (.unexpected .nulInPath) else records table p (s.volume.read p)

/-- The path of a temporary file beside another; the tag has eight characters. -/
def temporaryPath (p : Path) (tag : String) : Path :=
  p.parent.join ⟨0, ["." ++ p.name ++ "." ++ tag ++ ".tmp"]⟩

/-- The number `n` in eight digits or more. -/
def tag (n : Nat) : String :=
  let digits := Nat.toDigits 10 n
  String.ofList (List.replicate (8 - digits.length) '0' ++ digits)

/-- A temporary path where nothing stands. -/
def freeTemporary (v : Volume) (p : Path) : Path :=
  let candidates := (List.range (v.entries.length + 1)).map fun n => temporaryPath p (tag n)
  (candidates.find? fun t => match v.status t with
    | .ok _ => false
    | .error _ => true).getD (temporaryPath p (tag 0))

def plan (s : FileStore) (p : Path) : SavePlan := ⟨p, freeTemporary s.volume p, s.sync⟩

/-- What a save comes to at a path: the steps in order, and the answer unless one is refused. -/
structure Script where
  steps : List SaveStep
  answer : Except Unexpected Unit
  deriving Repr

/-- The script of a save. An id that is too long shows before anything is done, a text that cannot be
encoded only when it is written, so that an empty temporary file is left then; a NUL character shows
where the first name with it is used. -/
def script (plan : SavePlan) (records : List Record) : Except Unexpected Script :=
  match TableFile.encode records with
  | .error .longNumber => .error .longNumber
  | encoded =>
    if plan.target.parent.hasNul then .error .nulInPath
    else if plan.target.hasNul then .ok ⟨[.makeDirectories], .error .nulInPath⟩
    else match encoded with
      | .ok content => .ok ⟨plan.steps [content], .ok ()⟩
      | .error cause => .ok ⟨[.makeDirectories, .create], .error cause⟩

/-- What a save answers when its steps are over. -/
def conclude (table : String) (plan : SavePlan) (script : Script) :
    Except FileError Unit → Except StoreFailure Unit
  | .ok () => script.answer.mapError .unexpected
  | .error e => .error (.reported (.unwritable table plan.target e))

/-- Replaces the records of a table. -/
def replace (s : FileStore) (table : String) (records : List Record) :
    Except StoreFailure Unit × FileStore :=
  match s.path table with
  | .error e => (.error e, s)
  | .ok p =>
    let plan := s.plan p
    match script plan records with
    | .error cause => (.error (.unexpected cause), s)
    | .ok script =>
      let (outcome, v) := plan.run false (script.steps.map fun step => (step, none)) s.volume
      (conclude table plan script outcome, { s with volume := v })

/-- Whether a table has been saved. -/
def holds (s : FileStore) (table : String) : Except StoreFailure Bool := do
  let p ← s.path table
  if p.hasNul then .ok false
  else match s.volume.status p with
    | .ok _ => .ok true
    | .error .notFound => .ok false
    | .error .notDirectory => .ok false
    | .error e => .error (.unexpected (.system e))

instance : TableStore FileStore := ⟨fun s table => (s.read table, s), replace⟩

/-- Makes a data directory where none is yet. -/
def ensureDirectory (v : Volume) (directory : String) : Except StoreFailure Unit × Volume :=
  let p := Path.ofString directory
  if p.hasNul then (.error (.unexpected .nulInPath), v)
  else match v.makeDirectories p with
    | (.ok (), v) => (.ok (), v)
    | (.error (refused, e), v) => (.error (.reported (.noDirectory directory refused e)), v)

end FileStore

end TableServer
