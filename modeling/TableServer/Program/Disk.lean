import TableServer.Execution.Page
import TableServer.Store.File

namespace TableServer.Disk

/-- A refusal of the system by its number, which some calls give below zero, and its words. -/
structure Refusal where
  number : Nat
  words : String

def Refusal.of (number : UInt32) (words : String) : Refusal :=
  ⟨number.toInt32.toInt.natAbs, words.capitalize⟩

def Refusal.ofError : IO.Error → Refusal
  | .alreadyExists _ n words => .of n words
  | .otherError n words => .of n words
  | .resourceBusy n words => .of n words
  | .resourceVanished n words => .of n words
  | .unsupportedOperation n words => .of n words
  | .hardwareFault n words => .of n words
  | .unsatisfiedConstraints n words => .of n words
  | .illegalOperation n words => .of n words
  | .protocolError n words => .of n words
  | .timeExpired n words => .of n words
  | .interrupted _ n words => .of n words
  | .noFileOrDirectory _ n words => .of n words
  | .invalidArgument _ n words => .of n words
  | .permissionDenied _ n words => .of n words
  | .resourceExhausted _ n words => .of n words
  | .inappropriateType _ n words => .of n words
  | .noSuchThing _ n words => .of n words
  | .unexpectedEof => .of 0 "unexpected end of file"
  | .userError words => .of 0 words

/-- A refusal as logs show it. -/
def Refusal.shown (r : Refusal) : String := s!"[Errno {r.number}] {r.words}"

/-- Does what the system may refuse. -/
def attempt {α : Type} (action : IO α) : IO (Except FileError α) := do
  try
    return .ok (← action)
  catch e =>
    let r := Refusal.ofError e
    return .error (.ofNumber r.number r.words)

/-- Whether a directory is at a path: reading from it is refused for that reason. -/
def isDirectory (p : Path) : IO Bool := do
  match ← attempt (do (← IO.FS.Handle.mk p.toString .read).read 1) with
  | .error .isDirectory => return true
  | _ => return false

def makeDirectory (p : Path) : IO (Except FileError Unit) := attempt (IO.FS.createDir p.toString)

/-- A directory that could not be made will do where one is. -/
def settle (p : Path) : Except FileError Unit → IO (Except (Path × FileError) Unit)
  | .ok () => return .ok ()
  | .error e => return if ← isDirectory p then .ok () else .error (p, e)

/-- Makes a directory, and before it those above; the names come from the last to the first. -/
def makeDirectoriesFrom (slashes : Nat) : List String → IO (Except (Path × FileError) Unit)
  | [] => return .ok ()
  | name :: above => do
    let p : Path := ⟨slashes, (name :: above).reverse⟩
    match ← makeDirectory p with
    | .error .notFound =>
      match ← makeDirectoriesFrom slashes above with
      | .ok () => settle p (← makeDirectory p)
      | .error e => return .error e
    | result => settle p result

def makeDirectories (p : Path) : IO (Except (Path × FileError) Unit) :=
  makeDirectoriesFrom p.slashes p.names.reverse

def makeDataDirectory (directory : String) : IO (Except StoreFailure Unit) := do
  let p := Path.ofString directory
  if p.hasNul then return .error (.unexpected .nulInPath)
  match ← makeDirectories p with
  | .ok () => return .ok ()
  | .error (refused, e) => return .error (.reported (.noDirectory directory refused e))

/-- Reads a table from the disk. What a path, a content or a refusal means is told by the store. -/
def load (s : FileStore) (table : String) : IO (Except StoreFailure (List Record)) := do
  match s.path table with
  | .error e => return .error e
  | .ok p =>
    if p.hasNul then return .error (.unexpected .nulInPath)
    let content ← attempt (IO.FS.readBinFile p.toString)
    return FileStore.records table p (content.map ByteArray.toList)

/-- Carries out a step; `file` is the temporary file once it has been made. There is no call that waits
for the disk, so that the step for it is one more flush. -/
def perform (plan : SavePlan) (file : Option IO.FS.Handle) :
    SaveStep → IO (Except FileError (Option IO.FS.Handle))
  | .makeDirectories => return ((← makeDirectories plan.target.parent).mapError (·.2)).map fun () => file
  | .create => attempt (some <$> IO.FS.Handle.mk plan.temporary.toString .writeNew)
  | .write part => attempt (file.forM (·.write ⟨part.toArray⟩) *> pure file)
  | .flush => attempt (file.forM (·.flush) *> pure file)
  | .sync => attempt (file.forM (·.flush) *> pure file)
  | .replace => attempt (IO.FS.rename plan.temporary.toString plan.target.toString *> pure file)

/-- Carries out steps. When one is refused the temporary file goes, if it has been made. -/
def run (plan : SavePlan) (file : Option IO.FS.Handle) : List SaveStep → IO (Except FileError Unit)
  | [] => return .ok ()
  | step :: rest => do
    match ← perform plan file step with
    | .ok file => run plan file rest
    | .error e =>
      if file.isSome then IO.FS.removeFile plan.temporary.toString
      return .error e

/-- Writes a table to the disk, by the steps of the store. -/
def save (s : FileStore) (table : String) (records : List Record) : IO (Except StoreFailure Unit) := do
  match s.path table with
  | .error e => return .error e
  | .ok p =>
    let tag := FileStore.tag (← IO.rand 0 99999999)
    let plan : SavePlan := ⟨p, FileStore.temporaryPath p tag, s.sync⟩
    match FileStore.script plan records with
    | .error cause => return .error (.unexpected cause)
    | .ok script => return FileStore.conclude table plan script (← run plan none script.steps)

/-- Runs a command between a load and a save. -/
def execute (s : FileStore) (c : Command) : IO Result := do
  let (result, page) := TableServer.execute (Page.ofLoaded (← load s c.table)) c
  match page.saved with
  | none => return result
  | some records => return Page.resultOfSave result (← save s c.table records)

end TableServer.Disk
