import TableServer.Json.Reader
import TableServer.Store.Path
import TableServer.Store.Template
import TableServer.Validation.Issue

namespace TableServer

/-- Refusals of a file system. -/
inductive FileError
  | notFound
  | notDirectory
  | isDirectory
  | occupied
  | nameTooLong
  | busy
  | other (number : Nat) (message : String)
  deriving DecidableEq, Repr

namespace FileError

def message : FileError → String
  | notFound => "No such file or directory"
  | notDirectory => "Not a directory"
  | isDirectory => "Is a directory"
  | occupied => "File exists"
  | nameTooLong => "File name too long"
  | busy => "Device or resource busy"
  | other _ message => message

/-- The number that the system gives to a refusal. -/
def number : FileError → Nat
  | notFound => 2
  | notDirectory => 20
  | isDirectory => 21
  | occupied => 17
  | nameTooLong => 36
  | busy => 16
  | other number _ => number

/-- The refusal that a system gives a number to, with its own words for it. -/
def ofNumber (number : Nat) (message : String) : FileError :=
  ([notFound, notDirectory, isDirectory, occupied, nameTooLong, busy].find? fun e =>
    e.number = number).getD (other number message)

/-- A refusal as logs show it, with the path that it is about. -/
def logged (e : FileError) (p : Path) : String :=
  s!"[Errno {e.number}] {e.message}: {quoted p.toString}"

end FileError

/-- What is wrong with the content of a table file. -/
inductive Corruption
  | malformed (complaint : Json.Complaint) (position : Json.Position)
  | invalid (issues : List Issue)
  deriving DecidableEq, Repr

/-- Failures that are reported. The message for clients names the table only, with the reason apart from
it. -/
inductive StorageError
  | invalidName (table : String)
  | unreadable (table : String) (path : Path) (reason : FileError)
  | corrupt (table : String) (path : Path) (reason : Corruption)
  | unwritable (table : String) (path : Path) (reason : FileError)
  /-- The directory that was asked for, and the one above it or itself that was refused. -/
  | noDirectory (path : String) (refused : Path) (reason : FileError)
  | simulated (message : String)
  deriving DecidableEq, Repr

def StorageError.message : StorageError → String
  | invalidName table => "Invalid table name: " ++ quoted table
  | unreadable table _ _ => s!"Failed to read table '{table}'"
  | corrupt table _ _ => s!"Corrupt table file for '{table}'"
  | unwritable table _ _ => s!"Failed to write table '{table}'"
  | noDirectory _ _ _ => "Could not create data directory"
  | simulated message => message

/-- Failures that no caller is told about. -/
inductive Unexpected
  | template (fault : Template.Fault)
  | nulInPath
  | system (e : FileError)
  | notUtf8
  | tooDeep
  | longNumeral (digits : Nat)
  | longNumber
  | unpairedSurrogate
  | broken (message : String)
  deriving DecidableEq, Repr

def longText (detail : String) : String :=
  s!"Exceeds the limit ({Json.digitLimit} digits) for integer string conversion{detail}; " ++
    "use sys.set_int_max_str_digits() to increase the limit"

def Unexpected.message : Unexpected → String
  | template fault => fault.message
  | nulInPath => "embedded null byte"
  | system e => e.message
  | notUtf8 => ""
  | tooDeep => ""
  | longNumeral digits => longText s!": value has {digits} digits"
  | longNumber => longText ""
  | unpairedSurrogate => ""
  | broken message => message

/-- Why a store fails: for a reason that is reported, or unexpectedly. -/
inductive StoreFailure
  | reported (e : StorageError)
  | unexpected (cause : Unexpected)
  deriving DecidableEq, Repr

end TableServer
