import TableServer.Server.Log
import TableServer.Store.Choice
import TableServer.Text.Case
import TableServer.Validation.Coercion

namespace TableServer

/-- Where a server keeps its tables. -/
inductive Backend
  | json
  | memory
  deriving DecidableEq, Repr

def Backend.name : Backend → String
  | json => "json"
  | memory => "memory"

/-- The settings of a server. -/
structure Settings where
  host : String
  port : Nat
  chunkSize : Nat
  backend : Backend
  directory : String
  filePattern : String
  sync : Bool
  logLevel : String
  logFormat : LogFormat
  deriving DecidableEq, Repr

namespace Settings

/-- How values are read from the environment. -/
structure Reading where
  /-- What the names of variables start with. -/
  start : String
  exactCase : Bool
  skipsEmpty : Bool
  /-- The value that stands for no value at all. -/
  nullText : Option String
  /-- Whether a backend may also be given by the name of the choice. -/
  choices : Bool
  deriving DecidableEq, Repr

def Reading.default : Reading := ⟨"TABLEDB_", false, false, none, false⟩

/-- The name of the choice of a backend. -/
def choiceName (b : Backend) : String := capitals b.name

/-- The value that the text of a variable gives to a setting. -/
def Reading.valueOf (r : Reading) (name text : String) : Json.Value :=
  let choice? := if r.choices ∧ name = "storage_backend"
    then [Backend.json, .memory].find? fun b => choiceName b = text else none
  match choice? with
  | some b => .ofString b.name
  | none => if r.nullText = some text then .null else .ofString text

/-- Whether a variable has the name that goes with a setting. -/
def Reading.isFor (r : Reading) (setting name : String) : Bool :=
  if r.exactCase then name = r.start ++ setting
  else lowercase name = lowercase (r.start ++ setting)

/-- Where values come from. -/
structure Sources where
  reading : Reading
  environment : List (String × String)
  arguments : List (String × Json.Value)

/-- The argument for a setting. Its name matches in any case, and the first that matches counts. -/
def Sources.fromArguments? (s : Sources) (name : String) : Option Json.Value :=
  (s.arguments.find? fun (n, _) => lowercase n = name).map (·.2)

/-- The variable for a setting. The last that matches counts. -/
def Sources.fromEnvironment? (s : Sources) (name : String) : Option Json.Value :=
  (s.environment.reverse.find? fun (n, text) =>
    s.reading.isFor name n && !(s.reading.skipsEmpty && text.isEmpty)).map fun (_, text) =>
      s.reading.valueOf name text

/-- The value for a setting. Arguments win over the environment; what is given by neither has a default.
-/
def Sources.value? (s : Sources) (name : String) : Option Json.Value :=
  (s.fromArguments? name).or (s.fromEnvironment? name)

/-- A setting with its name, its default, and the check that its value has to pass. -/
def Sources.read {α : Type} (s : Sources) (name : String) (default : α)
    (check : Json.Value → Except Cause α) : Except Issue α :=
  match s.value? name with
  | none => .ok default
  | some v => (check v).mapError (Issue.atMember name)

def checkString (v : Json.Value) : Except Cause String := do
  match (← v.asString).chars? with
  | some cs => .ok (String.ofList cs)
  | none => .error .unpairedSurrogate

/-- A port that can be listened at. -/
def checkPort (v : Json.Value) : Except Cause Nat := do
  let n ← v.asInteger
  if 0 ≤ n ∧ n ≤ 65535 then .ok n.toNat else .error (.portRange n)

def checkChunkSize (v : Json.Value) : Except Cause Nat := do
  let n ← v.asInteger
  if 0 < n then .ok n.toNat else .error .chunkSize

def checkBackend (v : Json.Value) : Except Cause Backend :=
  match checkString v with
  | .ok "json" => .ok .json
  | .ok "memory" => .ok .memory
  | _ => .error .unknownBackend

/-- Whether a text occurs in another. -/
def occursIn (part : List Char) : List Char → Bool
  | [] => part.isEmpty
  | c :: rest => part.isPrefixOf (c :: rest) || occursIn part rest

/-- The field that a pattern has to have. -/
def tableField : List Char := "\x7btable\x7d".toList

/-- A pattern has a place for the name of a table, and is the bare name of a file. -/
def checkPattern (v : Json.Value) : Except Cause String := do
  let pattern ← checkString v
  if !occursIn tableField pattern.toList then .error .patternWithoutTable
  else if pattern.toList.contains '/' then .error .patternWithFolder
  else .ok pattern

def checkLogFormat (v : Json.Value) : Except Cause LogFormat := do
  let name := lowercase (← checkString v)
  if name = "json" then .ok .json
  else if name = "text" then .ok .text
  else .error (.logFormat name)

/-- The names of the settings. -/
def names : List String := [
  "host", "port", "read_chunk_size", "storage_backend", "data_dir", "table_file_pattern", "fsync",
  "log_level", "log_format"]

/-- Arguments that are no settings. -/
def unexpected (arguments : List (String × Json.Value)) : List Issue :=
  (arguments.filter fun (name, _) => !names.contains (lowercase name)).map fun (name, _) =>
    .atMember name .unexpected

def issueOf {α : Type} : Except Issue α → List Issue
  | .ok _ => []
  | .error i => [i]

/-- Reads all settings. Issues come in the order of the settings, with unknown arguments after them. -/
def read (s : Sources) : Except (List Issue) Settings :=
  let host := s.read "host" "0.0.0.0" checkString
  let port := s.read "port" 8004 checkPort
  let chunkSize := s.read "read_chunk_size" 65536 checkChunkSize
  let backend := s.read "storage_backend" .json checkBackend
  let directory := s.read "data_dir" "data" checkString
  let filePattern := s.read "table_file_pattern" "\x7btable\x7d.json" checkPattern
  let sync := s.read "fsync" true Json.Value.asBoolean
  let logLevel := s.read "log_level" "INFO" checkString
  let logFormat := s.read "log_format" .json checkLogFormat
  let issues := issueOf host ++ issueOf port ++ issueOf chunkSize ++ issueOf backend ++
    issueOf directory ++ issueOf filePattern ++ issueOf sync ++ issueOf logLevel ++
    issueOf logFormat ++ unexpected s.arguments
  let settings : Except Issue Settings := do
    .ok ⟨← host, ← port, ← chunkSize, ← backend, ← directory, ← filePattern, ← sync, ← logLevel,
      ← logFormat⟩
  match issues, settings with
  | [], .ok settings => .ok settings
  | issues, _ => .error issues

def bindAddress (s : Settings) : String := s!"{s.host}:{s.port}"

/-- The record that tells of the settings in force. -/
def logged (s : Settings) : LogRecord := {
  source := .settings
  severity := .info
  message := "Server configuration loaded"
  details := [
    ("bind", .ofString s.bindAddress),
    ("storage_backend", .ofString s.backend.name),
    ("data_dir", if s.backend = .json then .ofString s.directory else .null),
    ("table_file_pattern", .ofString s.filePattern),
    ("fsync", .boolean s.sync),
    ("read_chunk_size", .integer s.chunkSize),
    ("log_level", .ofString s.logLevel)]
  failure := false }

def logSetup (s : Settings) : Except LevelFault LogSetup :=
  (levelOfName (capitals s.logLevel)).map fun level => ⟨level, s.logFormat⟩

/-- The store that the settings ask for, over a volume. -/
def store (s : Settings) (v : Volume) : Store :=
  match s.backend with
  | .json => .files ⟨.ofString s.directory, s.filePattern, s.sync, v⟩
  | .memory => .memory .empty

/-- The message about a backend that there is not. -/
def unsupportedBackend (shown : String) : String := "Unsupported storage backend: " ++ shown

/-- The first line that tells of settings that are not valid. -/
def errorHeadline (issues : List Issue) : String :=
  let noun := if issues.length = 1 then "validation error" else "validation errors"
  s!"Configuration error: {issues.length} {noun} for ServerConfig"

end Settings

end TableServer
