import TableServer.Json.Writer
import TableServer.Text.Quoted

namespace TableServer

/-- Records are written as text or as JSON. -/
inductive LogFormat
  | json
  | text
  deriving DecidableEq, Repr

inductive Severity
  | debug
  | info
  | warning
  | error
  | critical
  deriving DecidableEq, Repr

namespace Severity

def number : Severity → Nat
  | debug => 10
  | info => 20
  | warning => 30
  | error => 40
  | critical => 50

def name : Severity → String
  | debug => "DEBUG"
  | info => "INFO"
  | warning => "WARNING"
  | error => "ERROR"
  | critical => "CRITICAL"

end Severity

/-- The parts of the server that log. -/
inductive LogSource
  | main
  | settings
  | listener
  deriving DecidableEq, Repr

def LogSource.name : LogSource → String
  | main => "dbaas.tabledb_server.main"
  | settings => "dbaas.tabledb_server.config"
  | listener => "dbaas.tabledb_server.api.tcp_server"

/-- A record of the log, from one of the parts of the server. -/
structure LogRecord where
  source : LogSource
  severity : Severity
  message : String
  details : List (String × Json.Value)
  /-- Whether the record is about a failure whose course is written with it. -/
  failure : Bool

namespace LogRecord

def of (source : LogSource) (severity : Severity) (message : String) : LogRecord :=
  ⟨source, severity, message, [], false⟩

/-- A record as text, without its time. -/
def text (r : LogRecord) : String := s!"{r.source.name} - {r.severity.name} - {r.message}"

/-- The members of a record in JSON; `time` stands where the members for the time do. -/
def membersWith (r : LogRecord) (time : List (String × Json.Value)) : List (String × Json.Value) :=
  r.details ++ [("message", .ofString r.message)] ++ time ++
    (if r.failure then [("exc_info", .boolean true)] else [])

/-- The members of a record, without its time. -/
def members (r : LogRecord) : List (String × Json.Value) := r.membersWith []

/-- The line that a record is written as. -/
def line (r : LogRecord) (format : LogFormat) (time : String) : String :=
  match format with
  | .text => s!"{time} - {r.text}"
  | .json =>
    let members := r.membersWith [("time", .ofString time)]
    match Json.write .terminal (.object (members.map fun (name, v) => (Text.ofString name, v))) with
    | .ok text => String.ofList (text.filterMap CodePoint.scalar?)
    | .error _ => ""

/-- An address and a port, as messages show them. -/
def shownAddress (host : String) (port : Nat) : String := s!"({quoted host}, {port})"

def ofPeer (severity : Severity) (message peer : String) : LogRecord :=
  ⟨.listener, severity, message, [("peer", .ofString peer)], false⟩

def connected (peer : String) : LogRecord := ofPeer .info "Client connected" peer

def disconnected (peer : String) : LogRecord := ofPeer .info "Client disconnected" peer

def connectionError (peer reason : String) : LogRecord :=
  ofPeer .warning ("Connection error: " ++ reason) peer

def received (statement : String) : LogRecord :=
  ⟨.listener, .debug, "Received command", [("statement", .ofString statement)], false⟩

end LogRecord

/-- How the log is set up: the least level that is written, and the format. -/
structure LogSetup where
  level : Nat
  format : LogFormat
  deriving DecidableEq, Repr

namespace LogSetup

/-- The least level of what the libraries below have to say. -/
def libraryLevel : Nat := Severity.warning.number

/-- The layout of records as text. -/
def textLayout : String := "%(asctime)s - %(name)s - %(levelname)s - %(message)s"

/-- Whether a record is of the least level that is written, or above it. -/
def keeps (s : LogSetup) (r : LogRecord) : Bool := s.level ≤ r.severity.number

end LogSetup

/-- Why a level cannot be used: the name is not that of a level but of something else. -/
inductive LevelFault
  | layout
  | styles
  deriving DecidableEq, Repr

namespace LevelFault

/-- What stands under the name of the styles: each by its mark, with the layout that it comes with. -/
def shownStyles : String :=
  let entry := fun mark style layout => s!"{quoted mark}: (<class 'logging.{style}'>, {quoted layout})"
  "\x7b" ++ String.intercalate ", " [
    entry "%" "PercentStyle" "%(levelname)s:%(name)s:%(message)s",
    entry "\x7b" "StrFormatStyle" "\x7blevelname\x7d:\x7bname\x7d:\x7bmessage\x7d",
    entry "$" "StringTemplateStyle" "$\x7blevelname\x7d:$\x7bname\x7d:$\x7bmessage\x7d"] ++ "\x7d"

def message : LevelFault → String
  | layout => "Unknown level: " ++ quoted "%(levelname)s:%(name)s:%(message)s"
  | styles => "Level not an integer or a valid string: " ++ shownStyles

end LevelFault

/-- The level that a name in capitals stands for; a name that is unknown stands for the level of
information. -/
def levelOfName (name : String) : Except LevelFault Nat :=
  match name with
  | "CRITICAL" => .ok 50
  | "FATAL" => .ok 50
  | "ERROR" => .ok 40
  | "WARNING" => .ok 30
  | "WARN" => .ok 30
  | "INFO" => .ok 20
  | "DEBUG" => .ok 10
  | "NOTSET" => .ok 0
  | "BASIC_FORMAT" => .error .layout
  | "_STYLES" => .error .styles
  | _ => .ok Severity.info.number

end TableServer
