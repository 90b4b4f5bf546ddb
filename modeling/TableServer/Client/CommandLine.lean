import TableServer.Client.Connect
import TableServer.Client.Query
import TableServer.Number.Decimal
import TableServer.Text.Quoted

namespace TableServer.CommandLine

/-- The options of the client. -/
inductive Flag
  | help
  | host
  | port
  | timeout
  deriving DecidableEq, Repr

/-- The names of the options, in the order in which they are looked at. -/
def flagNames : List (String × Flag) := [
  ("-h", .help), ("--help", .help), ("--host", .host), ("--port", .port), ("--timeout", .timeout)]

namespace Flag

/-- An option as messages name it. -/
def shown : Flag → String
  | help => "-h/--help"
  | host => "--host"
  | port => "--port"
  | timeout => "--timeout"

end Flag

/-- What a command line asks a run of the client for. -/
structure Arguments where
  statements : List String
  target : Client.Target
  deriving DecidableEq, Repr

/-- How long an answer may take if nothing else is asked for. -/
def defaultTimeout : Binary64 := .ofDecimal false 10 0

def Arguments.default : Arguments := ⟨[], ⟨some "127.0.0.1", some 8004, some defaultTimeout⟩⟩

/-- Why a command line is refused. -/
inductive Fault
  | ambiguous (given : String) (names : List String)
  | missingValue (o : Flag)
  | uselessValue (o : Flag) (value : String)
  | noInteger (value : String)
  | noNumber (value : String)
  | unrecognized (arguments : List String)
  | noStatements
  deriving DecidableEq, Repr

namespace Fault

def message : Fault → String
  | ambiguous given names =>
    s!"ambiguous option: {given} could match " ++ String.intercalate ", " names
  | missingValue o => s!"argument {o.shown}: expected one argument"
  | uselessValue o value => s!"argument {o.shown}: ignored explicit argument {quoted value}"
  | noInteger value => s!"argument --port: invalid int value: {quoted value}"
  | noNumber value => s!"argument --timeout: invalid float value: {quoted value}"
  | unrecognized arguments => "unrecognized arguments: " ++ String.intercalate " " arguments
  | noStatements => "no statements given"

end Fault

/-- A value in the same word as its option: after an equals sign, or right behind a short option. -/
inductive Attached
  | nothing
  | equals (value : String)
  | behind (value : String)
  deriving DecidableEq, Repr

/-- The word after which every word is plain. -/
def separator : String := "--"

/-- A word of the command line. -/
inductive Word
  | plain (text : String)
  | separator
  | option (o : Flag) (value : Attached)
  | unknown (text : String)
  deriving DecidableEq, Repr

/-- The text before the first equals sign, and the text after it if there is one. -/
def splitValue (cs : List Char) : List Char × Option (List Char) :=
  match cs.dropWhile (· ≠ '=') with
  | [] => (cs, none)
  | _ :: value => (cs.takeWhile (· ≠ '='), some value)

/-- Digits of any script, of which there is one at least. -/
def isNumber (cs : List Char) : Bool := !cs.isEmpty && cs.all fun c => (digitValue? c).isSome

/-- Whether a word reads as a number below zero. A newline at its end does not count. -/
def isNegative (cs : List Char) : Bool :=
  match cs with
  | '-' :: rest =>
    let rest := if rest.getLast? = some '\n' then rest.dropLast else rest
    let whole := rest.takeWhile (· ≠ '.')
    match rest.dropWhile (· ≠ '.') with
    | [] => isNumber whole
    | _ :: places => (whole.isEmpty || isNumber whole) && isNumber places
  | _ => false

/-- A value after an equals sign. Behind a short option the sign does not count, unless nothing follows
it. -/
def Attached.afterEquals (name value : List Char) : Attached :=
  if name.length = 2 ∧ value ≠ [] then behind (String.ofList value) else equals (String.ofList value)

/-- Options that a word may be short for, each with the value that the word holds. A word with one dash
is a short option with its value behind it. -/
def candidates (cs : List Char) : List (Flag × String × Attached) :=
  match cs with
  | '-' :: '-' :: _ =>
    let (start, value) := splitValue cs
    (flagNames.filter fun (name, _) => start.isPrefixOf name.toList).map fun (name, o) =>
      (o, name, value.elim .nothing (.afterEquals name.toList))
  | '-' :: c :: value =>
    flagNames.filterMap fun (name, o) =>
      if name.toList = ['-', c] then some (o, name, .behind (String.ofList value))
      else if cs.isPrefixOf name.toList then some (o, name, .nothing)
      else none
  | _ => []

/-- The option that a word is the whole name of. -/
def findFlag? (cs : List Char) : Option Flag :=
  (flagNames.find? fun (name, _) => name.toList = cs).map (·.2)

/-- What a word is by itself. -/
def Word.ofString (s : String) : Except Fault Word :=
  let cs := s.toList
  if cs.head? ≠ some '-' then .ok (.plain s)
  else match findFlag? cs with
    | some o => .ok (.option o .nothing)
    | none =>
      if cs = ['-'] then .ok (.plain s)
      else
        let (start, value) := splitValue cs
        match findFlag? start, value with
        | some o, some value => .ok (.option o (.afterEquals start value))
        | _, _ =>
          match candidates cs with
          | [(o, _, value)] => .ok (.option o value)
          | [] => .ok (if isNegative cs || cs.contains ' ' then .plain s else .unknown s)
          | several => .error (.ambiguous s (several.map fun (_, name, _) => name))

/-- The words of a command line. Behind the first separator all are plain. -/
def words : List String → Except Fault (List Word)
  | [] => .ok []
  | s :: rest =>
    if s = separator then .ok (.separator :: rest.map .plain)
    else do
      let w ← Word.ofString s
      let ws ← words rest
      .ok (w :: ws)

/-- What a command line asks for. -/
inductive Request
  | help
  | run (a : Arguments)
  deriving DecidableEq, Repr

/-- What has been read so far. Statements stand in one place of the command line; others are left
over. -/
structure State where
  arguments : Arguments
  haveStatements : Bool
  left : List String
  deriving DecidableEq, Repr

def setValue (t : Client.Target) (o : Flag) (value : String) : Except Fault Client.Target :=
  match o with
  | .help => .ok t
  | .host => .ok { t with host := some value }
  | .port => (Decimal.readInteger? value.toList).elim (.error (.noInteger value)) fun n =>
      .ok { t with port := some n }
  | .timeout => (Decimal.readReal? value.toList).elim (.error (.noNumber value)) fun x =>
      .ok { t with timeout := some x }

/-- Gives an option as nothing. -/
def clearValue (t : Client.Target) : Flag → Client.Target
  | .help => t
  | .host => { t with host := none }
  | .port => { t with port := none }
  | .timeout => { t with timeout := none }

/-- A value in the same word as its option. A separator there is not a value, and leaves none. -/
def setAttached (t : Client.Target) (o : Flag) (value : String) : Except Fault Client.Target :=
  if value = separator then .ok (clearValue t o) else setValue t o value

/-- What is behind the short option for help: the same option once more, any number of times. All else
is a value, and help takes none. -/
def helpWithMore : List Char → Except Fault Request
  | [] => .ok .help
  | 'h' :: rest => helpWithMore rest
  | value => .error (.uselessValue .help (String.ofList value))

/-- Help takes no value. -/
def readHelp : Attached → Except Fault Request
  | .nothing => .ok .help
  | .equals value => .error (.uselessValue .help value)
  | .behind value => helpWithMore value.toList

/-- Takes a run of plain words as statements, or leaves it over. The first separator among statements
goes. -/
def State.take (s : State) (run : List String) : State :=
  if run.isEmpty then s
  else if s.haveStatements then { s with left := s.left ++ run }
  else { s with
    haveStatements := true
    arguments := { s.arguments with statements := run.erase separator } }

/-- Reads words, with the plain ones that came last in `run`. -/
def readWords (s : State) (run : List String) : List Word → Except Fault (Request × List String)
  | [] =>
    let s := s.take run
    .ok (.run s.arguments, s.left)
  | .unknown text :: rest =>
    let s := s.take run
    readWords { s with left := s.left ++ [text] } [] rest
  | .option .help value :: _ => (readHelp value).map fun r => (r, [])
  | .option o (.equals value) :: rest =>
    let s := s.take run
    match setAttached s.arguments.target o value with
    | .ok t => readWords { s with arguments := { s.arguments with target := t } } [] rest
    | .error fault => .error fault
  | .option o .nothing :: .plain value :: rest =>
    let s := s.take run
    match setValue s.arguments.target o value with
    | .ok t => readWords { s with arguments := { s.arguments with target := t } } [] rest
    | .error fault => .error fault
  | .option o _ :: _ => .error (.missingValue o)
  | .plain text :: rest => readWords s (run ++ [text]) rest
  | .separator :: rest => readWords s (run ++ [separator]) rest

/-- Reads the command line of the client. Long options may be shortened as far as they stay clear, and a
value may follow an equals sign; what is no option is a statement. -/
def parse (arguments : List String) : Except Fault Request := do
  let ws ← words arguments
  match ← readWords ⟨.default, false, []⟩ [] ws with
  | (.help, _) => .ok .help
  | (.run a, []) => .ok (.run a)
  | (.run _, left) => .error (.unrecognized left)

def usage : String :=
  "usage: tabledb-query [-h] [--host HOST] [--port PORT] [--timeout TIMEOUT]\n" ++
  "                     [statements ...]\n"

def help : String := usage ++
  "\nSend statements to a TableDB server\n" ++
  "\npositional arguments:\n" ++
  "  statements         Statements to run (default: stdin lines)\n" ++
  "\noptions:\n" ++
  "  -h, --help         show this help message and exit\n" ++
  "  --host HOST        Server host\n" ++
  "  --port PORT        Server port\n" ++
  "  --timeout TIMEOUT  Seconds to wait per response\n"

/-- A command line that is refused ends the program with the short help and the reason. -/
def Fault.exit (fault : Fault) : Query.Exit :=
  ⟨2, "", usage ++ "tabledb-query: error: " ++ fault.message ++ "\n"⟩

/-- What a command line leads to: an end at once, or statements to run. -/
inductive Plan
  | done (exit : Query.Exit)
  | query (a : Arguments)
  deriving DecidableEq, Repr

/-- Whether a command line leaves it to the input to bring statements. -/
def readsInput (arguments : List String) : Bool :=
  match parse arguments with
  | .ok (.run a) => a.statements.isEmpty
  | _ => false

/-- Statements come from the command line or, where it has none, from the input. -/
def plan (arguments : List String) (input : String) : Plan :=
  match parse arguments with
  | .error fault => .done fault.exit
  | .ok .help => .done ⟨0, help, ""⟩
  | .ok (.run a) =>
    let statements := if a.statements.isEmpty then Query.statements input else a.statements
    if statements.isEmpty then .done Fault.noStatements.exit
    else .query { a with statements := statements }

end TableServer.CommandLine
