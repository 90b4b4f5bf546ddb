import TableServer.Client.Answer
import TableServer.Json.Writer
import TableServer.Text.Blank

namespace TableServer

namespace Query

/-- The lines of an input, without the ends of lines. -/
def splitLines : List Char → List (List Char)
  | [] => []
  | c :: rest =>
    if c = '\n' then [] :: splitLines rest
    else match splitLines rest with
      | [] => [[c]]
      | line :: lines => (c :: line) :: lines

/-- The statements of an input, one on each line that is not blank. -/
def statements (input : String) : List String :=
  (((splitLines input.toList).map (trimBoth isBlank)).filter (· ≠ [])).map String.ofList

/-- The line that an answer is printed as. Answers come from lines whose numbers are short enough. -/
def printed (answer : Json.Value) : String :=
  match Json.write .terminal answer with
  | .ok text => String.ofList (text.filterMap CodePoint.scalar? ++ ['\n'])
  | .error _ => ""

/-- What was printed, how many answers told of errors, and what the run broke off at. -/
structure Report where
  lines : List String
  errors : Nat
  broken : Option ClientFault
  deriving DecidableEq, Repr

/-- Asks for statements in order, up to the first that gets no answer. -/
def run {m : Type → Type} [Monad m] (ask : String → m (Except ClientFault Json.Value)) :
    List String → m Report
  | [] => pure ⟨[], 0, none⟩
  | text :: rest => do
    match ← ask text with
    | .error fault => pure ⟨[], 0, some fault⟩
    | .ok answer =>
      let report ← run ask rest
      pure { report with
        lines := printed answer :: report.lines
        errors := report.errors + (Client.isErrorAnswer answer).toNat }

/-- What a program leaves: its exit code, and what it wrote to both outputs. -/
structure Exit where
  code : Nat
  out : String
  err : String
  deriving DecidableEq, Repr

/-- A fault of the connection is reported behind what has been printed; others are not dealt with here. -/
def connectionExit (out : String) (fault : ClientFault) : Except ClientFault Exit :=
  if fault.ofConnection then .ok ⟨2, out, "Connection error: " ++ fault.message ++ "\n"⟩
  else .error fault

/-- The exit of a report. Only faults of the connection are reported; any other ends the program. -/
def Report.exit (r : Report) : Except ClientFault Exit :=
  match r.broken with
  | some fault => connectionExit (String.join r.lines) fault
  | none => .ok ⟨if r.errors = 0 then 0 else 1, String.join r.lines, ""⟩

/-- Runs statements on a connection that was made, or was not. Each answer is printed on a line of its
own. -/
def session {m : Type → Type} {χ : Type} [Monad m]
    (ask : χ → String → m (Except ClientFault Json.Value)) (connected : Except ClientFault χ)
    (texts : List String) : m (Except ClientFault Exit) :=
  match connected with
  | .error fault => pure (connectionExit "" fault)
  | .ok client => do return (← run (ask client) texts).exit

end Query

end TableServer
