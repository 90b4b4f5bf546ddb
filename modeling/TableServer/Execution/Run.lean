import TableServer.Execution.Result
import TableServer.Execution.Row
import TableServer.Statement.Parse
import TableServer.Store.Table

namespace TableServer

/-- The longest id in digits that statements are read with. -/
def statementDigits : Nat := 4300

/-- Failures that are reported have their message in the answer; of others clients are told nothing. -/
def StoreFailure.result : StoreFailure → Result
  | reported e => .executionFailure e.message
  | unexpected _ => .internalError

variable {σ : Type} [TableStore σ]

def selectAll (store : σ) (table : String) : Result × σ :=
  match TableStore.load store table with
  | (.ok records, store) => (.rows records, store)
  | (.error e, store) => (e.result, store)

/-- The first record with an id. -/
def selectById (store : σ) (table : String) (id : Int) : Result × σ :=
  match TableStore.load store table with
  | (.ok records, store) =>
    match records.find? fun r => (r.id : Int) = id with
    | some r => (.rows [r], store)
    | none => (.notFound, store)
  | (.error e, store) => (e.result, store)

/-- Appends a record with the next id. -/
def insert (store : σ) (i : Insertion) : Result × σ :=
  match TableStore.load store i.table with
  | (.error e, store) => (e.result, store)
  | (.ok records, store) =>
    match i.record (nextId records) with
    | .error fault => (.executionFailure fault.message, store)
    | .ok r =>
      match TableStore.save store i.table (records ++ [r]) with
      | (.ok (), store) => (.inserted r, store)
      | (.error e, store) => (e.result, store)

/-- Runs a command. Whatever goes wrong becomes a result. -/
def execute (store : σ) : Command → Result × σ
  | .selectAll table => selectAll store table
  | .selectById table id => selectById store table id
  | .insert i => insert store i

/-- Whether a command can be shown in the log, which it cannot where its id has too many digits. -/
def Command.isShowable : Command → Bool
  | .selectAll _ => true
  | .selectById _ id => (Json.writeInteger id).isOk
  | .insert _ => true

/-- Runs a command that need not come from a statement. The log of an unexpected failure shows the
command, so that one which cannot be shown breaks it off. -/
def executeLogged (store : σ) (c : Command) : Except Unexpected Result × σ :=
  let (result, after) := execute store c
  match (TableStore.load store c.table).1 with
  | .error (.unexpected _) => if c.isShowable then (.ok result, after) else (.error .longNumber, after)
  | _ => (.ok result, after)

theorem executeLogged_of_isShowable (store : σ) {c : Command} (h : c.isShowable = true) :
    executeLogged store c = (.ok (execute store c).1, (execute store c).2) := by
  unfold executeLogged
  simp only [h, ↓reduceIte]
  split <;> rfl

/-- Runs a statement; a text that is no command is answered with why it is none, and leaves the store as
it is. -/
def executeStatement (store : σ) (text : String) : Result × σ :=
  match parse statementDigits text with
  | .ok command => execute store command
  | .error rejection => (.parseFailure rejection.message, store)

/-- Runs statements one after another. -/
def executeAll (store : σ) : List String → List Result × σ
  | [] => ([], store)
  | text :: rest =>
    let (result, store) := executeStatement store text
    let (results, store) := executeAll store rest
    (result :: results, store)

end TableServer
