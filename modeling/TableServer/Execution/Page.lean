import TableServer.Execution.Run

namespace TableServer

/-- What a table has been read as, and what is to be written to it. A command loads its own table and
saves at most that, so that a page takes the place of the store between a load and a save. -/
structure Page where
  loaded : Except StoreFailure (List Record)
  saved : Option (List Record)
  deriving Repr

namespace Page

def ofLoaded (loaded : Except StoreFailure (List Record)) : Page := ⟨loaded, none⟩

instance : TableStore Page := ⟨fun p _ => (p.loaded, p), fun p _ records =>
  (.ok (), { p with saved := some records })⟩

/-- The result of a command whose page has been written. -/
def resultOfSave (result : Result) : Except StoreFailure Unit → Result
  | .ok () => result
  | .error e => e.result

variable {σ : Type} [TableStore σ]

/-- Runs a command between a load and a save. -/
def execute (store : σ) (c : Command) : Result × σ :=
  let (loaded, store) := TableStore.load store c.table
  let (result, page) := TableServer.execute (ofLoaded loaded) c
  match page.saved with
  | none => (result, store)
  | some records =>
    let (outcome, store) := TableStore.save store c.table records
    (resultOfSave result outcome, store)

/-- Running a command between a load and a save is running it. -/
theorem execute_eq (store : σ) (c : Command) : execute store c = TableServer.execute store c := by
  cases c with
  | selectAll table =>
    simp only [execute, TableServer.execute, selectAll, Command.table]
    rcases TableStore.load store table with ⟨_ | _, _⟩ <;> rfl
  | selectById table id =>
    simp only [execute, TableServer.execute, selectById, Command.table]
    rcases TableStore.load store table with ⟨e | records, _⟩
    · rfl
    · simp only [ofLoaded, TableStore.load]
      cases records.find? fun r => (r.id : Int) = id <;> rfl
  | insert i =>
    simp only [execute, TableServer.execute, insert, Command.table]
    rcases TableStore.load store i.table with ⟨e | records, s⟩
    · rfl
    · simp only [ofLoaded, TableStore.load, TableStore.save]
      cases i.record (nextId records) with
      | error fault => rfl
      | ok r =>
        simp only
        rcases TableStore.save s i.table (records ++ [r]) with ⟨_ | _, _⟩ <;> rfl

end Page

end TableServer
