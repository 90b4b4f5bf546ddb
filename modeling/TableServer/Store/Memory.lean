import TableServer.Store.Table

namespace TableServer

/-- Tables in memory, for as long as the program runs. A next load or save can be made to fail, to see
what becomes of that. -/
structure MemoryStore where
  tables : List (String × List Record)
  failingLoad : Option String
  failingSave : Option String
  loads : Nat
  saves : Nat
  deriving Repr

namespace MemoryStore

def empty : MemoryStore := ⟨[], none, none, 0, 0⟩

/-- Replaces the records of a table; a new table comes last. -/
def setTable (table : String) (records : List Record) :
    List (String × List Record) → List (String × List Record)
  | [] => [(table, records)]
  | (t, rs) :: rest =>
    if t = table then (t, records) :: rest else (t, rs) :: setTable table records rest

def recordsOf (tables : List (String × List Record)) (table : String) : List Record :=
  ((tables.find? fun (t, _) => t = table).map (·.2)).getD []

def load (s : MemoryStore) (table : String) : Except StoreFailure (List Record) × MemoryStore :=
  let s := { s with loads := s.loads + 1 }
  match s.failingLoad with
  | some message => (.error (.reported (.simulated message)), { s with failingLoad := none })
  | none => (.ok (recordsOf s.tables table), s)

def save (s : MemoryStore) (table : String) (records : List Record) :
    Except StoreFailure Unit × MemoryStore :=
  let s := { s with saves := s.saves + 1 }
  match s.failingSave with
  | some message => (.error (.reported (.simulated message)), { s with failingSave := none })
  | none => (.ok (), { s with tables := setTable table records s.tables })

instance : TableStore MemoryStore := ⟨load, save⟩

def failNextLoad (s : MemoryStore) (message : String) : MemoryStore :=
  { s with failingLoad := some message }

def failNextSave (s : MemoryStore) (message : String) : MemoryStore :=
  { s with failingSave := some message }

def clear (s : MemoryStore) : MemoryStore := { s with tables := [] }

/-- The tables saved so far, in the order of their names. -/
def tableNames (s : MemoryStore) : List String :=
  (s.tables.map (·.1)).mergeSort fun a b => decide (a ≤ b)

end MemoryStore

end TableServer
