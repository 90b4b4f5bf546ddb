import TableServer.Store.File
import TableServer.Store.Memory

namespace TableServer

/-- The store that settings choose. -/
inductive Store
  | memory (s : MemoryStore)
  | files (s : FileStore)

namespace Store

def load : Store → String → Except StoreFailure (List Record) × Store
  | memory s, table =>
    let (result, s) := TableStore.load s table
    (result, memory s)
  | files s, table =>
    let (result, s) := TableStore.load s table
    (result, files s)

def save : Store → String → List Record → Except StoreFailure Unit × Store
  | memory s, table, records =>
    let (result, s) := TableStore.save s table records
    (result, memory s)
  | files s, table, records =>
    let (result, s) := TableStore.save s table records
    (result, files s)

instance : TableStore Store := ⟨load, save⟩

end Store

end TableServer
