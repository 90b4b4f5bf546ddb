import TableServer.Record
import TableServer.Store.Failure

namespace TableServer

/-- What can be asked of a store of tables. It keeps a list of records for each table name. Both
operations leave a store also when they fail. -/
class TableStore (σ : Type) where
  load : σ → String → Except StoreFailure (List Record) × σ
  save : σ → String → List Record → Except StoreFailure Unit × σ

end TableServer
