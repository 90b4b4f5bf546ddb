import TableServer.Store.Table

namespace TableServer

/-- What a store keeps to for the tables that it serves, from a sound state on. A load tells what its table holds
unless it fails, and a save replaces what its table holds unless it fails; nothing else changes what any table holds.
-/
structure Contract (σ : Type) [TableStore σ] (served : String → Prop) where
  Sound : σ → Prop
  contents : σ → String → Except StoreFailure (List Record)
  load_sound {s : σ} {table : String} : Sound s → served table → Sound (TableStore.load s table).2
  load_keeps {s : σ} {table other : String} : Sound s → served table → served other →
    contents (TableStore.load s table).2 other = contents s other
  loaded {s : σ} {table : String} {records : List Record} : Sound s → served table →
    (TableStore.load s table).1 = .ok records → contents s table = .ok records
  save_sound {s : σ} {table : String} {records : List Record} : Sound s → served table →
    Sound (TableStore.save s table records).2
  saved {s : σ} {table : String} {records : List Record} : Sound s → served table →
    (TableStore.save s table records).1 = .ok () →
    contents (TableStore.save s table records).2 table = .ok records
  save_keeps {s : σ} {table other : String} {records : List Record} : Sound s → served table →
    served other → ((TableStore.save s table records).1 = .ok () → other ≠ table) →
    contents (TableStore.save s table records).2 other = contents s other

end TableServer
