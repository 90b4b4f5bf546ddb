import TableServer.Proofs.Execution.Growth
import TableServer.Proofs.Execution.Reference
import TableServer.Proofs.Json.Bounds
import TableServer.Proofs.Statement.Decision
import TableServer.Proofs.Store.Atomic
import TableServer.Proofs.Store.Backends

namespace TableServer

/-- Handles a chunk and logs unexpected failures, which can fail itself. -/
def handleChunkLogged {σ : Type} [TableStore σ] (store : σ) (chunk : Bytes) : Except Unexpected Result × σ :=
  match Wire.command chunk with
  | .ok c => executeLogged store c
  | .error result => (.ok result, store)

theorem Wire.command_eq_ok {chunk : Bytes} {c : Command} (h : Wire.command chunk = .ok c) :
    ∃ text, Wire.decode chunk = .ok text ∧ parse statementDigits text = .ok c := by
  unfold Wire.command at h
  cases htext : Wire.decode chunk with
  | error result => simp [htext] at h
  | ok text =>
    cases hparse : parse statementDigits text with
    | error rejection => simp [htext, hparse] at h
    | ok d =>
      simp only [htext, hparse, Except.ok.injEq] at h
      exact ⟨text, rfl, h ▸ hparse⟩

theorem Wire.command_eq_error {chunk : Bytes} {result : Result} (h : Wire.command chunk = .error result) :
    ∃ message, result = .parseFailure message := by
  unfold Wire.command at h
  cases htext : Wire.decode chunk with
  | error invalid =>
    simp only [htext, Except.error.injEq] at h
    unfold Wire.decode at htext
    split at htext
    · contradiction
    · obtain rfl := Except.error.inj htext
      exact ⟨_, h.symm⟩
  | ok text =>
    cases hparse : parse statementDigits text with
    | error rejection =>
      simp only [htext, hparse, Except.error.injEq] at h
      exact ⟨_, h.symm⟩
    | ok d => simp [htext, hparse] at h

/-- Commands that come from a chunk can be shown: their ids are no longer than what is written. -/
theorem Wire.isShowable_of_command {chunk : Bytes} {c : Command} (h : Wire.command chunk = .ok c) :
    c.isShowable = true := by
  obtain ⟨text, _, hparse⟩ := Wire.command_eq_ok h
  cases c with
  | selectAll table => rfl
  | insert a => rfl
  | selectById table id =>
    obtain ⟨n, rfl, hselect⟩ := parseChars_selectById_iff.mp hparse
    obtain ⟨_, _, _, _, _, ⟨_, hdigits, hlength, _, hn⟩, _⟩ := hselect.parts
    have hshort : Json.IsShort n := Json.isShort_ofDigitChars hdigits hlength false hn.symm
    obtain ⟨w, hw⟩ := (Json.writeInteger_isOk_iff n).mpr hshort
    rw [Command.isShowable, hw]
    rfl

/-- Every chunk is answered. -/
theorem handleChunkLogged_eq {σ : Type} [TableStore σ] (store : σ) (chunk : Bytes) :
    handleChunkLogged store chunk = (.ok (handleChunk store chunk).1, (handleChunk store chunk).2) := by
  unfold handleChunkLogged
  cases hcommand : Wire.command chunk with
  | error result => rw [handleChunk_of_no_command store hcommand]
  | ok c =>
    rw [handleChunk_of_command store hcommand]
    exact executeLogged_of_isShowable store (Wire.isShowable_of_command hcommand)

/-- The path of a table; with the usual pattern it is in the data directory. -/
structure FileStore.Targets (s : FileStore) (table : String) (p : Path) : Prop where
  path : s.path table = .ok p
  directory : s.pattern = usualPattern → p.parent = s.directory

theorem FileStore.targets_of_path {s : FileStore} {table : String} {p : Path} (h : s.path table = .ok p) :
    s.Targets table p := by
  refine ⟨h, fun hpattern => ?_⟩
  obtain rfl := Except.ok.inj ((path_eq hpattern (safeName_ne_empty_of_path h)).symm.trans h)
  exact Path.parent_child _ _

namespace Store

/-- The tables of a store are as they were. In memory loads are counted, and one that is made to fail does so once. -/
inductive Unchanged : Store → Store → Prop
  | memory {s s' : MemoryStore} (h : s'.tables = s.tables) : Unchanged (.memory s) (.memory s')
  | files (s : FileStore) : Unchanged (.files s) (.files s)

/-- What a save leaves that fails, where a record was to be appended to those loaded: in memory nothing, and in files
no more than directories, or an empty temporary file where a text that was loaded cannot be encoded. -/
inductive Unsaved (table : String) (loaded : List Record) (r : Record) : StoreFailure → Store → Store → Prop
  | memory {s s' : MemoryStore} (message : String) (h : s'.tables = s.tables) :
    Unsaved table loaded r (.reported (.simulated message)) (.memory s) (.memory s')
  | refused {s : FileStore} {p : Path} {e : StoreFailure} {w : Volume} (htarget : s.Targets table p)
    (hwhy : s.IsRefusal .none table (loaded ++ [r]) p e) (hgains : Volume.Gains p.parent s.volume w) :
    Unsaved table loaded r e (.files s) (.files (s.on w))
  | stranded {s : FileStore} {p : Path} {u w : Volume} {q : Place} (htarget : s.Targets table p)
    (hlone : ∃ old ∈ loaded, ¬ old.IsChars) (hgains : Volume.Gains p.parent s.volume u)
    (hwriting : (s.plan p).Writing [] u w q) :
    Unsaved table loaded r (.unexpected .unpairedSurrogate) (.files s) (.files (s.on w))

/-- What a save leaves that is done: the table is loaded with the records, and nothing else is different but for
directories that were missing. -/
inductive Saved (table : String) (records : List Record) : Store → Store → Prop
  | memory {s s' : MemoryStore} (hload : (s'.load table).1 = .ok records)
    (hothers : ∀ other, other ≠ table →
      MemoryStore.recordsOf s'.tables other = MemoryStore.recordsOf s.tables other) :
    Saved table records (.memory s) (.memory s')
  | files {s : FileStore} {p : Path} {u w : Volume} {goal : Place} {content : Bytes} (htarget : s.Targets table p)
    (hencode : TableFile.encode records = .ok content) (hgains : Volume.Gains p.parent s.volume u)
    (hreplaced : (s.plan p).Replaced content u w goal) (hload : (s.on w).read table = .ok records) :
    Saved table records (.files s) (.files (s.on w))

variable {s : Store} {table : String} {loaded : List Record} {r : Record}

theorem Unchanged.refl (s : Store) : s.Unchanged s := by
  cases s with
  | memory s => exact .memory rfl
  | files s => exact .files s

theorem unchanged_load (s : Store) (table : String) : s.Unchanged (TableStore.load s table).2 := by
  cases s with
  | memory s =>
    refine .memory ?_
    change (s.load table).2.tables = s.tables
    unfold MemoryStore.load
    cases s.failingLoad <;> rfl
  | files s => exact .files s

theorem save_memory (s : MemoryStore) (table : String) (loaded : List Record) (r : Record) :
    (∃ message after, TableStore.save (memory s) table (loaded ++ [r]) =
      (.error (.reported (.simulated message)), memory after) ∧ after.tables = s.tables) ∨
    ∃ after, TableStore.save (memory s) table (loaded ++ [r]) = (.ok (), memory after) ∧
      after.tables = MemoryStore.setTable table (loaded ++ [r]) s.tables ∧ after.failingLoad = s.failingLoad := by
  change (∃ message after, (((s.save table (loaded ++ [r])).1, memory (s.save table (loaded ++ [r])).2) = _) ∧ _) ∨
    ∃ after, (((s.save table (loaded ++ [r])).1, memory (s.save table (loaded ++ [r])).2) = _) ∧ _
  unfold MemoryStore.save
  cases s.failingSave with
  | some message => exact .inl ⟨message, _, rfl, rfl⟩
  | none => exact .inr ⟨_, rfl, rfl, rfl⟩

/-- A save in files is the replacing of one file. What has been loaded has short ids, so that only a lone surrogate
among the loaded texts can keep the content from being encoded. -/
theorem save_files {s : FileStore} {p : Path} (hpath : s.path table = .ok p) (hr : r.IsChars) (loaded : List Record) :
    (∃ e after, TableStore.save (files s) table (loaded ++ [r]) = (.error e, after) ∧
      Unsaved table loaded r e (files s) after) ∨
    ∃ after, TableStore.save (files s) table (loaded ++ [r]) = (.ok (), after) ∧
      Saved table (loaded ++ [r]) (files s) after := by
  have htarget := FileStore.targets_of_path hpath
  obtain ⟨result, w, hreplace, hending⟩ := FileStore.replaceUnder_ending hpath .none (loaded ++ [r])
  rw [FileStore.replaceUnder_none] at hreplace
  have hsave : TableStore.save (files s) table (loaded ++ [r]) = (result, files (s.on w)) := by
    change ((s.replace table (loaded ++ [r])).1, files (s.replace table (loaded ++ [r])).2) = _
    rw [hreplace]
  rw [hsave]
  have hread := fun h : result = .ok () => FileStore.Ending.read hpath (h ▸ hending)
  cases hending with
  | done hencode hnul hgains hreplaced =>
    exact .inr ⟨_, rfl, .files htarget hencode hgains hreplaced (hread rfl)⟩
  | refused hwhy hgains => exact .inl ⟨_, _, rfl, .refused htarget hwhy hgains⟩
  | stranded hencode hgains hwriting =>
    refine .inl ⟨_, _, rfl, .stranded htarget ?_ hgains hwriting⟩
    rcases TableFile.encode_eq_error hencode with ⟨hcause, _⟩ | ⟨_, _, old, hold, hlone⟩
    · contradiction
    · rcases List.mem_append.mp hold with hold | hold
      · exact ⟨old, hold, hlone⟩
      · exact absurd (List.mem_singleton.mp hold ▸ hr) hlone

/-- A save of what has been loaded with a record behind it is done, or it fails and leaves the tables. -/
theorem save_cases (hload : (TableStore.load s table).1 = .ok loaded) (hr : r.IsChars) :
    (∃ e after, TableStore.save (TableStore.load s table).2 table (loaded ++ [r]) = (.error e, after) ∧
      Unsaved table loaded r e s after) ∨
    ∃ after, TableStore.save (TableStore.load s table).2 table (loaded ++ [r]) = (.ok (), after) ∧
      Saved table (loaded ++ [r]) s after := by
  cases s with
  | memory s =>
    have htables : (s.load table).2.tables = s.tables := by
      cases unchanged_load (memory s) table with
      | memory h => exact h
    change (∃ e after, TableStore.save (memory (s.load table).2) table (loaded ++ [r]) = _ ∧ _) ∨
      ∃ after, TableStore.save (memory (s.load table).2) table (loaded ++ [r]) = _ ∧ _
    rcases save_memory (s.load table).2 table loaded r with
      ⟨message, after, hsave, hsame⟩ | ⟨after, hsave, hset, harmed⟩
    · exact .inl ⟨_, _, hsave, .memory message (hsame.trans htables)⟩
    · refine .inr ⟨_, hsave, .memory ?_ fun other hother => ?_⟩
      · have hunarmed : (s.load table).2.failingLoad = none := by
          unfold MemoryStore.load
          cases hf : s.failingLoad with
          | none => rfl
          | some message => rfl
        rw [MemoryStore.load, harmed, hunarmed, hset]
        exact congrArg Except.ok (MemoryStore.recordsOf_setTable_self _ table _)
      · rw [hset, MemoryStore.recordsOf_setTable_other _ _ hother, htables]
  | files s =>
    change s.read table = _ at hload
    cases hpath : s.path table with
    | error e => simp [FileStore.read, hpath, bind, Except.bind] at hload
    | ok p => exact save_files hpath hr loaded

end Store

/-- A chunk is an insertion that gets to its save: its table has been loaded and its columns make a record. -/
structure ReachesSave (store : Store) (chunk : Bytes) (a : Insertion) (loaded : List Record) (r : Record) :
    Prop where
  command : Wire.command chunk = .ok (.insert a)
  loads : (TableStore.load store a.table).1 = .ok loaded
  record : a.record (nextId loaded) = .ok r

/-- How a chunk can be answered, with what it leaves. -/
inductive ChunkOutcome (store : Store) (chunk : Bytes) : Result → Store → Prop
  | unchanged {result : Result} {after : Store} (hresult : ∀ r, result ≠ .inserted r)
    (hafter : store.Unchanged after) : ChunkOutcome store chunk result after
  | unsaved {a : Insertion} {loaded : List Record} {r : Record} {e : StoreFailure} {after : Store}
    (hreaches : ReachesSave store chunk a loaded r) (hafter : Store.Unsaved a.table loaded r e store after) :
    ChunkOutcome store chunk e.result after
  | inserted {a : Insertion} {loaded : List Record} {r : Record} {after : Store}
    (hreaches : ReachesSave store chunk a loaded r) (hafter : Store.Saved a.table (loaded ++ [r]) store after) :
    ChunkOutcome store chunk (.inserted r) after

theorem StoreFailure.result_ne_inserted (e : StoreFailure) (r : Record) : e.result ≠ .inserted r := by
  cases e <;> exact nofun

/-- An insertion comes to its save or ends before it, and is answered by how it ended. -/
theorem outcome_of_insert {store : Store} {chunk : Bytes} {a : Insertion}
    (hcommand : Wire.command chunk = .ok (.insert a)) :
    ChunkOutcome store chunk (insert store a).1 (insert store a).2 := by
  have hunchanged := Store.unchanged_load store a.table
  unfold insert
  rcases hload : TableStore.load store a.table with ⟨e | loaded, store₁⟩
  · rw [hload] at hunchanged
    exact .unchanged e.result_ne_inserted hunchanged
  · rw [hload] at hunchanged
    dsimp only
    cases hr : a.record (nextId loaded) with
    | error fault => exact .unchanged nofun hunchanged
    | ok r =>
      have hreaches : ReachesSave store chunk a loaded r := ⟨hcommand, by rw [hload], hr⟩
      have hsave := Store.save_cases hreaches.loads (Insertion.record_isChars hr)
      rw [hload] at hsave
      dsimp only
      rcases hsave with ⟨e, after, hsave, hafter⟩ | ⟨after, hsave, hafter⟩
      · rw [hsave]
        exact .unsaved hreaches hafter
      · rw [hsave]
        exact .inserted hreaches hafter

theorem execute_ne_inserted {store : Store} {c : Command} (h : ∀ a, c ≠ .insert a) (r : Record) :
    (execute store c).1 ≠ .inserted r := by
  cases c with
  | insert a => exact absurd rfl (h a)
  | selectAll table =>
    change (selectAll store table).1 ≠ _
    unfold selectAll
    rcases TableStore.load store table with ⟨e | records, after⟩
    · exact e.result_ne_inserted r
    · exact Result.noConfusion
  | selectById table id =>
    change (selectById store table id).1 ≠ _
    unfold selectById
    rcases TableStore.load store table with ⟨e | records, after⟩
    · exact e.result_ne_inserted r
    · dsimp only
      split <;> exact Result.noConfusion

theorem outcome_of_select {store : Store} {chunk : Bytes} {c : Command} (h : ∀ a, c ≠ .insert a) :
    ChunkOutcome store chunk (execute store c).1 (execute store c).2 := by
  refine .unchanged (execute_ne_inserted h) ?_
  rw [Contract.execute_snd_of_select h]
  exact Store.unchanged_load store c.table

theorem outcome_of_handleChunk (store : Store) (chunk : Bytes) :
    ChunkOutcome store chunk (handleChunk store chunk).1 (handleChunk store chunk).2 := by
  cases hcommand : Wire.command chunk with
  | error result =>
    obtain ⟨message, rfl⟩ := Wire.command_eq_error hcommand
    rw [handleChunk_of_no_command store hcommand]
    exact .unchanged nofun (.refl store)
  | ok c =>
    rw [handleChunk_of_command store hcommand]
    cases c with
    | insert a => exact outcome_of_insert hcommand
    | selectAll table => exact outcome_of_select nofun
    | selectById table id => exact outcome_of_select nofun

/-- A chunk is answered with a result in any case, whatever it holds and whatever the store is in. A record that is
told as inserted has been appended to its table and nothing else is different; with any other result nothing is,
unless a save has been reached. A save that fails can leave directories, and an empty file where a text cannot be
encoded. -/
theorem chunk_allOrNothing (store : Store) (chunk : Bytes) :
    ∃ result after, handleChunkLogged store chunk = (.ok result, after) ∧ ChunkOutcome store chunk result after :=
  ⟨_, _, handleChunkLogged_eq store chunk, outcome_of_handleChunk store chunk⟩

end TableServer
