import TableServer.Proofs.Execution.Reference
import TableServer.Proofs.Store.Backends
import TableServer.Proofs.Store.Opening
import TableServer.Server.Settings

namespace TableServer

namespace MemoryStore

/-- Nothing is made to fail, and the tables that are served hold their records. -/
structure Holds (served : String → Prop) (m : MemoryStore) (t : Tables) : Prop where
  load_unarmed : m.failingLoad = none
  save_unarmed : m.failingSave = none
  held : ∀ table, served table → recordsOf m.tables table = t table

theorem follows (served : String → Prop) : Follows served (fun _ => True) (Holds served) where
  load {m t table} h htable := by
    change (m.load table).1 = _ ∧ Holds served (m.load table).2 t
    rw [load, h.load_unarmed]
    exact ⟨congrArg Except.ok (h.held table htable), rfl, h.save_unarmed, h.held⟩
  save {m t table records} h htable _ := by
    change (m.save table records).1 = _ ∧ Holds served (m.save table records).2 _
    rw [save, h.save_unarmed]
    refine ⟨rfl, h.load_unarmed, rfl, fun other hother => ?_⟩
    by_cases hother' : other = table
    · subst hother'
      rw [t.put_self]
      exact recordsOf_setTable_self m.tables other records
    · rw [t.put_other records hother']
      exact (recordsOf_setTable_other m.tables records hother').trans (h.held other hother)

end MemoryStore

namespace Settings

variable {settings : Settings} {served : String → Prop} {store : Store} {t : Tables} {text table : String}

/-- The files that settings ask for, over a volume. -/
def files (settings : Settings) (v : Volume) : FileStore :=
  ⟨.ofString settings.directory, settings.filePattern, settings.sync, v⟩

theorem store_eq (h : settings.backend = .json) (v : Volume) : settings.store v = .files (settings.files v) := by
  rw [Settings.store, h]
  rfl

/-- Files that hold the tables, with nothing in the way of the next save. -/
def Holds (settings : Settings) (served : String → Prop) (store : Store) (t : Tables) : Prop :=
  ∃ v, store = .files (settings.files v) ∧ (settings.files v).Ready served FileStore.fileName ∧
    ∀ table, served table → (settings.files v).read table = .ok (t table)

/-- Records that can be written to a file. -/
def Writable (records : List Record) : Prop := ∀ r ∈ records, r.IsShort ∧ r.IsChars

variable (hpattern : settings.filePattern = FileStore.usualPattern)
  (hnamed : ∀ table, served table → Grammar.IsWord table.toList)
include hpattern hnamed

/-- A save of files with nothing in the way is done just if the records can be written. -/
theorem replace_cases {v : Volume} (hready : (settings.files v).Ready served FileStore.fileName)
    (htable : served table) {old : List Record} (hread : (settings.files v).read table = .ok old)
    (records : List Record) :
    Writable records ∧ (∃ w, (settings.files v).replace table records = (.ok (), settings.files w) ∧
        (settings.files w).Ready served FileStore.fileName) ∨
      ¬ Writable records ∧ ∃ cause, ((settings.files v).replace table records).1 = .error (.unexpected cause) := by
  have hwritable := TableFile.encode_isOk_iff records
  obtain ⟨hencode, hdone⟩ | ⟨hunwritten, hfailed⟩ := hready.replace (FileStore.ownFiles_usual hpattern hnamed)
    (Store.slashes_ofString_le settings.directory) htable hread records
  · exact .inl ⟨hwritable.mp hencode, hdone⟩
  · refine .inr ⟨fun hgood => ?_, hfailed⟩
    obtain ⟨content, hcontent⟩ := hwritable.mpr hgood
    exact hunwritten content hcontent

/-- Files follow the tables as long as the records can be written. -/
theorem follows_files : Follows served Writable (settings.Holds served) where
  load h htable := by
    obtain ⟨v, rfl, hready, hread⟩ := h
    exact ⟨hread _ htable, v, rfl, hready, hread⟩
  save {store t table records} h htable hwritable := by
    obtain ⟨v, rfl, hready, hread⟩ := h
    obtain ⟨_, w, hdone, hready'⟩ | ⟨hunwritable, _⟩ :=
      replace_cases hpattern hnamed hready htable (hread table htable) records
    · have hsound := hready.sound (FileStore.ownFiles_usual hpattern hnamed)
        (Store.slashes_ofString_le settings.directory) fun other hother => ⟨_, hread other hother⟩
      have hkept := FileStore.replace_kept hsound htable records
      have hsaved := congrArg Prod.fst hdone
      rw [hdone] at hkept
      refine ⟨hsaved, w, congrArg Store.files (congrArg Prod.snd hdone), hready', fun other hother => ?_⟩
      by_cases hother' : other = table
      · subst hother'
        rw [t.put_self]
        exact hkept.stored rfl
      · rw [t.put_other records hother', ← hread other hother]
        exact hkept.others other hother fun _ => hother'
    · exact absurd hwritable hunwritable

/-- An insertion fails where what the table holds cannot be written, and its result does not tell why. -/
theorem insert_unwritable (h : settings.Holds served store t) {a : Insertion} (ha : served a.table) {r : Record}
    (hr : a.record (Tables.newId (t a.table)) = .ok r) (hunwritable : ¬ Writable (t a.table ++ [r])) :
    (insert store a).1 = .internalError := by
  obtain ⟨v, rfl, hready, hread⟩ := h
  obtain ⟨hwritable, _⟩ | ⟨_, cause, hcause⟩ :=
    replace_cases hpattern hnamed hready ha (hread a.table ha) (t a.table ++ [r])
  · exact absurd hwritable hunwritable
  · rw [Tables.newId_eq] at hr
    have hload : TableStore.load (Store.files (settings.files v)) a.table =
        (.ok (t a.table), .files (settings.files v)) :=
      congrArg (fun result => (result, Store.files (settings.files v))) (hread a.table ha)
    unfold insert
    rw [hload]
    simp only [hr]
    rcases hs : TableStore.save (Store.files (settings.files v)) a.table (t a.table ++ [r]) with ⟨outcome, s⟩
    obtain rfl : outcome = .error (.unexpected cause) := (congrArg Prod.fst hs).symm.trans hcause
    rfl

end Settings

/-- A statement, or an end of the program after which it is started again. -/
inductive Turn
  | statement (text : String)
  | restart

def Turn.text? : Turn → Option String
  | statement text => some text
  | restart => none

/-- The statements of turns, without the restarts. -/
def statements (turns : List Turn) : List String := turns.filterMap Turn.text?

/-- Whether a statement does not insert into a table that has half of a surrogate pair in it. -/
def Tables.CanWrite (t : Tables) (text : String) : Prop :=
  ∀ a, parse statementDigits text = .ok (.insert a) → a.IsAccepted → ∀ r ∈ t a.table, r.IsChars

theorem Tables.canWrite_executeStatement_iff (t : Tables) (text other : String) :
    (t.executeStatement text).2.CanWrite other ↔ t.CanWrite other :=
  forall₃_congr fun a _ _ => t.isChars_executeStatement_iff text a.table

/-- No statement mends a table that has half of a surrogate pair in it, and none breaks one. -/
theorem Tables.canWrite_executeAll_iff (t : Tables) (texts : List String) (other : String) :
    (t.executeAll texts).2.CanWrite other ↔ t.CanWrite other := by
  induction texts generalizing t with
  | nil => rfl
  | cons text texts ih => exact (ih (t.executeStatement text).2).trans (t.canWrite_executeStatement_iff text other)

namespace Settings

variable {settings : Settings} {served : String → Prop} {store : Store} {t : Tables} {text table : String}

/-- A store that is opened anew: what was in memory is gone, and the files are as they were left. -/
def reopen (settings : Settings) : Store → Store
  | .memory _ => settings.store .empty
  | .files s => settings.store s.volume

/-- Takes turns one after another; a restart has no result. -/
def runTurns (settings : Settings) (store : Store) : List Turn → List Result × Store
  | [] => ([], store)
  | .restart :: rest => runTurns settings (settings.reopen store) rest
  | .statement text :: rest =>
    let (result, store) := executeStatement store text
    let (results, store) := runTurns settings store rest
    (result :: results, store)

theorem Holds.reopen (hbackend : settings.backend = .json) (h : settings.Holds served store t) :
    settings.Holds served (settings.reopen store) t := by
  obtain ⟨v, rfl, hready, hread⟩ := h
  exact ⟨v, store_eq hbackend v, hready, hread⟩

variable (hbackend : settings.backend = .json) (hpattern : settings.filePattern = FileStore.usualPattern)
  (hnamed : ∀ table, served table → Grammar.IsWord table.toList)
include hpattern hnamed

/-- A statement that can write has the result that the tables give, and the files hold the tables then. -/
theorem Holds.of_canWrite (h : settings.Holds served store t)
    (hserved : ∀ c, parse statementDigits text = .ok c → served c.table)
    (hshort : ∀ table, served table → ∀ r ∈ (t.executeStatement text).2 table, r.IsShort) (hwrite : t.CanWrite text) :
    (executeStatement store text).1 = (t.executeStatement text).1 ∧
      settings.Holds served (executeStatement store text).2 (t.executeStatement text).2 := by
  refine (follows_files hpattern hnamed).executeStatement h hserved fun a r hparse hr other hother => ?_
  have hafter : (t.executeStatement text).2 a.table = t a.table ++ [r] := by
    simp only [Tables.executeStatement, hparse, Tables.execute, hr, Tables.put_self]
  refine ⟨hshort a.table (hserved _ hparse) other (hafter ▸ hother), ?_⟩
  rcases List.mem_append.mp hother with hold | hnew
  · exact hwrite a hparse ((Insertion.isAccepted_iff _).mpr ⟨r, hr⟩) other hold
  · rw [List.mem_singleton.mp hnew]
    exact Insertion.record_isChars hr

/-- A statement that cannot write is an insertion that fails, where the tables take the record. -/
theorem Holds.of_not_canWrite (h : settings.Holds served store t)
    (hserved : ∀ c, parse statementDigits text = .ok c → served c.table) (hwrite : ¬ t.CanWrite text) :
    (executeStatement store text).1 = .internalError ∧ ∃ r, (t.executeStatement text).1 = .inserted r := by
  simp only [Tables.CanWrite, Classical.not_forall] at hwrite
  obtain ⟨a, hparse, haccepted, other, hother, hchars⟩ := hwrite
  obtain ⟨r, hr⟩ := (Insertion.isAccepted_iff (Tables.newId (t a.table))).mp haccepted
  have hunwritable : ¬ Writable (t a.table ++ [r]) := fun hgood =>
    hchars (hgood other (List.mem_append_left _ hother)).2
  have hinsert := insert_unwritable hpattern hnamed h (hserved _ hparse) hr hunwritable
  refine ⟨?_, r, ?_⟩
  · simpa only [executeStatement, hparse, execute] using hinsert
  · simp only [Tables.executeStatement, hparse, Tables.execute, hr]

/-- Statement by statement the result is that of the tables just where the statement can write. -/
theorem Holds.executeStatement_iff (h : settings.Holds served store t)
    (hserved : ∀ c, parse statementDigits text = .ok c → served c.table)
    (hshort : ∀ table, served table → ∀ r ∈ (t.executeStatement text).2 table, r.IsShort) :
    (executeStatement store text).1 = (t.executeStatement text).1 ↔ t.CanWrite text := by
  constructor
  · intro hresult
    apply Classical.byContradiction
    intro hwrite
    obtain ⟨hfailed, r, hinserted⟩ := h.of_not_canWrite hpattern hnamed hserved hwrite
    rw [hfailed, hinserted] at hresult
    contradiction
  · intro hwrite
    exact (h.of_canWrite hpattern hnamed hserved hshort hwrite).1

include hbackend in
/-- Turns have the results that the tables give exactly if each statement can write, and the files hold the tables
then. -/
theorem Holds.runTurns {turns : List Turn} (h : settings.Holds served store t)
    (hserved : ∀ table, Uses (statements turns) table → served table)
    (hshort : ∀ table, served table → ∀ r ∈ (t.executeAll (statements turns)).2 table, r.IsShort) :
    ((settings.runTurns store turns).1 = (t.executeAll (statements turns)).1 ↔
        ∀ text ∈ statements turns, t.CanWrite text) ∧
      ((∀ text ∈ statements turns, t.CanWrite text) →
        settings.Holds served (settings.runTurns store turns).2 (t.executeAll (statements turns)).2) := by
  induction turns generalizing store t with
  | nil => exact ⟨by simp [Settings.runTurns, statements, Tables.executeAll], fun _ => h⟩
  | cons turn turns ih =>
    cases turn with
    | restart => exact ih (h.reopen hbackend) hserved hshort
    | statement text =>
      have hstatements : statements (.statement text :: turns) = text :: statements turns := rfl
      rw [hstatements] at hserved hshort ⊢
      have hserved' : ∀ c, parse statementDigits text = .ok c → served c.table := fun c hparse =>
        hserved _ ⟨text, List.mem_cons_self, c, hparse, rfl⟩
      have hshort' : ∀ table, served table → ∀ r ∈ (t.executeStatement text).2 table, r.IsShort :=
        fun table htable r hr => hshort table htable r (Tables.mem_executeAll (statements turns) hr)
      have hresult := h.executeStatement_iff hpattern hnamed hserved' hshort'
      have hnext := fun hwrite => (h.of_canWrite hpattern hnamed hserved' hshort' hwrite).2
      have hrest := fun hheld => @ih (TableServer.executeStatement store text).2 (t.executeStatement text).2 hheld
        (fun table huse => hserved table (huse.mono (List.subset_cons_self _ _))) hshort
      have hlater : (∀ other ∈ statements turns, (t.executeStatement text).2.CanWrite other) ↔
          ∀ other ∈ statements turns, t.CanWrite other :=
        forall₂_congr fun other _ => t.canWrite_executeStatement_iff text other
      rw [List.forall_mem_cons]
      simp only [Settings.runTurns, Tables.executeAll, List.cons.injEq]
      constructor
      · constructor
        · rintro ⟨hfirst, hlast⟩
          have hwrite := hresult.mp hfirst
          exact ⟨hwrite, hlater.mp ((hrest (hnext hwrite)).1.mp hlast)⟩
        · rintro ⟨hwrite, hwrites⟩
          exact ⟨hresult.mpr hwrite, (hrest (hnext hwrite)).1.mpr (hlater.mpr hwrites)⟩
      · rintro ⟨hwrite, hwrites⟩
        exact (hrest (hnext hwrite)).2 (hlater.mpr hwrites)

end Settings

theorem statements_append (turns more : List Turn) :
    statements (turns ++ more) = statements turns ++ statements more :=
  List.filterMap_append

/-- A run up to some point, where every statement can write. -/
theorem Settings.Holds.before {settings : Settings} (hbackend : settings.backend = .json)
    (hpattern : settings.filePattern = FileStore.usualPattern) {turns before : List Turn} {store : Store}
    {tables : Tables} (hholds : settings.Holds (Uses (statements turns)) store tables)
    (hshort : ∀ table, Uses (statements turns) table →
      ∀ r ∈ (tables.executeAll (statements turns)).2 table, r.IsShort) (hbefore : before <+: turns)
    (hwrites : ∀ text ∈ statements before, tables.CanWrite text) :
    (settings.runTurns store before).1 = (tables.executeAll (statements before)).1 ∧
      settings.Holds (Uses (statements turns)) (settings.runTurns store before).2
        (tables.executeAll (statements before)).2 := by
  obtain ⟨after, rfl⟩ := hbefore
  have hstatements := statements_append before after
  have hserved : ∀ table, Uses (statements before) table → Uses (statements (before ++ after)) table := by
    intro table huse
    rw [hstatements]
    exact huse.mono (List.subset_append_left _ _)
  have hshort' : ∀ table, Uses (statements (before ++ after)) table →
      ∀ r ∈ (tables.executeAll (statements before)).2 table, r.IsShort := by
    intro table huse r hr
    apply hshort table huse
    rw [hstatements, Tables.executeAll_append]
    exact Tables.mem_executeAll (statements after) hr
  have hrun := hholds.runTurns hbackend hpattern (fun _ huse => huse.isWord) hserved hshort'
  exact ⟨hrun.1.mpr hwrites, hrun.2 hwrites⟩

/-- Memory without restarts agrees with the tables at every point of a run. Files with restarts give the same results
exactly if no statement inserts into a table that was read with half of a surrogate pair in it; they agree at every
point then, and the first such insertion fails, since its text is no UTF-8. -/
theorem restarts_agree {settings : Settings} (hbackend : settings.backend = .json)
    (hpattern : settings.filePattern = FileStore.usualPattern) {v : Volume} {turns : List Turn} {tables : Tables}
    {memory : MemoryStore} (hready : (settings.files v).Ready (Uses (statements turns)) FileStore.fileName)
    (hread : ∀ table, Uses (statements turns) table →
      (TableStore.load (settings.store v) table).1 = .ok (tables table))
    (hmemory : memory.Holds (Uses (statements turns)) tables)
    (hshort : ∀ table, Uses (statements turns) table →
      ∀ r ∈ (tables.executeAll (statements turns)).2 table, r.IsShort) :
    (∀ before, before <+: turns → Agrees (Uses (statements turns)) (executeAll memory (statements before))
      (tables.executeAll (statements before))) ∧
    ((settings.runTurns (settings.store v) turns).1 = (tables.executeAll (statements turns)).1 ↔
      ∀ text ∈ statements turns, tables.CanWrite text) ∧
    ((∀ text ∈ statements turns, tables.CanWrite text) → ∀ before, before <+: turns →
      Agrees (Uses (statements turns)) (settings.runTurns (settings.store v) before)
        (tables.executeAll (statements before))) ∧
    ∀ before text, before ++ [.statement text] <+: turns → (∀ other ∈ statements before, tables.CanWrite other) →
      ¬ tables.CanWrite text →
      (executeStatement (settings.runTurns (settings.store v) before).2 text).1 = .internalError := by
  have hstore := Settings.store_eq hbackend v
  have hnamed : ∀ table, Uses (statements turns) table → Grammar.IsWord table.toList := fun _ huse => huse.isWord
  have hholds : settings.Holds (Uses (statements turns)) (settings.store v) tables := by
    refine ⟨v, hstore, hready, fun table htable => ?_⟩
    have hloaded := hread table htable
    rw [hstore] at hloaded
    exact hloaded
  refine ⟨?_, (hholds.runTurns hbackend hpattern hnamed (fun _ h => h) hshort).1, ?_, ?_⟩
  · rintro before ⟨after, rfl⟩
    apply (MemoryStore.follows _).executeAll hmemory
    intro table htable
    rw [statements_append]
    exact htable.mono (List.subset_append_left _ _)
  · intro hwrites before hbefore
    have hpart : ∀ text ∈ statements before, tables.CanWrite text := fun text htext =>
      hwrites text ((hbefore.sublist.filterMap Turn.text?).subset htext)
    obtain ⟨hresults, hafter⟩ := hholds.before hbackend hpattern hshort hbefore hpart
    exact ⟨hresults, fun table htable => ((Settings.follows_files hpattern hnamed).load hafter htable).1⟩
  · intro before text hbefore hwrites hwrite
    obtain ⟨_, hafter⟩ := hholds.before hbackend hpattern hshort ((List.prefix_append _ _).trans hbefore) hwrites
    have htext : text ∈ statements turns := by
      apply (hbefore.sublist.filterMap Turn.text?).subset
      rw [List.filterMap_append]
      exact List.mem_append_right _ List.mem_cons_self
    rw [← tables.canWrite_executeAll_iff (statements before)] at hwrite
    exact (hafter.of_not_canWrite hpattern hnamed (fun c hparse => ⟨text, htext, c, hparse, rfl⟩) hwrite).1

def inData : Settings := ⟨"localhost", 0, 1, .json, "data", FileStore.usualPattern, true, "INFO", .text⟩

def halved : Volume := ⟨[(["data"], .directory), (["data", "t.json"],
  .file (Utf8.encode "[\x7b\"id\": 1, \"name\": \"\\ud83d\"\x7d]".toList))]⟩

def insertNew : String := "INSERT INTO t (name) VALUES (new)"

theorem parse_insertNew : parse statementDigits insertNew = .ok (.insert ⟨"t", [("name", "new")]⟩) := by
  decide +kernel

theorem parse_selectAll : parse statementDigits "SELECT * FROM t" = .ok (.selectAll "t") := by decide +kernel

theorem eq_of_uses {texts : List String} (h : ∀ text ∈ texts, text = insertNew ∨ text = "SELECT * FROM t")
    {table : String} (huse : Uses texts table) : table = "t" := by
  obtain ⟨text, htext, c, hparse, rfl⟩ := huse
  rcases h text htext with rfl | rfl
  · rw [parse_insertNew] at hparse
    obtain rfl := Except.ok.inj hparse
    rfl
  · rw [parse_selectAll] at hparse
    obtain rfl := Except.ok.inj hparse
    rfl

theorem ready_inData {v w : Volume} {served : String → Prop} (hserved : ∀ table, served table → table = "t")
    (hopens : (inData.files v).Opens w ["data"])
    (hfree : w.node? ["data", FileStore.temporaryName "t.json" "00000000"] = none) :
    (inData.files v).Ready served FileStore.fileName := by
  have hname : FileStore.temporaryName (FileStore.fileName "t") (FileStore.tag 0) =
      FileStore.temporaryName "t.json" "00000000" := by decide +kernel
  have hnul : (Path.ofString "data").hasNul = false := by decide +kernel
  have hfits : Volume.FitsIn (Path.ofString "data") (FileStore.temporaryName "t.json" "00000000") := by
    decide +kernel
  refine ⟨hnul, fun table htable => ?_, w, ["data"], hopens, fun table htable => ⟨0, by decide, ?_⟩⟩
  · rw [hserved table htable, hname]
    exact hfits
  · rw [hserved table htable, hname]
    exact hfree

/-- A run over a directory that is not there at first, and an insertion that fails where memory has no trouble. -/
theorem restarts_agree_inData :
    (inData.runTurns (inData.store .empty) [.statement insertNew, .restart, .statement "SELECT * FROM t"]).1 =
        (Tables.executeAll (fun _ => []) [insertNew, "SELECT * FROM t"]).1 ∧
      (inData.runTurns (inData.store halved) [.statement insertNew]).1 ≠
        (Tables.executeAll (fun _ => [⟨1, [.surrogate 0x3d], []⟩]) [insertNew]).1 := by
  constructor
  · have huses : ∀ table, Uses [insertNew, "SELECT * FROM t"] table → table = "t" := fun table =>
      eq_of_uses (by simp)
    have hopens : (inData.files .empty).Opens ⟨[(["data"], .directory)]⟩ ["data"] :=
      ⟨rfl, ⟨rfl, rfl⟩, .inr fun name => by simp [Volume.node?]⟩
    have hread : (TableStore.load (inData.store .empty) "t").1 = .ok [] := by decide +kernel
    have hshort : ∀ r ∈ (Tables.executeAll (fun _ => []) [insertNew, "SELECT * FROM t"]).2 "t",
        (Nat.toDigits 10 r.id).length ≤ Json.digitLimit := by decide +kernel
    refine (@restarts_agree inData rfl rfl .empty [.statement insertNew, .restart, .statement "SELECT * FROM t"]
      (fun _ => []) .empty (ready_inData huses hopens rfl) (fun table htable => ?_)
      ⟨rfl, rfl, fun _ _ => rfl⟩ (fun table htable => ?_)).2.1.mpr ?_
    · rw [huses table htable]
      exact hread
    · rw [huses table htable]
      exact hshort
    · intro text _ a _ _ r hr
      exact absurd hr List.not_mem_nil
  · have huses : ∀ table, Uses [insertNew] table → table = "t" := fun table => eq_of_uses (by simp)
    have hopens : (inData.files halved).Opens halved ["data"] := FileStore.opens_of_leads ⟨rfl, rfl⟩
    have hread : (TableStore.load (inData.store halved) "t").1 = .ok [⟨1, [.surrogate 0x3d], []⟩] := by
      decide +kernel
    have hshort : ∀ r ∈ (Tables.executeAll (fun _ => [⟨1, [.surrogate 0x3d], []⟩]) [insertNew]).2 "t",
        (Nat.toDigits 10 r.id).length ≤ Json.digitLimit := by decide +kernel
    intro heq
    have hwrites := (@restarts_agree inData rfl rfl halved [.statement insertNew]
      (fun _ => [⟨1, [.surrogate 0x3d], []⟩]) ⟨[("t", [⟨1, [.surrogate 0x3d], []⟩])], none, none, 0, 0⟩
      (ready_inData huses hopens rfl) (fun table htable => huses table htable ▸ hread)
      ⟨rfl, rfl, fun table htable => by rw [huses table htable]; rfl⟩
      (fun table htable => huses table htable ▸ hshort)).2.1.mp heq
    have hchars := hwrites insertNew List.mem_cons_self _ parse_insertNew ⟨_, rfl⟩ _ List.mem_cons_self
    obtain ⟨c, hc⟩ := hchars.1 _ List.mem_cons_self
    contradiction

end TableServer
