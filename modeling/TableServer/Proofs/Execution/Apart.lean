import TableServer.Proofs.Execution.Growth
import TableServer.Proofs.Execution.Reference
import TableServer.Proofs.Store.Backends
import TableServer.Proofs.Store.Seclusion

namespace TableServer

/-- Whether a text is a statement on the table. -/
def isOn (table text : String) : Bool :=
  match parse statementDigits text with
  | .ok c => decide (c.table = table)
  | .error _ => false

/-- The answers to the statements on a table, among the answers to all texts. -/
def answersOn (table : String) (texts : List String) (results : List Result) : List Result :=
  ((texts.zip results).filter fun answer => isOn table answer.1).map (·.2)

variable {σ : Type} [TableStore σ]

/-- The statements on a table are answered as they are when only they are executed, and the table holds the same in
the end: what statements on one table tell does not depend on the others. -/
def Apart (s : σ) (table : String) (texts : List String) : Prop :=
  answersOn table texts (executeAll s texts).1 = (executeAll s (texts.filter (isOn table))).1 ∧
    (TableStore.load (executeAll s texts).2 table).1 =
      (TableStore.load (executeAll s (texts.filter (isOn table))).2 table).1

theorem executeAll_snd (s : σ) (texts : List String) :
    (executeAll s texts).2 = texts.foldl (fun s text => (executeStatement s text).2) s := by
  induction texts generalizing s with
  | nil => rfl
  | cons text texts ih => exact ih _

/-- A relation of stores that those who use a table cannot tell apart: what they do has the same answers and keeps it, and
what others do on one side keeps it too. -/
structure Secludes (table : String) (R : σ → σ → Prop) : Prop where
  load {a b : σ} : R a b → (TableStore.load a table).1 = (TableStore.load b table).1 ∧
    R (TableStore.load a table).2 (TableStore.load b table).2
  save {a b : σ} (records : List Record) : R a b →
    FileStore.SameAnswer (TableStore.save a table records).1 (TableStore.save b table records).1 ∧
      R (TableStore.save a table records).2 (TableStore.save b table records).2
  load_other {a b : σ} {other : String} : R a b → Grammar.IsWord other.toList → other ≠ table →
    R (TableStore.load a other).2 b
  save_other {a b : σ} {other : String} (records : List Record) : R a b → Grammar.IsWord other.toList →
    other ≠ table → R (TableStore.save a other records).2 b

namespace Secludes

variable {table : String} {R : σ → σ → Prop} {a b : σ} {c : Command}

/-- A load is the same on both sides, result and relation. -/
theorem loads (r : Secludes table R) (h : R a b) : ∃ result a' b', TableStore.load a table = (result, a') ∧
    TableStore.load b table = (result, b') ∧ R a' b' := by
  obtain ⟨hloaded, hkept⟩ := r.load h
  exact ⟨_, _, (TableStore.load b table).2, Prod.eta (TableStore.load a table), Prod.ext hloaded.symm rfl, hkept⟩

/-- An insertion on both sides makes the same record, since it has loaded the same. -/
theorem insert (r : Secludes table R) (h : R a b) {i : Insertion} (hi : i.table = table) :
    (TableServer.insert a i).1 = (TableServer.insert b i).1 ∧
      R (TableServer.insert a i).2 (TableServer.insert b i).2 := by
  subst hi
  obtain ⟨result, a', b', hl, hl', hkept⟩ := r.loads h
  unfold TableServer.insert
  rw [hl, hl']
  cases result with
  | error e => exact ⟨rfl, hkept⟩
  | ok records =>
    dsimp only
    cases i.record (nextId records) with
    | error fault => exact ⟨rfl, hkept⟩
    | ok record =>
      obtain ⟨hsaved, hafter⟩ := r.save (records ++ [record]) hkept
      dsimp only
      rcases hs : TableStore.save a' i.table (records ++ [record]) with ⟨told, a''⟩
      rcases hs' : TableStore.save b' i.table (records ++ [record]) with ⟨told', b''⟩
      rw [hs, hs'] at hsaved hafter
      rcases told with e | _
      · rcases told' with e' | _
        · exact ⟨Except.error.inj hsaved, hafter⟩
        · exact absurd hsaved nofun
      · rcases told' with e' | _
        · exact absurd hsaved nofun
        · exact ⟨rfl, hafter⟩

/-- A command on the table has the same answer in both. -/
theorem execute (r : Secludes table R) (h : R a b) (hc : c.table = table) :
    (TableServer.execute a c).1 = (TableServer.execute b c).1 ∧
      R (TableServer.execute a c).2 (TableServer.execute b c).2 := by
  cases c with
  | insert i => exact r.insert h hc
  | selectAll other =>
    obtain rfl : other = table := hc
    obtain ⟨result, a', b', hl, hl', hkept⟩ := r.loads h
    simp only [TableServer.execute, selectAll, hl, hl']
    cases result <;> exact ⟨rfl, hkept⟩
  | selectById other id =>
    obtain rfl : other = table := hc
    obtain ⟨result, a', b', hl, hl', hkept⟩ := r.loads h
    simp only [TableServer.execute, selectById, hl, hl']
    cases result with
    | error e => exact ⟨rfl, hkept⟩
    | ok records =>
      dsimp only
      split <;> exact ⟨rfl, hkept⟩

/-- A command on another table may as well be left out. -/
theorem execute_other (r : Secludes table R) (h : R a b) (hword : Grammar.IsWord c.table.toList)
    (hc : c.table ≠ table) : R (TableServer.execute a c).2 b := by
  have hloaded := r.load_other h hword hc
  cases c with
  | selectAll other =>
    rw [Contract.execute_snd_of_select (by simp)]
    exact hloaded
  | selectById other id =>
    rw [Contract.execute_snd_of_select (by simp)]
    exact hloaded
  | insert i =>
    simp only [TableServer.execute, TableServer.insert]
    rcases hl : TableStore.load a i.table with ⟨e | records, a'⟩
    · rw [Command.table, hl] at hloaded
      exact hloaded
    · rw [Command.table, hl] at hloaded
      dsimp only
      cases i.record (nextId records) with
      | error fault => exact hloaded
      | ok record =>
        have hsaved := r.save_other (records ++ [record]) hloaded hword hc
        rw [Command.table] at hsaved
        dsimp only
        rcases hs : TableStore.save a' i.table (records ++ [record]) with ⟨_ | _, a''⟩ <;>
        · rw [hs] at hsaved
          exact hsaved

theorem executeStatement (r : Secludes table R) (h : R a b) {text : String} (hon : isOn table text = true) :
    (TableServer.executeStatement a text).1 = (TableServer.executeStatement b text).1 ∧
      R (TableServer.executeStatement a text).2 (TableServer.executeStatement b text).2 := by
  unfold isOn at hon
  unfold TableServer.executeStatement
  cases hparse : parse statementDigits text with
  | error rejection => simp [hparse] at hon
  | ok c =>
    rw [hparse] at hon
    exact r.execute h (of_decide_eq_true hon)

theorem executeStatement_other (r : Secludes table R) (h : R a b) {text : String} (hon : isOn table text = false) :
    R (TableServer.executeStatement a text).2 b := by
  unfold isOn at hon
  unfold TableServer.executeStatement
  cases hparse : parse statementDigits text with
  | error rejection => exact h
  | ok c =>
    rw [hparse] at hon
    exact r.execute_other h (isWord_of_parse hparse) (of_decide_eq_false hon)

/-- A run of all texts on one side, of those on the table on the other. -/
theorem executeAll (r : Secludes table R) (h : R a b) (texts : List String) :
    answersOn table texts (TableServer.executeAll a texts).1 =
        (TableServer.executeAll b (texts.filter (isOn table))).1 ∧
      R (TableServer.executeAll a texts).2 (TableServer.executeAll b (texts.filter (isOn table))).2 := by
  induction texts generalizing a b with
  | nil => exact ⟨rfl, h⟩
  | cons text texts ih =>
    rw [TableServer.executeAll]
    dsimp only
    cases hon : isOn table text with
    | true =>
      obtain ⟨hresult, hnext⟩ := r.executeStatement h hon
      obtain ⟨hresults, hlast⟩ := ih hnext
      rw [List.filter_cons, if_pos hon, TableServer.executeAll]
      dsimp only
      refine ⟨?_, hlast⟩
      rw [← hresult, ← hresults]
      simp [answersOn, hon]
    | false =>
      obtain ⟨hresults, hlast⟩ := ih (r.executeStatement_other h hon)
      rw [List.filter_cons, if_neg (Bool.eq_false_iff.mp hon)]
      refine ⟨?_, hlast⟩
      rw [← hresults]
      simp [answersOn, hon]

/-- A store that is secluded from itself has the table apart, whatever the statements. -/
theorem apart (r : Secludes table R) (h : R a a) (texts : List String) : Apart a table texts := by
  obtain ⟨hresults, hlast⟩ := r.executeAll h texts
  exact ⟨hresults, (r.load hlast).1⟩

end Secludes

namespace Store

variable {s : Store} {table : String}

/-- Memory has any tables. Files have those whose names are written out in the name of a file, if that is not too
long. -/
def HasOwn : Store → String → Prop
  | memory _, _ => True
  | files _, table => table ≠ "" ∧ FileStore.safeName table = table ∧
    (FileStore.fileName table).utf8ByteSize ≤ Volume.nameLimit

/-- Making the data directory, if there is one to make, tells nothing to those who load the table. -/
def Undisturbed : Store → String → Prop
  | memory _, _ => True
  | files s, table => s.Undisturbed table

/-- No temporary file of the table is in a data directory that is still to be made. -/
def Unlittered : Store → String → Prop
  | memory _, _ => True
  | files s, table => s.Unlittered table

/-- The data directory is made as a whole or not at all, and without stepping back. -/
def MakesCleanly : Store → Prop
  | memory _ => True
  | files s => s.MakesCleanly

/-- Stores that those who use the table cannot tell apart. -/
inductive Indistinct (table : String) : Store → Store → Prop
  | memory {a b : MemoryStore} (ha : (memory a).Unarmed) (hb : (memory b).Unarmed)
    (hsame : MemoryStore.recordsOf a.tables table = MemoryStore.recordsOf b.tables table) :
    Indistinct table (memory a) (memory b)
  | files {s : FileStore} {v w : Volume} (husual : (files s).IsUsual) (hsafe : FileStore.safeName table = table)
    (hne : table ≠ "") (h : s.Indistinct table v w) : Indistinct table (files (s.on v)) (files (s.on w))

theorem path_of_isUsual {s : FileStore} (husual : (files s).IsUsual) (hsafe : FileStore.safeName table = table)
    (hne : table ≠ "") : s.path table = .ok (s.directory.child (FileStore.fileName table)) :=
  FileStore.path_eq husual.1 (hsafe.symm ▸ hne)

theorem slashes_of_isUsual {s : FileStore} (husual : (files s).IsUsual) : s.directory.slashes ≤ 2 := by
  obtain ⟨_, directory, hdirectory⟩ := husual
  exact hdirectory ▸ slashes_ofString_le directory

/-- In memory other tables are other entries. In files they are other files, and a save of them is a detour over a
temporary file of theirs. -/
theorem secludes (table : String) : Secludes table (Indistinct table) where
  load {a b} h := by
    cases h with
    | @memory a b ha hb hsame =>
      change (a.load table).1 = (b.load table).1 ∧ Indistinct table (memory (a.load table).2) (memory (b.load table).2)
      rw [MemoryStore.load, MemoryStore.load, ha.1, hb.1]
      exact ⟨congrArg Except.ok hsame, .memory ⟨rfl, ha.2⟩ ⟨rfl, hb.2⟩ hsame⟩
    | files husual hsafe hne h =>
      exact ⟨h.read (path_of_isUsual husual hsafe hne), .files husual hsafe hne h⟩
  save {a b} records h := by
    cases h with
    | @memory a b ha hb hsame =>
      change FileStore.SameAnswer (a.save table records).1 (b.save table records).1 ∧
        Indistinct table (memory (a.save table records).2) (memory (b.save table records).2)
      rw [MemoryStore.save, MemoryStore.save, ha.2, hb.2]
      refine ⟨rfl, .memory ⟨ha.1, rfl⟩ ⟨hb.1, rfl⟩ ?_⟩
      rw [MemoryStore.recordsOf_setTable_self, MemoryStore.recordsOf_setTable_self]
    | @files s v w husual hsafe hne h =>
      obtain ⟨result, result', x, y, hx, hy, hsame, hafter⟩ := h.replace (path_of_isUsual husual hsafe hne) records
      change FileStore.SameAnswer ((s.on v).replace table records).1 ((s.on w).replace table records).1 ∧
        Indistinct table (files ((s.on v).replace table records).2) (files ((s.on w).replace table records).2)
      rw [hx, hy]
      exact ⟨hsame, .files husual hsafe hne hafter⟩
  load_other {a b other} h _ _ := by
    cases h with
    | @memory a b ha hb hsame =>
      change Indistinct table (memory (a.load other).2) (memory b)
      rw [MemoryStore.load, ha.1]
      exact .memory ⟨rfl, ha.2⟩ hb hsame
    | files husual hsafe hne h => exact .files husual hsafe hne h
  save_other {a b other} records h hword hother := by
    cases h with
    | @memory a b ha hb hsame =>
      change Indistinct table (memory (a.save other records).2) (memory b)
      rw [MemoryStore.save, ha.2]
      refine .memory ⟨ha.1, rfl⟩ hb ?_
      rw [MemoryStore.recordsOf_setTable_other _ _ (Ne.symm hother), hsame]
    | @files s v w husual hsafe hne h =>
      have hsafe' : FileStore.safeName other = other := FileStore.safeName_of_isWord hword
      have hne' : other ≠ "" := hsafe' ▸ FileStore.safeName_ne_empty hword
      obtain ⟨x, hx, hafter⟩ := h.replace_other (slashes_of_isUsual husual) (path_of_isUsual husual hsafe' hne')
        (hsafe.symm ▸ hne) (by rw [hsafe, hsafe']; exact hother) records
      change Indistinct table (files ((s.on v).replace other records).2) (files (s.on w))
      rw [hx]
      exact .files husual hsafe hne hafter

theorem indistinct_self (husual : s.IsUsual) (hunarmed : s.Unarmed) (hown : s.HasOwn table)
    (hundisturbed : s.Undisturbed table) (hunlittered : s.Unlittered table) : Indistinct table s s := by
  cases s with
  | memory s => exact .memory hunarmed hunarmed rfl
  | files s =>
    obtain ⟨hne, hsafe, _⟩ := hown
    have h := FileStore.indistinct_self (slashes_of_isUsual husual) hundisturbed hunlittered
    exact @Indistinct.files table s s.volume s.volume husual hsafe hne h

/-- There is a statement that inserts a record into another table, one with a name as short as there is. -/
theorem exists_insertion (table : String) : ∃ text other, other ≠ table ∧ other.utf8ByteSize = 1 ∧
    parse statementDigits text = .ok (.insert ⟨other, [("name", "x")]⟩) := by
  by_cases h : table = "a"
  · subst h
    exact ⟨"INSERT INTO b (name) VALUES (x)", "b", by decide, by decide, by decide +kernel⟩
  · exact ⟨"INSERT INTO a (name) VALUES (x)", "a", Ne.symm h, by decide, by decide +kernel⟩

/-- The record that it inserts into an empty table. -/
def firstRow : Record := ⟨1, Text.ofString "x", Text.ofString ""⟩

theorem exists_encode_firstRow : ∃ content, TableFile.encode [firstRow] = .ok content := by
  refine (TableFile.encode_isOk_iff [firstRow]).mpr fun r hr => ?_
  obtain rfl := List.mem_singleton.mp hr
  have hshort : (Nat.toDigits 10 1).length ≤ Json.digitLimit := by decide
  exact ⟨hshort, Record.isChars_ofString _, Record.isChars_ofString _⟩

variable {files : FileStore} {other text : String}

theorem load_files (files : FileStore) (table : String) :
    TableStore.load (Store.files files) table = (files.read table, .files files) := rfl

theorem executeStatement_insertion (hparse : parse statementDigits text = .ok (.insert ⟨other, [("name", "x")]⟩))
    (hread : files.read other = .ok []) :
    (executeStatement (Store.files files) text).2 = .files (files.replace other [firstRow]).2 := by
  have hload : TableStore.load (Store.files files) other = (.ok [], .files files) := by rw [load_files, hread]
  have hrecord : Insertion.record (nextId []) ⟨other, [("name", "x")]⟩ = .ok firstRow := rfl
  unfold executeStatement
  rw [hparse]
  simp only [execute, insert, hload, hrecord]
  rcases hs : TableStore.save (Store.files files) other ([] ++ [firstRow]) with ⟨_ | _, after⟩
  all_goals exact (congrArg Prod.snd hs).symm

/-- Where making the data directory disturbs a table, the insertion into another one does. -/
theorem disturbs_of_insertion (husual : (Store.files files).IsUsual) (hown : (Store.files files).HasOwn table)
    (hdisturbed : ¬ files.Undisturbed table) (hother : other ≠ table) (hone : other.utf8ByteSize = 1)
    (hparse : parse statementDigits text = .ok (.insert ⟨other, [("name", "x")]⟩)) :
    ∃ x, (executeStatement (Store.files files) text).2 = .files (files.on x) ∧
      (files.on x).read table ≠ files.read table := by
  obtain ⟨hne, hsafe, _⟩ := hown
  have hword : Grammar.IsWord other.toList := isWord_of_parse hparse
  have hsafe' : FileStore.safeName other = other := FileStore.safeName_of_isWord hword
  have hpath := path_of_isUsual husual hsafe hne
  have hpath' := path_of_isUsual husual hsafe' (hsafe' ▸ FileStore.safeName_ne_empty hword)
  obtain ⟨hgained, hnul, hsize⟩ := FileStore.of_not_undisturbed hpath hdisturbed
  have hshort : (files.directory.child (FileStore.fileName other)).toString.utf8ByteSize ≤ Volume.pathLimit := by
    have hpos : table.utf8ByteSize ≠ 0 := fun hzero => hne (String.utf8ByteSize_eq_zero_iff.mp hzero)
    rw [Volume.utf8ByteSize_child, FileStore.fileName, String.utf8ByteSize_append] at hsize ⊢
    rw [hsafe] at hsize
    rw [hsafe', hone]
    omega
  have hread : files.read other = .ok [] := by
    rw [FileStore.read_eq hpath' (FileStore.isPlain_fileName other), hnul,
      Volume.read_child_of_made hgained hshort]
    rfl
  obtain ⟨x, hx, hspares⟩ := FileStore.replace_spares (slashes_of_isUsual husual) hpath' (hsafe.symm ▸ hne)
    (by rw [hsafe, hsafe']; exact hother) [firstRow]
  refine ⟨x, by rw [executeStatement_insertion hparse hread, hx], ?_⟩
  rw [hspares.read hpath hnul exists_encode_firstRow]
  exact hdisturbed

/-- A table that is apart from all statements is so from this one, so that making the directory tells it nothing. -/
theorem undisturbed_of_apart (husual : (Store.files files).IsUsual) (hown : (Store.files files).HasOwn table)
    (hapart : ∀ texts, Apart (Store.files files) table texts) : files.Undisturbed table := by
  apply Classical.byContradiction
  intro hdisturbed
  obtain ⟨text, other, hother, hone, hparse⟩ := exists_insertion table
  obtain ⟨x, hx, hread⟩ := disturbs_of_insertion husual hown hdisturbed hother hone hparse
  have hon : isOn table text = false := by
    rw [isOn, hparse]
    exact decide_eq_false hother
  have hload := (hapart [text]).2
  rw [List.filter_cons, if_neg (Bool.eq_false_iff.mp hon)] at hload
  rw [executeAll_snd, executeAll_snd, List.foldl_cons, hx] at hload
  exact hread hload

/-- Statements on other tables make no difference to a table where the data directory is made as a whole or not at
all. In general they make none exactly where making it tells nothing to those who load the table: a directory of which
only the upper part can be made turns a table without a file into one that cannot be read. -/
theorem tables_apart (husual : s.IsUsual) (hunarmed : s.Unarmed) (hown : s.HasOwn table) :
    (s.MakesCleanly → ∀ texts, Apart s table texts) ∧
      (s.Unlittered table → ((∀ texts, Apart s table texts) ↔ s.Undisturbed table)) := by
  have hself : s.Undisturbed table → s.Unlittered table → ∀ texts, Apart s table texts :=
    fun hundisturbed hunlittered => (secludes table).apart (indistinct_self husual hunarmed hown hundisturbed hunlittered)
  constructor
  · intro hcleanly
    cases s with
    | memory s => exact hself trivial trivial
    | files s =>
      obtain ⟨hne, hsafe, hsize⟩ := hown
      have hslashes := slashes_of_isUsual husual
      exact hself (hcleanly.undisturbed hslashes (path_of_isUsual husual hsafe hne) hsize)
        (hcleanly.unlittered hslashes)
  · intro hunlittered
    refine ⟨fun hapart => ?_, fun hundisturbed => hself hundisturbed hunlittered⟩
    cases s with
    | memory s => trivial
    | files s => exact undisturbed_of_apart husual hown hapart

def longName : String := String.ofList (List.replicate 256 'n')

/-- Of this data directory, whose name is too long, only the one above can be made. -/
def halfMade : FileStore := ⟨⟨0, ["a", longName]⟩, FileStore.usualPattern, true, .empty⟩

theorem isUsual_halfMade : (Store.files halfMade).IsUsual := by
  refine ⟨rfl, String.ofList ('a' :: '/' :: List.replicate 256 'n'), ?_⟩
  rw [Path.ofString, String.toList_ofList]
  decide +kernel

theorem hasOwn_t (files : FileStore) : (Store.files files).HasOwn "t" := by
  have hsafe : FileStore.safeName "t" = "t" := by decide +kernel
  have hsize : (FileStore.fileName "t").utf8ByteSize ≤ Volume.nameLimit := by decide +kernel
  exact ⟨by decide, hsafe, hsize⟩

theorem makesCleanly_unmade : unmade.MakesCleanly := by
  refine .inr ⟨fun place name hnode => ?_, by decide +kernel, ⟨[(["data"], .directory)]⟩, rfl⟩
  exact absurd (by simp [unmade, Volume.empty, Volume.node?]) hnode

/-- Once the upper directory is there, the name that is too long is an error, and the table is no longer one that has
no file yet. -/
theorem disturbed_halfMade : ¬ halfMade.Undisturbed "t" := by
  have hpath := path_of_isUsual isUsual_halfMade (hasOwn_t halfMade).2.1 (hasOwn_t halfMade).1
  have hplain := FileStore.isPlain_fileName "t"
  have hnul : halfMade.directory.hasNul = false := by
    have hletters : longName.toList = List.replicate 256 'n' := String.toList_ofList
    rw [halfMade, Path.hasNul, List.any_cons, List.any_cons, List.any_nil, hletters]
    decide +kernel
  have hbefore : halfMade.volume.read (halfMade.directory.child (FileStore.fileName "t")) = .error .notFound := by
    decide +kernel
  have hafter : (halfMade.volume.makeDirectories halfMade.directory).2.read
      (halfMade.directory.child (FileStore.fileName "t")) = .error .nameTooLong := by decide +kernel
  unfold FileStore.Undisturbed
  rw [FileStore.read_eq hpath hplain, FileStore.read_on_eq hpath hplain, hnul, hbefore, hafter]
  simp [FileStore.records]

/-- The table is apart where the directory can be made, and not where a part of it stays. -/
theorem tables_apart_unmade : (∀ texts, Apart (Store.files unmade) "t" texts) ∧
    ¬ ∀ texts, Apart (Store.files halfMade) "t" texts := by
  constructor
  · exact (tables_apart isUsual_unmade trivial (hasOwn_t unmade)).1 makesCleanly_unmade
  · intro hall
    have hrefused : (halfMade.volume.makeDirectories halfMade.directory).1 ≠ .ok () := by decide +kernel
    have hunlittered : halfMade.Unlittered "t" := by
      exact .inr fun v place hmade => absurd (congrArg Prod.fst hmade) hrefused
    exact disturbed_halfMade (((tables_apart isUsual_halfMade trivial (hasOwn_t halfMade)).2 hunlittered).mp hall)

/-- An insertion into one table leaves another one unreadable that was empty. -/
theorem tables_joined : (Store.files halfMade).IsUsual ∧ (Store.files halfMade).Unarmed ∧
    (Store.files halfMade).HasOwn "t" ∧
    ¬ Apart (Store.files halfMade) "t" ["INSERT INTO u (name) VALUES (x)", "SELECT * FROM t"] := by
  refine ⟨isUsual_halfMade, trivial, hasOwn_t _, fun hapart => ?_⟩
  have hinsert : parse statementDigits "INSERT INTO u (name) VALUES (x)" = .ok (.insert ⟨"u", [("name", "x")]⟩) := by
    decide +kernel
  have hselect : parse statementDigits "SELECT * FROM t" = .ok (.selectAll "t") := by decide +kernel
  have hfilter : ["INSERT INTO u (name) VALUES (x)", "SELECT * FROM t"].filter (isOn "t") = ["SELECT * FROM t"] := by
    decide +kernel
  have hquiet : ∀ files, (executeStatement (Store.files files) "SELECT * FROM t").2 = .files files := by
    intro files
    rw [executeStatement, hselect]
    dsimp only
    rw [Contract.execute_snd_of_select (by simp), Command.table, load_files]
  obtain ⟨x, hx, hread⟩ := disturbs_of_insertion isUsual_halfMade (hasOwn_t halfMade) disturbed_halfMade
    (by decide) (by decide) hinsert
  have hload := hapart.2
  rw [hfilter] at hload
  rw [executeAll_snd, executeAll_snd, List.foldl_cons, hx, List.foldl_cons, List.foldl_cons, hquiet, hquiet] at hload
  exact hread hload

end Store

end TableServer
