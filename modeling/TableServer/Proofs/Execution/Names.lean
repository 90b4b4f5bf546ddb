import TableServer.Proofs.Execution.Apart
import TableServer.Proofs.Execution.Serialised

namespace TableServer

namespace FileStore

variable {s s' : FileStore} {table other : String} {records : List Record} {p : Path}

/-- A name without safe characters has no table. -/
theorem read_of_safeName_eq_empty (hempty : safeName table = "") :
    s.read table = .error (.reported (.invalidName table)) := by
  unfold read path
  rw [if_pos hempty]
  rfl

/-- Only a name with a path can be saved to. -/
theorem path_of_replace (hsaved : s.replace table records = (.ok (), s')) : ∃ p, s.path table = .ok p := by
  unfold replace at hsaved
  cases hpath : s.path table with
  | ok p => exact ⟨p, rfl⟩
  | error e =>
    rw [hpath] at hsaved
    cases (Prod.mk.inj hsaved).1

section

variable (hpattern : s.pattern = usualPattern) (hslashes : s.directory.slashes ≤ 2)
include hpattern hslashes

/-- A save that is done, as one to the file of the table. -/
theorem saving_of_replace (hsaved : s.replace table records = (.ok (), s')) : safeName table ≠ "" ∧
    ∃ w, s' = s.on w ∧ Saving s (fileName table) records (.ok ()) w := by
  obtain ⟨p, hpath⟩ := path_of_replace hsaved
  have hne := safeName_ne_empty_of_path hpath
  obtain ⟨result, w, hreplace, hsaving⟩ :=
    replace_saving hslashes (path_eq hpattern hne) (isPlain_fileName table) records
  obtain ⟨hresult, hstore⟩ := Prod.mk.inj (hsaved.symm.trans hreplace)
  exact ⟨hne, w, hstore, hresult ▸ hsaving⟩

/-- What is saved under a name is loaded under every other name of the same spelling. -/
theorem read_of_replace_same (hsaved : s.replace table records = (.ok (), s'))
    (hsame : safeName table = safeName other) : s'.read other = .ok records := by
  obtain ⟨hne, w, rfl, hsaving⟩ := saving_of_replace hpattern hslashes hsaved
  have hfile : fileName table = fileName other := congrArg (· ++ ".json") hsame
  rw [hfile] at hsaving
  cases hsaving with
  | done hmade hleads hfits hgoal hencode hnul hself hbut =>
    exact read_on_file (path_eq hpattern (hsame ▸ hne)) (isPlain_fileName other) hnul (hleads.of_sameBut hbut hgoal)
      hfits hself hencode

/-- Of another table a save shows what making the data directory shows. -/
theorem read_of_replace_other (hsaved : s.replace table records = (.ok (), s'))
    (hother : safeName table ≠ safeName other) :
    s'.read other = (s.on (s.volume.makeDirectories s.directory).2).read other := by
  obtain ⟨_, w, rfl, hsaving⟩ := saving_of_replace hpattern hslashes hsaved
  by_cases hempty : safeName other = ""
  · rw [read_of_safeName_eq_empty hempty, read_of_safeName_eq_empty hempty]
  · cases hsaving with
    | done hmade hleads hfits hgoal hencode hnul hself hbut =>
      rw [hmade]
      apply read_on (path_eq hpattern hempty) (isPlain_fileName other) hleads (hleads.of_sameBut hbut hgoal)
      apply hbut
      exact Volume.concat_ne fun heq => hother (safeName_eq_of_fileName heq.symm)

/-- Any save of another table, done or not, shows no more than that. -/
theorem read_of_replace (hother : safeName table ≠ safeName other) (hundisturbed : s.Undisturbed other)
    (records : List Record) : (s.replace table records).2.read other = s.read other := by
  by_cases hempty : safeName other = ""
  · rw [read_of_safeName_eq_empty hempty, read_of_safeName_eq_empty hempty]
  · cases hpath : s.path table with
    | error e => rw [replace, hpath]
    | ok p =>
      have hne := safeName_ne_empty_of_path hpath
      obtain ⟨x, hx, hspares⟩ := replace_spares hslashes (path_eq hpattern hne) hempty hother records
      rw [hx]
      unfold Undisturbed at hundisturbed
      cases hspares with
      | refused _ hsame =>
        rw [hsame]
        rfl
      | unmade hmade =>
        rw [hmade] at hundisturbed
        exact hundisturbed
      | made hmade halike =>
        rw [hmade] at hundisturbed
        rw [← hundisturbed]
        exact read_on (path_eq hpattern hempty) (isPlain_fileName other) halike.left halike.right (halike.same (.inl rfl))

end

end FileStore

namespace Store

variable {s s' : Store} {table other : String} {records : List Record}

/-- Whether two names are names of one table. -/
def SameTable : Store → String → String → Prop
  | memory _, table, other => table = other
  | files _, table, other => FileStore.safeName table = FileStore.safeName other

theorem unarmed_of_save_eq (hunarmed : s.Unarmed) (hsaved : TableStore.save s table records = (.ok (), s')) :
    s'.Unarmed := by
  have hkept := unarmed_save hunarmed table records
  rwa [hsaved] at hkept

/-- What is saved under a name is loaded under all names of its table, in memory as in files. -/
theorem contents_of_saved_same (husual : s.IsUsual) (hsaved : TableStore.save s table records = (.ok (), s'))
    (hsame : s.SameTable table other) : s'.contents other = .ok records := by
  cases s with
  | memory m =>
    obtain rfl : table = other := hsame
    have hstored : (TableStore.save (memory m) table records).1 = .ok () →
        (TableStore.save (memory m) table records).2.contents table = .ok records :=
      (contract fun _ => True).saved trivial trivial
    rw [hsaved] at hstored
    exact hstored rfl
  | files f =>
    obtain ⟨hresult, rfl⟩ := Prod.mk.inj hsaved
    exact FileStore.read_of_replace_same husual.1 (slashes_of_isUsual husual) (Prod.ext hresult rfl) hsame

/-- Of another table a save that is done leaves the loads as they are exactly where making the data directory does. -/
theorem load_of_saved_other (husual : s.IsUsual) (hsaved : TableStore.save s table records = (.ok (), s'))
    (hother : ¬ s.SameTable table other) :
    (TableStore.load s' other).1 = (TableStore.load s other).1 ↔ s.Undisturbed other := by
  cases s with
  | memory m =>
    obtain ⟨hresult, rfl⟩ := Prod.mk.inj hsaved
    change (m.save table records).1 = _ at hresult
    change ((m.save table records).2.load other).1 = (m.load other).1 ↔ True
    unfold MemoryStore.save at hresult ⊢
    cases hfailing : m.failingSave with
    | some message => simp [hfailing] at hresult
    | none =>
      have hkept := MemoryStore.recordsOf_setTable_other m.tables records (Ne.symm hother)
      simp only [MemoryStore.load, hkept]
      cases m.failingLoad <;> simp
  | files f =>
    obtain ⟨hresult, rfl⟩ := Prod.mk.inj hsaved
    have hread := FileStore.read_of_replace_other husual.1 (slashes_of_isUsual husual) (Prod.ext hresult rfl) hother
    change (f.replace table records).2.read other = f.read other ↔ _
    rw [hread]
    exact Iff.rfl

/-- Any save of another table, done or not, shows nothing where making the data directory shows nothing. -/
theorem load_of_save_other (husual : s.IsUsual) (hunarmed : s.Unarmed) (hother : ¬ s.SameTable table other)
    (hundisturbed : s.Undisturbed other) (records : List Record) :
    (TableStore.load (TableStore.save s table records).2 other).1 = (TableStore.load s other).1 := by
  cases s with
  | memory m =>
    have hsaved : TableStore.save (memory m) table records = (.ok (), (TableStore.save (memory m) table records).2) := by
      refine Prod.ext ?_ rfl
      change (m.save table records).1 = _
      rw [MemoryStore.save, hunarmed.2]
    exact (load_of_saved_other husual hsaved hother).mpr hundisturbed
  | files f => exact FileStore.read_of_replace husual.1 (slashes_of_isUsual husual) hother hundisturbed records

section

variable (s : Store) (table other : String)

@[simp] theorem isUsual_load : (TableStore.load s table).2.IsUsual ↔ s.IsUsual := by
  cases s <;> exact Iff.rfl

@[simp] theorem undisturbed_load : (TableStore.load s table).2.Undisturbed other ↔ s.Undisturbed other := by
  cases s <;> exact Iff.rfl

@[simp] theorem sameTable_load (t : String) : (TableStore.load s table).2.SameTable t other ↔ s.SameTable t other := by
  cases s <;> exact Iff.rfl

/-- A load leaves all tables as they are. -/
@[simp] theorem contents_load : (TableStore.load s table).2.contents other = s.contents other := by
  cases s with
  | memory m =>
    change contents (.memory (m.load table).2) other = _
    unfold MemoryStore.load
    cases m.failingLoad <;> rfl
  | files f => rfl

end

variable {a : Insertion} {r : Record}

theorem load_load (hunarmed : s.Unarmed) (table other : String) :
    (TableStore.load (TableStore.load s table).2 other).1 = (TableStore.load s other).1 := by
  rw [load_of_unarmed (unarmed_load hunarmed table), load_of_unarmed hunarmed, contents_load]

/-- An insertion that is answered with its record has saved it behind the others. -/
theorem save_of_inserted (hinserted : (insert s a).1 = .inserted r) : s.Unarmed ∧ ∃ records,
    s.contents a.table = .ok records ∧ r.id = nextId records ∧
      TableStore.save (TableStore.load s a.table).2 a.table (records ++ [r]) = (.ok (), (insert s a).2) := by
  obtain ⟨records, r', hload, hrecord, hsave, hinsert⟩ := insert_eq_inserted (s := s) (a := a) (by rw [hinserted]; rfl)
  have hunarmed := unarmed_of_saved hload hsave
  obtain rfl : r' = r := Result.inserted.inj ((congrArg Prod.fst hinsert).symm.trans hinserted)
  refine ⟨hunarmed, records, ?_, Insertion.record_id hrecord, ?_⟩
  · rw [← load_of_unarmed hunarmed, hload]
  · rw [hinsert]
    exact Prod.ext hsave rfl

/-- No insertion, done or not, shows in another table where making the data directory shows nothing. -/
theorem load_of_insert_other (husual : s.IsUsual) (hunarmed : s.Unarmed) (hother : ¬ s.SameTable a.table other)
    (hundisturbed : s.Undisturbed other) : (TableStore.load (insert s a).2 other).1 = (TableStore.load s other).1 := by
  obtain hinsert | ⟨records, hinsert⟩ := insert_snd s a
  · rw [hinsert, load_load hunarmed]
  · rw [hinsert, load_of_save_other, load_load hunarmed]
    · simpa using husual
    · exact unarmed_load hunarmed a.table
    · simpa using hother
    · simpa using hundisturbed

/-- Memory takes any name, and files take those with a safe character. -/
def Accepts : Store → String → Prop
  | memory _, _ => True
  | files _, table => FileStore.safeName table ≠ ""

/-- Making the data directory, if there is one to make, tells nothing to those who load one of the tables. -/
def Steady (served : String → Prop) : Store → Prop
  | memory _ => True
  | files s => s.Steady served

/-- Tables that are called by one name each have a file each. -/
theorem sound_of_oneName (husual : s.IsUsual) {served : String → Prop} (haccepts : ∀ table, served table → s.Accepts table)
    (hone : ∀ table other, served table → served other → s.SameTable table other → table = other)
    (hsteady : s.Steady served) : s.Sound served := by
  cases s with
  | memory m => trivial
  | files f =>
    refine ⟨⟨FileStore.fileName, ?_, ?_, ?_, ?_⟩, slashes_of_isUsual husual, hsteady⟩
    · intro t ht
      exact FileStore.path_eq husual.1 (haccepts t ht)
    · intro t _
      exact FileStore.isPlain_fileName t
    · intro t u ht hu hfile
      exact hone t u ht hu (FileStore.safeName_eq_of_fileName hfile)
    · intro t u _ hu tag
      exact FileStore.temporaryName_ne_fileName _ tag (haccepts u hu)

end Store

/-- Only an insert whose save has been done answers with a record. -/
theorem Task.Fits.isSaved_of_told {holds : List Record → Prop} {cancelled : Prop} {t : Task} {r : Record}
    (h : t.Fits holds cancelled) (htold : t.outcome? = some (.answered (.inserted r))) : t.isSaved = true := by
  cases h with
  | @answered a r' outcome =>
    cases outcome with
    | ok u => rfl
    | error e =>
      obtain ⟨message, he⟩ := e.result_eq
      simp [Task.outcome?, Inserts.saved, he] at htold
  | _ => simp [Task.outcome?] at htold

/-- An insert answers with the record that it has stored. -/
theorem Task.Stored.eq_of_told {t : Task} {r r' : Record} (h : t.Stored r')
    (htold : t.outcome? = some (.answered (.inserted r))) : r' = r := by
  unfold Task.outcome? at htold
  obtain hphase | hphase | hphase | hphase := h.told
  · simp [hphase] at htold
  · simp [hphase] at htold
  · simp [hphase] at htold
  · simpa [hphase] using htold

namespace Inserts

variable {s : Store} {insertions : List Insertion} {events : List Event} {m : Inserts Store}

/-- Each insert in the ledger of a table has stored a record that the table holds. -/
theorem Ledger.holds {initial current : Except StoreFailure (List Record)} {savers : List Nat} {i : Nat}
    (h : m.Ledger initial current savers) (hi : i ∈ savers) :
    ∃ records r t, current = .ok records ∧ r ∈ records ∧ m.tasks[i]? = some t ∧ t.Stored r := by
  cases h with
  | unread => simp at hi
  | @grown records added _ hids hstored =>
    have hmember : ∃ r ∈ added, ∃ t, m.tasks[i]? = some t ∧ t.Stored r := by
      clear hids
      induction hstored with
      | nil => simp at hi
      | @cons j r savers added hfirst _ ih =>
        obtain rfl | hi := List.mem_cons.mp hi
        · exact ⟨r, List.mem_cons_self, hfirst⟩
        · obtain ⟨r', hr', hfound⟩ := ih hi
          exact ⟨r', List.mem_cons_of_mem r hr', hfound⟩
    obtain ⟨r, hr, t, ht, hstored⟩ := hmember
    exact ⟨_, r, t, rfl, List.mem_append_right records hr, ht, hstored⟩

/-- No table that could be read loses a record that it had, and none lacks a record that an insert was answered with. -/
structure LosesNothing (s : Store) (m : Inserts Store) : Prop where
  had (t : Task) (records : List Record) : t ∈ m.tasks → s.contents t.table = .ok records →
    ∃ more, m.store.contents t.table = .ok (records ++ more)
  told (t : Task) (r : Record) : t ∈ m.tasks → t.outcome? = some (.answered (.inserted r)) →
    ∃ records, m.store.contents t.table = .ok records ∧ r ∈ records

/-- The ledgers of the tables account for all that was there and all that was told. -/
theorem Serial.losesNothing {served : String → Prop}
    (h : Serial (Store.contract served) s insertions events m) (hserved : ∀ a ∈ insertions, served a.table) :
    m.LosesNothing s := by
  have hledger : ∀ (i : Nat) (t : Task), m.tasks[i]? = some t →
      m.Ledger (s.contents t.table) (m.store.contents t.table) (m.savers insertions events t.table) := by
    intro i t hi
    exact h.ledger t.table (hserved _ (List.mem_of_getElem? (h.given i t hi)))
  constructor
  · intro t records ht hhad
    obtain ⟨i, hi⟩ := List.mem_iff_getElem?.mp ht
    have hgrown := hledger i t hi
    rw [hhad] at hgrown
    obtain ⟨added, hnow, _⟩ := hgrown.of_ok
    exact ⟨added, hnow⟩
  · intro t r ht htold
    obtain ⟨i, hi⟩ := List.mem_iff_getElem?.mp ht
    have hsaved : m.isSaved i = true := isSaved_iff.mpr ⟨t, hi, (h.fits i t hi).isSaved_of_told htold⟩
    have hsaver := h.mem_savers_iff.mpr ⟨hsaved, t.insertion, h.given i t hi, rfl⟩
    obtain ⟨records, r', t', hnow, hr', hi', hstored⟩ := (hledger i t hi).holds hsaver
    obtain rfl := Option.some.inj (hi.symm.trans hi')
    obtain rfl := hstored.eq_of_told htold
    exact ⟨records, hnow, hr'⟩

end Inserts

namespace Store

variable {s : Store}

/-- The tables of a store by their names: what is saved under a name is loaded under all names of its table, and under
other names a load shows at most that the data directory has been made; and inserts at the same time lose nothing if
they call each table by one name. -/
structure Identifies (s : Store) : Prop where
  saved (table other : String) (records : List Record) (after : Store) :
    TableStore.save s table records = (.ok (), after) →
      (s.SameTable table other → after.contents other = .ok records) ∧
        (¬ s.SameTable table other →
          ((TableStore.load after other).1 = (TableStore.load s other).1 ↔ s.Undisturbed other))
  inserted (a : Insertion) (other : String) (r : Record) : (insert s a).1 = .inserted r →
    ∃ records, s.contents a.table = .ok records ∧ r.id = nextId records ∧
      (s.SameTable a.table other → (insert s a).2.contents other = .ok (records ++ [r])) ∧
        (¬ s.SameTable a.table other →
          ((TableStore.load (insert s a).2 other).1 = (TableStore.load s other).1 ↔ s.Undisturbed other))
  executed (a : Insertion) (other : String) : s.Unarmed → ¬ s.SameTable a.table other → s.Undisturbed other →
    (TableStore.load (insert s a).2 other).1 = (TableStore.load s other).1
  locked (insertions : List Insertion) (events : List Event) (m : Inserts Store) :
    (∀ a ∈ insertions, s.Accepts a.table) →
      (∀ a ∈ insertions, ∀ b ∈ insertions, s.SameTable a.table b.table → a.table = b.table) →
        s.Steady (fun table => ∃ a ∈ insertions, a.table = table) →
          (Inserts.start s insertions).run events = some m → (cancellations events).Nodup → m.LosesNothing s

/-- In memory a name stands for itself, and in files for its safe characters: names that are spelled the same without
the others have one table, and the rest have nothing to do with each other but for the data directory that a save
makes. Locks go by the name as it is given, so that they do not keep inserts under two names of one table from each
other. -/
theorem tables_identified (husual : s.IsUsual) : s.Identifies where
  saved table other records after hsaved :=
    ⟨contents_of_saved_same husual hsaved, load_of_saved_other husual hsaved⟩
  inserted a other r hinserted := by
    obtain ⟨hunarmed, records, hheld, hid, hsave⟩ := save_of_inserted hinserted
    have husual' : (TableStore.load s a.table).2.IsUsual := (isUsual_load s a.table).mpr husual
    refine ⟨records, hheld, hid, ?_, ?_⟩
    · intro hsame
      exact contents_of_saved_same husual' hsave ((sameTable_load s a.table other a.table).mpr hsame)
    · intro hother
      have hother' : ¬ (TableStore.load s a.table).2.SameTable a.table other := by simpa using hother
      have hsaved := load_of_saved_other husual' hsave hother'
      rwa [load_load hunarmed, undisturbed_load] at hsaved
  executed a other hunarmed hother hundisturbed := load_of_insert_other husual hunarmed hother hundisturbed
  locked insertions events m haccepts hone hsteady hrun honce := by
    have hserved : ∀ a ∈ insertions, ∃ b ∈ insertions, b.table = a.table := fun a ha => ⟨a, ha, rfl⟩
    have hsound : s.Sound fun table => ∃ a ∈ insertions, a.table = table := by
      apply sound_of_oneName husual _ _ hsteady
      · rintro table ⟨a, ha, rfl⟩
        exact haccepts a ha
      · rintro table other ⟨a, ha, rfl⟩ ⟨b, hb, rfl⟩
        exact hone a ha b hb
    exact (Inserts.run_serial (c := Store.contract _) hsound hserved hrun honce).losesNothing hserved

theorem sameTable_hyphen (files : FileStore) : (Store.files files).SameTable "a-b" "ab" := by
  have hhyphen : FileStore.safeName "a-b" = "ab" := by decide +kernel
  have hplain : FileStore.safeName "ab" = "ab" := by decide +kernel
  exact hhyphen.trans hplain.symm

theorem save_hyphen : ∃ after, TableStore.save (Store.files unmade) "a-b" [firstRow] = (.ok (), after) := by
  have hsaved : (TableStore.save (Store.files unmade) "a-b" [firstRow]).1 = .ok () := by decide +kernel
  rcases hs : TableStore.save (Store.files unmade) "a-b" [firstRow] with ⟨result, after⟩
  rw [hs] at hsaved
  exact ⟨after, by rw [← hsaved]⟩

/-- What is saved under the name with the hyphen is loaded under the one without. -/
theorem tables_identified_hyphen : (Store.files unmade).IsUsual ∧ ∃ after,
    TableStore.save (Store.files unmade) "a-b" [firstRow] = (.ok (), after) ∧ after.contents "ab" = .ok [firstRow] := by
  obtain ⟨after, hsaved⟩ := save_hyphen
  have hidentifies := tables_identified isUsual_unmade
  obtain ⟨hshown, _⟩ := hidentifies.saved "a-b" "ab" [firstRow] after hsaved
  exact ⟨isUsual_unmade, after, hsaved, hshown (sameTable_hyphen unmade)⟩

/-- Two names are no two tables: a save under the one shows under the other, and of two inserts, which are both answered
with a record, one is lost. -/
theorem names_joined : "a-b" ≠ "ab" ∧
    (∃ after, TableStore.save (Store.files unmade) "a-b" [firstRow] = (.ok (), after) ∧
      (TableStore.load after "ab").1 ≠ (TableStore.load (Store.files unmade) "ab").1) ∧
    ∃ m, (Inserts.start (Store.files unmade) Inserts.crossed).run Inserts.crossing = some m ∧
      ¬ m.LosesNothing (Store.files unmade) := by
  refine ⟨by decide, ?_, ?_⟩
  · obtain ⟨after, hsaved⟩ := save_hyphen
    have hshown := contents_of_saved_same isUsual_unmade hsaved (sameTable_hyphen unmade)
    have hunarmed : after.Unarmed := unarmed_of_save_eq (s := Store.files unmade) trivial hsaved
    have hafter : (TableStore.load after "ab").1 = .ok [firstRow] := (load_of_unarmed hunarmed "ab").trans hshown
    have hbefore : (TableStore.load (Store.files unmade) "ab").1 = .ok [] := by decide +kernel
    refine ⟨after, hsaved, ?_⟩
    rw [hafter, hbefore]
    simp
  · obtain ⟨m, hrun, htold, hnow⟩ := Inserts.run_crossing
    refine ⟨m, hrun, fun hkeeps => ?_⟩
    have hfirst := htold ▸ List.mem_cons_self
    obtain ⟨t, ht, hanswer⟩ := List.mem_map.mp hfirst
    obtain ⟨htable, htold⟩ := Prod.mk.inj hanswer
    obtain ⟨records, hheld, hrecord⟩ := hkeeps.told t _ ht htold
    rw [htable, hnow] at hheld
    obtain rfl := Except.ok.inj hheld
    have hnames : Text.ofString "x" ≠ Text.ofString "y" := by decide
    simp [hnames] at hrecord

end Store

end TableServer
