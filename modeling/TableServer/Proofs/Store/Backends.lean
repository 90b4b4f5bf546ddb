import TableServer.Proofs.Store.Contract
import TableServer.Proofs.Store.Keeping
import TableServer.Store.Choice

namespace TableServer

namespace Store

variable {served : String → Prop} {s : Store} {table : String} {records : List Record}

/-- What the tables hold, whether or not a next load is made to fail. -/
def contents : Store → String → Except StoreFailure (List Record)
  | memory s, table => .ok (MemoryStore.recordsOf s.tables table)
  | files s, table => s.read table

/-- Memory serves any tables, and files serve those with a file of their own. -/
def Sound (served : String → Prop) : Store → Prop
  | memory _ => True
  | files s => s.Sound served

/-- The store that settings choose keeps to the contract, be it in memory or in files. -/
def contract (served : String → Prop) : Contract Store served where
  Sound := Sound served
  contents := contents
  load_sound {s table} hs _ := by
    cases s with
    | memory s => trivial
    | files s => exact hs
  load_keeps {s table other} _ _ _ := by
    cases s with
    | memory s =>
      change contents (.memory (s.load table).2) other = _
      unfold MemoryStore.load
      cases s.failingLoad <;> rfl
    | files s => rfl
  loaded {s table records} _ _ hload := by
    cases s with
    | memory s =>
      change (s.load table).1 = _ at hload
      unfold MemoryStore.load at hload
      cases hf : s.failingLoad with
      | none =>
        rw [hf] at hload
        exact hload
      | some message => simp [hf] at hload
    | files s => exact hload
  save_sound {s table records} hs hserved := by
    cases s with
    | memory s => trivial
    | files s => exact (FileStore.replace_kept hs hserved records).sound
  saved {s table records} hs hserved hsave := by
    cases s with
    | memory s =>
      change (s.save table records).1 = _ at hsave
      change contents (.memory (s.save table records).2) table = _
      unfold MemoryStore.save at hsave ⊢
      cases hf : s.failingSave with
      | none => exact congrArg Except.ok (MemoryStore.recordsOf_setTable_self s.tables table records)
      | some message => simp [hf] at hsave
    | files s => exact (FileStore.replace_kept hs hserved records).stored hsave
  save_keeps {s table other records} hs hserved hother hne := by
    cases s with
    | memory s =>
      change ((s.save table records).1 = _ → _) at hne
      change contents (.memory (s.save table records).2) other = _
      unfold MemoryStore.save at hne ⊢
      cases hf : s.failingSave with
      | none =>
        simp only [hf, forall_const] at hne
        exact congrArg Except.ok (MemoryStore.recordsOf_setTable_other s.tables records hne)
      | some message => rfl
    | files s => exact (FileStore.replace_kept hs hserved records).others other hother hne

/-- No next load or save is made to fail. -/
def Unarmed : Store → Prop
  | memory s => s.failingLoad = none ∧ s.failingSave = none
  | files _ => True

/-- A load tells what the table holds. -/
theorem load_of_unarmed (h : s.Unarmed) (table : String) : (TableStore.load s table).1 = s.contents table := by
  cases s with
  | memory s =>
    change (s.load table).1 = _
    rw [MemoryStore.load, h.1]
    rfl
  | files s => rfl

theorem unarmed_load (h : s.Unarmed) (table : String) : (TableStore.load s table).2.Unarmed := by
  cases s with
  | memory s =>
    change Unarmed (.memory (s.load table).2)
    rw [MemoryStore.load, h.1]
    exact ⟨rfl, h.2⟩
  | files s => trivial

/-- What is made to fail is made so from outside: no load and no save of its own does it. -/
theorem unarmed_save (h : s.Unarmed) (table : String) (records : List Record) :
    (TableStore.save s table records).2.Unarmed := by
  cases s with
  | memory s =>
    change Unarmed (.memory (s.save table records).2)
    rw [MemoryStore.save, h.2]
    exact ⟨h.1, rfl⟩
  | files s => trivial

/-- Where a load and a save have been done, nothing was made to fail. -/
theorem unarmed_of_saved {loaded : List Record} (hload : (TableStore.load s table).1 = .ok loaded)
    (hsave : (TableStore.save (TableStore.load s table).2 table records).1 = .ok ()) : s.Unarmed := by
  cases s with
  | memory s =>
    change (s.load table).1 = _ at hload
    change ((s.load table).2.save table records).1 = _ at hsave
    unfold MemoryStore.load at hload hsave
    cases hf : s.failingLoad with
    | some message => simp [hf] at hload
    | none =>
      rw [hf] at hsave
      refine ⟨hf, ?_⟩
      unfold MemoryStore.save at hsave
      cases hg : s.failingSave with
      | some message => simp [hg] at hsave
      | none => rfl
  | files s => trivial

/-- The contract of stores that nothing is made to fail in. -/
def unarmedContract (served : String → Prop) : Contract Store served where
  Sound s := s.Sound served ∧ s.Unarmed
  contents := contents
  load_sound hs hserved := ⟨(contract served).load_sound hs.1 hserved, unarmed_load hs.2 _⟩
  load_keeps hs := (contract served).load_keeps hs.1
  loaded hs := (contract served).loaded hs.1
  save_sound hs hserved := ⟨(contract served).save_sound hs.1 hserved, unarmed_save hs.2 _ _⟩
  saved hs := (contract served).saved hs.1
  save_keeps hs := (contract served).save_keeps hs.1

theorem slashes_ofString_le (text : String) : (Path.ofString text).slashes ≤ 2 := by
  unfold Path.ofString Path.ofChars
  dsimp only
  split
  · exact Nat.le_refl 2
  · exact Nat.le_trans (Nat.min_le_right _ 1) (by decide)

/-- Memory, or files with the usual pattern in a directory that a path was read for. -/
def IsUsual : Store → Prop
  | memory _ => True
  | files s => s.pattern = FileStore.usualPattern ∧ ∃ directory, s.directory = .ofString directory

/-- Files in a data directory that is not there yet and can be made. -/
def unmade : FileStore := ⟨.ofString "data", FileStore.usualPattern, true, .empty⟩

theorem isUsual_unmade : (Store.files unmade).IsUsual := ⟨rfl, "data", rfl⟩

/-- Tables that statements can name. -/
def IsNamed (table : String) : Prop := Grammar.IsWord table.toList

/-- A save that is done leaves a sound store, also where the directory was not there before. -/
theorem sound_of_saved (husual : s.IsUsual) (htable : IsNamed table) {loaded : List Record}
    (hload : (TableStore.load s table).1 = .ok loaded)
    (hsave : (TableStore.save (TableStore.load s table).2 table records).1 = .ok ()) :
    (unarmedContract IsNamed).Sound (TableStore.save (TableStore.load s table).2 table records).2 ∧
      (TableStore.save (TableStore.load s table).2 table records).2.contents table = .ok records := by
  have hunarmed := unarmed_of_saved hload hsave
  cases s with
  | memory s =>
    have hsound : (contract IsNamed).Sound (TableStore.load (memory s) table).2 := trivial
    exact ⟨⟨trivial, unarmed_save (unarmed_load hunarmed table) table records⟩,
      (contract IsNamed).saved hsound htable hsave⟩
  | files s =>
    obtain ⟨hpattern, directory, hdirectory⟩ := husual
    have hown : s.OwnFiles IsNamed FileStore.fileName := FileStore.ownFiles_usual hpattern fun _ h => h
    have hslashes : s.directory.slashes ≤ 2 := hdirectory ▸ slashes_ofString_le directory
    obtain ⟨result, w, hreplace, hsaving⟩ :=
      FileStore.replace_saving hslashes (hown.path htable) (hown.plain htable) records
    change (s.replace table records).1 = _ at hsave
    change ((FileStore.Sound IsNamed (s.replace table records).2 ∧ True) ∧
      (s.replace table records).2.read table = _)
    rw [hreplace] at hsave ⊢
    obtain rfl : result = .ok () := hsave
    obtain ⟨hsound, hread⟩ := FileStore.Saving.of_ok hown hslashes htable hsaving
    exact ⟨⟨hsound, trivial⟩, hread⟩

end Store

end TableServer
