import TableServer.Proofs.Store.Saving
import TableServer.Store.Memory

namespace TableServer

namespace MemoryStore

theorem recordsOf_setTable_self (tables : List (String × List Record)) (table : String)
    (records : List Record) : recordsOf (setTable table records tables) table = records := by
  induction tables with
  | nil => simp [setTable, recordsOf]
  | cons t tables ih =>
    rw [setTable]
    split
    · next h => simp [recordsOf, h]
    · next h => simpa [recordsOf, h] using ih

theorem recordsOf_setTable_other (tables : List (String × List Record)) {table other : String}
    (records : List Record) (h : other ≠ table) :
    recordsOf (setTable table records tables) other = recordsOf tables other := by
  induction tables with
  | nil => simp [setTable, recordsOf, Ne.symm h]
  | cons t tables ih =>
    rw [setTable]
    split
    · next ht => simp [recordsOf, ht, Ne.symm h]
    · by_cases ho : t.1 = other
      · simp [recordsOf, ho]
      · simpa [recordsOf, ho] using ih

end MemoryStore

namespace FileStore

variable {s : FileStore} {served : String → Prop} {table other name : String} {records : List Record}

/-- The store with another volume. -/
def on (s : FileStore) (v : Volume) : FileStore := { s with volume := v }

/-- Making the data directory changes nothing that a load of a served table tells. -/
def Steady (served : String → Prop) (s : FileStore) : Prop :=
  ∀ result v, s.volume.makeDirectories s.directory = (result, v) →
    v = s.volume ∨ result = .ok () ∧ ∀ table, served table → (s.on v).read table = s.read table

/-- What saves and loads rely on, and keep. -/
structure Sound (served : String → Prop) (s : FileStore) : Prop where
  own : ∃ file, s.OwnFiles served file
  slashes : s.directory.slashes ≤ 2
  steady : s.Steady served

theorem steady_of_isDirectory (served : String → Prop) (h : s.volume.isDirectory s.directory = true) :
    s.Steady served := by
  intro result v hmade
  rw [Volume.makeDirectories_of_isDirectory h] at hmade
  exact .inl (Prod.mk.inj hmade).2.symm

theorem read_eq (hpath : s.path table = .ok (s.directory.child name)) (hname : IsPlain name) :
    s.read table = if s.directory.hasNul then .error (.unexpected .nulInPath)
      else FileStore.records table (s.directory.child name) (s.volume.read (s.directory.child name)) := by
  unfold read
  rw [hpath]
  simp only [bind, Except.bind, hasNul_child s.directory hname]

theorem read_on_eq (hpath : s.path table = .ok (s.directory.child name)) (hname : IsPlain name) (v : Volume) :
    (s.on v).read table = if s.directory.hasNul then .error (.unexpected .nulInPath)
      else FileStore.records table (s.directory.child name) (v.read (s.directory.child name)) :=
  @read_eq (s.on v) _ _ hpath hname

/-- What a load tells depends on what stands under the name of the file. -/
theorem read_on {v w : Volume} {place : Place} (hpath : s.path table = .ok (s.directory.child name))
    (hname : IsPlain name) (hv : v.Leads s.directory place) (hw : w.Leads s.directory place)
    (hnode : w.node? (place ++ [name]) = v.node? (place ++ [name])) :
    (s.on w).read table = (s.on v).read table := by
  rw [read_on_eq hpath hname, read_on_eq hpath hname, hv.read_child hw hname.ne_dots hnode]

theorem read_on_file {w : Volume} {place : Place} {content : Bytes}
    (hpath : s.path table = .ok (s.directory.child name)) (hname : IsPlain name)
    (hnul : s.directory.hasNul = false) (hw : w.Leads s.directory place)
    (hfits : Volume.FitsIn s.directory name) (hnode : w.node? (place ++ [name]) = some (.file content))
    (hencode : TableFile.encode records = .ok content) : (s.on w).read table = .ok records := by
  rw [read_on_eq hpath hname, hnul, hw.read_child_file hname.ne_dots hfits hnode]
  simp [FileStore.records, TableFile.decode_encode hencode]

theorem Steady.read_made (h : s.Steady served) {v : Volume}
    (hmade : s.volume.makeDirectories s.directory = (.ok (), v)) (hserved : served table) :
    (s.on v).read table = s.read table := by
  obtain rfl | ⟨_, hread⟩ := h _ v hmade
  · rfl
  · exact hread table hserved

/-- What a save leaves, as loads tell it: it changes what is loaded from its own table alone, and that only if it is
done. -/
structure Kept (served : String → Prop) (s : FileStore) (table : String) (records : List Record)
    (result : Except StoreFailure Unit) (after : FileStore) : Prop where
  sound : after.Sound served
  stored : result = .ok () → after.read table = .ok records
  others : ∀ other, served other → (result = .ok () → other ≠ table) → after.read other = s.read other

/-- A save that is done leaves its records under the name, in a directory that stands. -/
theorem Saving.of_ok {file : String → String} {w : Volume} (hown : s.OwnFiles served file)
    (hslashes : s.directory.slashes ≤ 2) (htable : served table)
    (h : Saving s (file table) records (.ok ()) w) :
    (s.on w).Sound served ∧ (s.on w).read table = .ok records := by
  cases h with
  | done hmade hleads hfits hgoal hencode hnul hself hsame =>
    have hleads' := hleads.of_sameBut hsame hgoal
    refine ⟨⟨⟨file, hown.path, hown.plain, hown.inj, hown.apart⟩, hslashes, ?_⟩, ?_⟩
    · exact steady_of_isDirectory served ((Volume.isDirectory_iff _).mpr ⟨_, hleads'⟩)
    · exact read_on_file (hown.path htable) (hown.plain htable) hnul hleads' hfits hself hencode

/-- A save keeps all other tables, however it ends. Where it is refused on the way there are directories at most, and
they tell nothing in a steady store. -/
theorem replace_kept (h : s.Sound served) (htable : served table) (records : List Record) :
    Kept served s table records (s.replace table records).1 (s.replace table records).2 := by
  obtain ⟨file, hown⟩ := h.own
  obtain ⟨result, w, hreplace, hsaving⟩ := replace_saving h.slashes (hown.path htable) (hown.plain htable) records
  rw [hreplace]
  change Kept served s table records result (s.on w)
  cases hsaving with
  | refused => exact ⟨h, fun hok => by contradiction, fun _ _ _ => rfl⟩
  | unmade hmade =>
    obtain rfl | ⟨hok, _⟩ := h.steady _ _ hmade
    · exact ⟨h, fun hok => by contradiction, fun _ _ _ => rfl⟩
    · contradiction
  | @failed _ v w place tag hmade hleads hkept _ _ =>
    have hleads' := hleads.of_keepsDirectories (Volume.keepsDirectories_of_new hkept)
    have hstands := (Volume.isDirectory_iff _).mpr ⟨place, hleads'⟩
    refine ⟨⟨⟨file, hown.path, hown.plain, hown.inj, hown.apart⟩, h.slashes,
      steady_of_isDirectory served hstands⟩, fun hok => by contradiction, fun other hother _ => ?_⟩
    rw [← h.steady.read_made hmade hother]
    refine read_on (hown.path hother) (hown.plain hother) hleads hleads' ?_
    obtain hsame | ⟨_, heq⟩ := hkept (place ++ [file other])
    · exact hsame
    · exact absurd heq (Volume.concat_ne (hown.apart htable hother tag).symm)
  | done hmade hleads hfits hgoal hencode hnul hself hsame =>
    have hleads' := hleads.of_sameBut hsame hgoal
    obtain ⟨hsound, hread⟩ := Saving.of_ok hown h.slashes htable
      (.done hmade hleads hfits hgoal hencode hnul hself hsame)
    refine ⟨hsound, fun _ => hread, fun other hother hne => ?_⟩
    rw [← h.steady.read_made hmade hother]
    refine read_on (hown.path hother) (hown.plain hother) hleads hleads' (hsame _ ?_)
    exact Volume.concat_ne fun heq => hne rfl (hown.inj hother htable heq)

end FileStore

end TableServer
