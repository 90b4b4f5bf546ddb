import TableServer.Proofs.Store.Keeping
import TableServer.Proofs.Store.Temporaries

namespace TableServer

theorem Path.child_inj {p : Path} {name other : String} (h : p.child name = p.child other) : name = other :=
  (List.cons.inj (List.append_cancel_left (congrArg Path.names h))).1

namespace Volume

variable {v : Volume} {p : Path}

/-- Nothing can be looked up in a directory that does not stand. -/
theorem status_child_of_not_isDirectory (hsize : p.toString.utf8ByteSize ≤ pathLimit)
    (h : v.isDirectory p = false) (name : String) : ∃ e, v.status (p.child name) = .error e := by
  cases hstatus : v.status (p.child name) with
  | error e => exact ⟨e, rfl⟩
  | ok node =>
    obtain ⟨q, hq, _⟩ := bind_ok.mp hstatus
    obtain ⟨place, hwalk, hstands, _⟩ := walk_child_eq_ok_iff.mp (resolve_eq_ok hq).2
    have hplace : v.resolve p = .ok place := by rw [resolve, if_neg (Nat.not_lt.mpr hsize), hwalk]
    rw [(isDirectory_iff p).mpr ⟨place, hplace, hstands⟩] at h
    contradiction

end Volume

namespace FileStore

variable {s : FileStore} {served : String → Prop} {file : String → String} {table name : String}
  {records : List Record} {v : Volume} {place : Place}

/-- The data directory stands, or it can be made and is empty then; `v` has it at `place`. -/
structure Opens (s : FileStore) (v : Volume) (place : Place) : Prop where
  made : s.volume.makeDirectories s.directory = (.ok (), v)
  leads : v.Leads s.directory place
  empty : v = s.volume ∨ ∀ name, v.node? (place ++ [name]) = none

theorem opens_of_leads (h : s.volume.Leads s.directory place) : s.Opens s.volume place :=
  ⟨Volume.makeDirectories_of_isDirectory ((Volume.isDirectory_iff _).mpr ⟨place, h⟩), h, .inl rfl⟩

/-- A directory that is made did not stand, and is empty. -/
theorem Opens.cases (h : s.Opens v place) :
    v = s.volume ∨ s.volume.isDirectory s.directory = false ∧ ∀ name, v.node? (place ++ [name]) = none := by
  rcases h.empty with hsame | hempty
  · exact .inl hsame
  · cases hstands : s.volume.isDirectory s.directory with
    | true =>
      have hmade := h.made
      rw [Volume.makeDirectories_of_isDirectory hstands] at hmade
      exact .inl (Prod.mk.inj hmade).2.symm
    | false => exact .inr ⟨rfl, hempty⟩

theorem Opens.status_child (h : s.Opens v place) (hstands : s.volume.isDirectory s.directory = false)
    (name : String) : ∃ e, s.volume.status (s.directory.child name) = .error e :=
  Volume.status_child_of_not_isDirectory (Volume.resolve_eq_ok h.leads.resolves).1 hstands name

/-- Making the directory changes nothing that a load tells. -/
theorem Opens.read_on (h : s.Opens v place) (hpath : s.path table = .ok (s.directory.child name))
    (hname : IsPlain name) (hfits : Volume.FitsIn s.directory name) (hread : s.read table = .ok records) :
    (s.on v).read table = .ok records := by
  rcases h.cases with rfl | ⟨hstands, hempty⟩
  · exact hread
  · obtain ⟨e, he⟩ := h.status_child hstands name
    have hbefore : s.volume.read (s.directory.child name) = .error e := by
      rw [Volume.read, he]
      rfl
    have hafter : v.read (s.directory.child name) = .error .notFound := by
      rw [Volume.read, h.leads.status_child hname.ne_dots, if_pos hfits, hempty name]
      rfl
    rw [FileStore.read_eq hpath hname, hbefore] at hread
    rw [read_on_eq hpath hname, hafter]
    split at hread
    · contradiction
    · next hnul =>
      rw [if_neg hnul]
      cases e with
      | notFound => exact hread
      | _ => contradiction

/-- A name that a table is read from is no directory. -/
theorem no_directory_of_read (hleads : v.Leads s.directory place)
    (hpath : s.path table = .ok (s.directory.child name)) (hname : IsPlain name)
    (hfits : Volume.FitsIn s.directory name) (hread : (s.on v).read table = .ok records) :
    v.node? (place ++ [name]) ≠ some .directory := by
  intro hnode
  have hvolume : v.read (s.directory.child name) = .error .isDirectory := by
    rw [Volume.read, hleads.status_child hname.ne_dots, if_pos hfits, hnode]
    rfl
  rw [read_on_eq hpath hname, hvolume] at hread
  split at hread <;> contradiction

/-- The temporary name that a save chooses is free when it makes the file. -/
theorem Opens.temporary (h : s.Opens v place) (hfits : Volume.FitsIn s.directory (temporaryName name (tag 0)))
    (hfree : ∃ n < tagLimit, v.node? (place ++ [temporaryName name (tag n)]) = none) :
    ∃ n < tagLimit, (s.plan (s.directory.child name)).temporary = s.directory.child (temporaryName name (tag n)) ∧
      v.node? (place ++ [temporaryName name (tag n)]) = none := by
  rcases h.cases with rfl | ⟨hstands, hempty⟩
  · exact freeTemporary_eq h.leads hfits hfree
  · refine ⟨0, by decide, ?_, hempty _⟩
    obtain ⟨e, he⟩ := h.status_child hstands (temporaryName name (tag 0))
    exact freeTemporary_zero he

/-- Nothing stands in the way of saves to the tables that are served: the directory stands or is made by the first
save, no name is too long, and for each table a temporary name of eight digits is free. Then a save fails only where
the records cannot be written. -/
structure Ready (served : String → Prop) (file : String → String) (s : FileStore) : Prop where
  no_nul : s.directory.hasNul = false
  fits : ∀ table, served table → Volume.FitsIn s.directory (temporaryName (file table) (tag 0))
  opens : ∃ v place, s.Opens v place ∧ ∀ table, served table →
    ∃ n < tagLimit, v.node? (place ++ [temporaryName (file table) (tag n)]) = none

theorem Ready.sound (h : s.Ready served file) (hown : s.OwnFiles served file) (hslashes : s.directory.slashes ≤ 2)
    (hread : ∀ table, served table → ∃ records, s.read table = .ok records) : s.Sound served := by
  obtain ⟨v, place, hopens, _⟩ := h.opens
  refine ⟨⟨file, hown⟩, hslashes, ?_⟩
  intro result w hmade
  obtain ⟨rfl, rfl⟩ := Prod.mk.inj (hopens.made.symm.trans hmade)
  refine .inr ⟨rfl, fun table htable => ?_⟩
  obtain ⟨records, hrecords⟩ := hread table htable
  rw [hrecords]
  exact hopens.read_on (hown.path htable) (hown.plain htable) (fitsIn_of_temporaryName (h.fits table htable)) hrecords

/-- Nothing is in the way of the plan of a save. -/
theorem Ready.clear (h : s.Ready served file) (hown : s.OwnFiles served file) (htable : served table)
    (hread : s.read table = .ok records) {t : String}
    (hmade : s.volume.makeDirectories s.directory = (.ok (), v)) (hleads : v.Leads s.directory place)
    (htag : (s.plan (s.directory.child (file table))).temporary =
      s.directory.child (temporaryName (file table) t)) :
    v.Clear s.directory place (file table) (temporaryName (file table) t) := by
  obtain ⟨w, goal, hopens, hfree⟩ := h.opens
  obtain rfl := (Prod.mk.inj (hmade.symm.trans hopens.made)).2
  obtain rfl := Except.ok.inj (hleads.resolves.symm.trans hopens.leads.resolves)
  have hfits := fitsIn_of_temporaryName (h.fits table htable)
  obtain ⟨n, hn, hplanned, hnone⟩ := hopens.temporary (h.fits table htable) (hfree table htable)
  obtain rfl : t = tag n := temporaryName_inj (Path.child_inj (htag.symm.trans hplanned))
  have hafter := hopens.read_on (hown.path htable) (hown.plain htable) hfits hread
  exact ⟨fitsIn_temporaryName (h.fits table htable) hn, hnone, hfits,
    no_directory_of_read hleads (hown.path htable) (hown.plain htable) hfits hafter⟩

/-- A save that is done leaves a store that nothing stands in the way of. -/
theorem Ready.of_sameBut (h : s.Ready served file) (hown : s.OwnFiles served file) (htable : served table)
    {w : Volume} (hmade : s.volume.makeDirectories s.directory = (.ok (), v)) (hleads : v.Leads s.directory place)
    (hgoal : v.node? (place ++ [file table]) ≠ some .directory)
    (hsame : Volume.SameBut (place ++ [file table]) v w) : (s.on w).Ready served file := by
  obtain ⟨u, goal, hopens, hfree⟩ := h.opens
  obtain rfl := (Prod.mk.inj (hmade.symm.trans hopens.made)).2
  obtain rfl := Except.ok.inj (hleads.resolves.symm.trans hopens.leads.resolves)
  refine ⟨h.no_nul, h.fits, w, place, ?_, fun other hother => ?_⟩
  · exact @opens_of_leads (s.on w) _ (hleads.of_sameBut hsame hgoal)
  · obtain ⟨n, hn, hnone⟩ := hfree other hother
    refine ⟨n, hn, ?_⟩
    rw [hsame _ (Volume.concat_ne (hown.apart hother htable (tag n))), hnone]

/-- A save succeeds, and is no hindrance to others, or the records cannot be written. -/
theorem Ready.replace (h : s.Ready served file) (hown : s.OwnFiles served file) (hslashes : s.directory.slashes ≤ 2)
    (htable : served table) {old : List Record} (hread : s.read table = .ok old) (records : List Record) :
    (∃ content, TableFile.encode records = .ok content) ∧
        (∃ w, s.replace table records = (.ok (), s.on w) ∧ (s.on w).Ready served file) ∨
      (∀ content, TableFile.encode records ≠ .ok content) ∧
        ∃ cause, (s.replace table records).1 = .error (.unexpected cause) := by
  obtain ⟨result, w, hreplace, hsaving⟩ := replace_saving hslashes (hown.path htable) (hown.plain htable) records
  rw [hreplace]
  cases hsaving with
  | refused hwhy =>
    rcases hwhy with hnul | hunwritten
    · rw [h.no_nul] at hnul
      contradiction
    · exact .inr ⟨hunwritten, _, rfl⟩
  | unmade hmade =>
    obtain ⟨_, _, hopens, _⟩ := h.opens
    rw [hopens.made] at hmade
    have := (Prod.mk.inj hmade).1
    contradiction
  | failed tag hmade hleads hkept htag hwhy =>
    rcases hwhy with hblocked | ⟨hunwritten, cause, rfl⟩
    · exact absurd (h.clear hown htable hread hmade hleads htag) hblocked
    · exact .inr ⟨hunwritten, cause, rfl⟩
  | done hmade hleads hfits hgoal hencode hnul hself hsame =>
    exact .inl ⟨⟨_, hencode⟩, w, rfl, h.of_sameBut hown htable hmade hleads hgoal hsame⟩

end FileStore

end TableServer
