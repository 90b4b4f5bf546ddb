import TableServer.Proofs.Store.Directories
import TableServer.Proofs.Store.Temporaries

namespace TableServer

/-- A name behind a path takes nothing from its length, but for the dot of a path without names. -/
theorem Path.utf8ByteSize_le_child (p : Path) (name : String) :
    p.toString.utf8ByteSize ≤ max 1 (p.child name).toString.utf8ByteSize := by
  obtain ⟨slashes, names⟩ := p
  rw [Volume.utf8ByteSize_child]
  cases names with
  | nil =>
    by_cases hroot : slashes = 0
    · subst hroot
      exact Nat.le_trans (by decide : (Path.toString ⟨0, []⟩).utf8ByteSize ≤ 1) (Nat.le_max_left _ _)
    · apply Nat.le_trans _ (Nat.le_max_right _ _)
      apply Nat.le_trans _ (Nat.le_add_right _ _)
      simp [Path.toString, Path.child, hroot]
  | cons first names =>
    apply Nat.le_trans _ (Nat.le_max_right _ _)
    apply Nat.le_trans _ (Nat.le_add_right _ _)
    simp only [Path.toString, Path.child, List.cons_ne_nil, and_false, ↓reduceIte, List.cons_append,
      String.utf8ByteSize_append]
    rw [← List.cons_append, String.intercalate_append_of_ne_nil (by simp) (by simp)]
    simp only [String.utf8ByteSize_append]
    omega

namespace Volume

variable {v w : Volume} {p : Path} {slashes : Nat} {name : String} {above names : List String}

/-- A name can be looked up in a directory only. -/
theorem leads_of_resolve_child {q : Place} (h : v.resolve (p.child name) = .ok q) : ∃ place, v.Leads p place := by
  obtain ⟨hlimit, hwalk⟩ := resolve_eq_ok h
  obtain ⟨place, hplace, hstands, _⟩ := walk_child_eq_ok_iff.mp hwalk
  have hsize : p.toString.utf8ByteSize ≤ pathLimit :=
    Nat.le_trans (p.utf8ByteSize_le_child name) (Nat.max_le.mpr ⟨by decide, hlimit⟩)
  exact ⟨place, by rw [resolve, if_neg (Nat.not_lt.mpr hsize), hplace], hstands⟩

/-- A directory that is made, or stands, has one above it. -/
theorem leads_above (h : w.isDirectory ⟨slashes, (name :: above).reverse⟩ = true ∨
    ∃ x, w.makeDirectory ⟨slashes, (name :: above).reverse⟩ = .ok x) : ∃ place, w.Leads ⟨slashes, above.reverse⟩ place := by
  have hchild : (⟨slashes, (name :: above).reverse⟩ : Path) = Path.child ⟨slashes, above.reverse⟩ name := by
    rw [Path.child, List.reverse_cons]
  rw [hchild] at h
  have hresolve : ∃ q, w.resolve (Path.child ⟨slashes, above.reverse⟩ name) = .ok q := by
    rcases h with hstands | ⟨x, hmade⟩
    · obtain ⟨q, hleads⟩ := (isDirectory_iff _).mp hstands
      exact ⟨q, hleads.resolves⟩
    · obtain ⟨q, hq, _⟩ := makeDirectory_eq_ok_iff.mp hmade
      exact ⟨q, hq⟩
  obtain ⟨q, hq⟩ := hresolve
  exact leads_of_resolve_child hq

theorem makeDirectories_of_leads {place : Place} (h : v.Leads p place) : v.makeDirectories p = (.ok (), v) :=
  makeDirectories_of_isDirectory ((isDirectory_iff p).mpr ⟨place, h⟩)

theorem makeDirectoriesFrom_of_leads {place : Place} (h : v.Leads ⟨slashes, above.reverse⟩ place) :
    makeDirectoriesFrom slashes above v = (.ok (), v) := by
  have hmade := makeDirectories_of_leads h
  rw [makeDirectories, List.reverse_reverse] at hmade
  exact hmade

/-- Where the last directory is hindered and those above gain nothing, nothing is made. -/
theorem makeDirectoriesFrom_hindered (hstands : w.isDirectory ⟨slashes, (name :: above).reverse⟩ = false)
    (hmake : ∀ x, w.makeDirectory ⟨slashes, (name :: above).reverse⟩ ≠ .ok x)
    (habove : (makeDirectoriesFrom slashes above w).2 = w) :
    ∃ refusal, makeDirectoriesFrom slashes (name :: above) w = (.error refusal, w) := by
  rw [makeDirectoriesFrom]
  dsimp only
  cases hlast : w.makeDirectory ⟨slashes, (name :: above).reverse⟩ with
  | ok x => exact absurd hlast (hmake x)
  | error e =>
    split
    · rcases hmore : makeDirectoriesFrom slashes above w with ⟨refusal | _, x⟩
      all_goals
        rw [hmore] at habove
        obtain rfl : x = w := habove
        dsimp only
      · exact ⟨_, rfl⟩
      · rw [hlast]
        dsimp only
        rw [hstands]
        exact ⟨_, rfl⟩
    · dsimp only
      rw [hstands]
      exact ⟨_, rfl⟩

/-- Directories that could not be made cannot be made in what has come of the attempt either. -/
theorem makeDirectoriesFrom_again {refusal : Path × FileError}
    (h : makeDirectoriesFrom slashes names v = (.error refusal, w)) :
    ∃ refusal, makeDirectoriesFrom slashes names w = (.error refusal, w) := by
  induction names generalizing w refusal with
  | nil => cases (Prod.mk.inj h).1
  | cons name above ih =>
    have hfirst := h
    rw [makeDirectoriesFrom] at h
    dsimp only at h
    split at h
    · rcases hmore : makeDirectoriesFrom slashes above v with ⟨refusal' | _, u⟩
      · -- Those above could not be made, so that they do not stand.
        rw [hmore] at h
        obtain rfl := (Prod.mk.inj h).2
        obtain ⟨_, hagain⟩ := ih hmore
        have hnot : ¬ ∃ place, u.Leads ⟨slashes, above.reverse⟩ place := by
          intro habove
          obtain ⟨place, hleads⟩ := habove
          rw [makeDirectoriesFrom_of_leads hleads] at hagain
          cases (Prod.mk.inj hagain).1
        apply makeDirectoriesFrom_hindered
        · exact Bool.eq_false_iff.mpr fun hstands => hnot (leads_above (.inl hstands))
        · exact fun x hmade => hnot (leads_above (.inr ⟨x, hmade⟩))
        · rw [hagain]
      · rw [hmore] at h
        dsimp only at h
        split at h
        · cases (Prod.mk.inj h).1
        · next e hlast =>
          split at h
          · cases (Prod.mk.inj h).1
          · next hstands =>
            obtain rfl := (Prod.mk.inj h).2
            apply makeDirectoriesFrom_hindered
            · exact Bool.eq_false_iff.mpr hstands
            · intro x hmade
              rw [hlast] at hmade
              contradiction
            · cases above with
              | nil => rfl
              | cons next rest =>
                obtain ⟨place, hleads⟩ := (isDirectory_iff _).mp (isDirectory_of_makeDirectoriesFrom hmore)
                rw [makeDirectoriesFrom_of_leads hleads]
    · split at h
      · cases (Prod.mk.inj h).1
      · split at h
        · cases (Prod.mk.inj h).1
        · obtain rfl := (Prod.mk.inj h).2
          exact ⟨_, hfirst⟩

/-- A second attempt comes to the same end as the first, with nothing more. -/
theorem makeDirectories_again {refusal : Path × FileError} (h : v.makeDirectories p = (.error refusal, w)) :
    ∃ refusal, w.makeDirectories p = (.error refusal, w) := makeDirectoriesFrom_again h

/-- A directory is made, or one above is wanting, only where nothing is found. -/
theorem walk_of_makeDirectory (h : (∃ x, v.makeDirectory p = .ok x) ∨ v.makeDirectory p = .error .notFound) :
    v.walk [] p.names = .error .notFound ∨ ∃ place, v.walk [] p.names = .ok place ∧ v.node? place = none := by
  unfold makeDirectory resolve at h
  by_cases hlong : pathLimit < p.toString.utf8ByteSize
  · simp [hlong, bind, Except.bind] at h
  · rw [if_neg hlong] at h
    cases hwalk : v.walk [] p.names with
    | error e =>
      left
      simpa [hwalk, bind, Except.bind] using h
    | ok place =>
      refine .inr ⟨place, rfl, ?_⟩
      cases hnode : v.node? place with
      | none => rfl
      | some node => simp [hwalk, hnode, bind, Except.bind] at h

/-- Where making a directory makes anything, nothing was found in it before. -/
theorem walk_child_of_made (h : (v.makeDirectories p).2 ≠ v) (name : String) :
    v.walk [] (p.child name).names = .error .notFound := by
  have hnothing : v.walk [] p.names = .error .notFound ∨
      ∃ place, v.walk [] p.names = .ok place ∧ v.node? place = none := by
    apply walk_of_makeDirectory
    unfold makeDirectories at h
    cases hnames : p.names.reverse with
    | nil =>
      rw [hnames] at h
      exact absurd rfl h
    | cons last above =>
      have hp : (⟨p.slashes, (last :: above).reverse⟩ : Path) = p := by
        rw [← hnames, List.reverse_reverse]
      rw [hnames, makeDirectoriesFrom, hp] at h
      dsimp only at h
      split at h
      · next hlast => exact .inr hlast
      · split at h
        · next x hlast => exact .inl ⟨x, hlast⟩
        · refine absurd ?_ h
          split <;> rfl
  rw [Path.child, walk_append]
  rcases hnothing with hwalk | ⟨place, hwalk, hnode⟩
  · rw [hwalk]
    rfl
  · rw [hwalk]
    change v.walk place [name] = _
    rw [walk, hnode]

theorem status_eq_error {e : FileError} (hsize : p.toString.utf8ByteSize ≤ pathLimit)
    (h : v.walk [] p.names = .error e) : v.status p = .error e := by
  rw [status, resolve, if_neg (Nat.not_lt.mpr hsize), h]
  rfl

theorem read_tooLong (v : Volume) (hlong : pathLimit < p.toString.utf8ByteSize) : v.read p = .error .nameTooLong := by
  rw [read, status, resolve, if_pos hlong]
  rfl

/-- Before the directory was made its files could not be found, and tables are empty then. -/
theorem read_child_of_made (h : (v.makeDirectories p).2 ≠ v)
    (hsize : (p.child name).toString.utf8ByteSize ≤ pathLimit) : v.read (p.child name) = .error .notFound := by
  rw [read, status_eq_error hsize (walk_child_of_made h name)]
  rfl

/-- Whatever is on the volume is in a directory. A place that is free in a tree has nothing below it. -/
def IsTree (v : Volume) : Prop := ∀ place name, v.node? (place ++ [name]) ≠ none → v.node? place = some .directory

theorem IsTree.stands_above (h : v.IsTree) {place : Place} (hne : names ≠ []) (hnode : v.node? (place ++ names) ≠ none) :
    v.node? place = some .directory := by
  induction names generalizing place with
  | nil => exact absurd rfl hne
  | cons name names ih =>
    by_cases hlast : names = []
    · subst hlast
      exact h place name hnode
    · apply h place name
      rw [List.append_cons] at hnode
      rw [ih hlast hnode]
      nofun

/-- Where a path without steps back leads in one volume, it leads in a tree that has the place. -/
theorem IsTree.walk (h : v.IsTree) {place q : Place} (hwalk : w.walk place names = .ok q) (hdots : ".." ∉ names)
    (hnode : v.node? (place ++ names) ≠ none) : v.walk place names = .ok (place ++ names) := by
  induction names generalizing place with
  | nil =>
    rw [List.append_nil]
    rfl
  | cons name names ih =>
    rw [List.mem_cons, not_or] at hdots
    obtain ⟨_, hsize, hmore⟩ := walk_cons_eq_ok_iff.mp hwalk
    refine walk_cons_eq_ok_iff.mpr ⟨h.stands_above (List.cons_ne_nil _ _) hnode, hsize, ?_⟩
    rw [if_neg (Ne.symm hdots.1)] at hmore ⊢
    rw [List.append_cons place name names] at hnode ⊢
    exact ih hmore hdots.2 hnode

/-- A directory that has been made is empty. -/
theorem IsTree.empty_of_made (h : v.IsTree) (hdots : ".." ∉ p.names) (hnot : v.isDirectory p = false)
    {place : Place} (hmade : v.makeDirectories p = (.ok (), w)) (hleads : w.Leads p place) (name : String) :
    w.node? (place ++ [name]) = none := by
  obtain rfl := resolve_of_no_dots hdots hleads.resolves
  obtain ⟨hsize, hwalk⟩ := resolve_eq_ok hleads.resolves
  have hgains := gains_of_makeDirectories hmade
  have hfree : v.node? p.names = none := by
    rcases hgains p.names with hsame | ⟨hnone, _⟩
    · have hstands : v.node? p.names = some .directory := hsame.symm.trans hleads.stands
      have hresolve : v.resolve p = .ok p.names := by
        rw [resolve, if_neg (Nat.not_lt.mpr hsize)]
        exact h.walk hwalk hdots (by simp [hstands])
      rw [(isDirectory_iff p).mpr ⟨_, hresolve, hstands⟩] at hnot
      contradiction
    · exact hnone
  rcases hgains (p.names ++ [name]) with hsame | ⟨_, _, hon⟩
  · rw [hsame]
    apply Classical.byContradiction
    intro hnode
    rw [h _ _ hnode] at hfree
    contradiction
  · obtain ⟨names, hnames, hresolve⟩ := hon
    have hdots' : ".." ∉ names := fun hmem => hdots (hnames.subset hmem)
    have hlength := congrArg List.length (resolve_of_no_dots hdots' hresolve)
    have hle := hnames.length_le
    simp only [List.length_append, List.length_singleton] at hlength
    omega

/-- Reading a file tells nothing of a directory that has been made for it. -/
theorem IsTree.read_made (h : v.IsTree) (hdots : ".." ∉ p.names) (hmade : v.makeDirectories p = (.ok (), w))
    {place : Place} (hleads : w.Leads p place) (hname : name ≠ "..") (hsize : name.utf8ByteSize ≤ nameLimit) :
    w.read (p.child name) = v.read (p.child name) := by
  by_cases hsame : w = v
  · rw [hsame]
  · have hnot : v.isDirectory p = false := by
      apply Bool.eq_false_iff.mpr
      intro hstands
      exact hsame (Prod.mk.inj (hmade.symm.trans (makeDirectories_of_isDirectory hstands))).2
    by_cases hlong : pathLimit < (p.child name).toString.utf8ByteSize
    · rw [read_tooLong w hlong, read_tooLong v hlong]
    · have hpath := Nat.le_of_not_lt hlong
      have hgained : (v.makeDirectories p).2 ≠ v := by
        rw [hmade]
        exact hsame
      rw [read_child_of_made hgained hpath, read, hleads.status_child hname, if_pos ⟨hpath, hsize⟩,
        h.empty_of_made hdots hnot hmade hleads name]
      rfl

end Volume

end TableServer
