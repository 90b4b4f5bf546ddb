import TableServer.Proofs.Store.Patterns

namespace TableServer

namespace Template

instance OnlyTable.decidable : (depth : Nat) → (template : List Char) → Decidable (OnlyTable depth template)
  | 0, _ => isTrue trivial
  | depth + 1, template =>
    have : ∀ f : Field, Decidable (OnlyTable depth f.layout) := fun f => decidable depth f.layout
    inferInstanceAs (Decidable (∀ f ∈ fields template, f.path = tableName ∧ OnlyTable depth f.layout))

end Template

namespace FileStore

open Template

variable {s : FileStore} {t : String} {p : Path}

/-- A path of something in a directory, by a name of its own. -/
structure Confined (directory p : Path) : Prop where
  parent : p.parent = directory
  name : Path.isName p.name = true
  dots : p.name ≠ ".."
  slash : '/' ∉ p.name.toList

/-- A name that is neither of the two dots nor has a slash stays in its directory. -/
theorem confined_child {directory : Path} {name : String} (hname : Path.isName name = true) (hdots : name ≠ "..")
    (hslash : '/' ∉ name.toList) : Confined directory (directory.child name) := by
  refine ⟨Path.parent_child directory name, ?_, ?_, ?_⟩ <;> rwa [Path.name_child]

/-- Where a store puts the files of tables. -/
structure Confines (s : FileStore) : Prop where
  /-- A name with nothing safe in it has no file. -/
  unnamed (t : String) : (∀ c ∈ t.toList, isAlphanumeric c = false ∧ c ≠ '_') →
    s.path t = .error (.reported (.invalidName t))
  /-- All other names have a file in the data directory, where the pattern does not fail and no layout has the text of a
  field in it. -/
  confined (t : String) (p : Path) : (∀ f ∈ fields s.pattern.toList, Settings.occursIn Settings.tableField f.layout = false) →
    s.path t = .ok p → Confined s.directory p
  /-- Where a layout has, the path is confined just if a name is left of the pattern, and leads no further away than to
  the directory before the data directory. -/
  left (t : String) (p : Path) : s.path t = .ok p → ∃ shown, expand s.pattern (safeName t) = .ok shown ∧
    (Confined s.directory p ∧ p.name = shown ∨ (shown = "" ∨ shown = ".") ∧ p = s.directory ∨
      shown = ".." ∧ p = s.directory.child "..")
  /-- With the usual pattern a word has a file of its own name. -/
  usual (t : String) : s.pattern = usualPattern → Grammar.IsWord t.toList →
    s.path t = .ok (s.directory.child (t ++ ".json"))

theorem safeName_eq_empty (h : ∀ c ∈ t.toList, isAlphanumeric c = false ∧ c ≠ '_') : safeName t = "" := by
  have hnone : t.toList.filter isSafe = [] := by
    refine List.filter_eq_nil_iff.mpr fun c hc => ?_
    obtain ⟨halphanumeric, hunderscore⟩ := h c hc
    simp [isSafe, halphanumeric, hunderscore]
  rw [safeName, hnone]

/-- A path comes of what the pattern makes of the safe name. -/
theorem exists_expandTo_of_path (h : s.path t = .ok p) :
    safeName t ≠ "" ∧ ∃ shown, expandTo (safeName t).toList 2 s.pattern.toList = .ok shown := by
  refine ⟨safeName_ne_empty_of_path h, ?_⟩
  rw [path, if_neg (safeName_ne_empty_of_path h), expand] at h
  cases hexpand : expandTo (safeName t).toList 2 s.pattern.toList with
  | ok shown => exact ⟨shown, rfl⟩
  | error fault =>
    rw [hexpand] at h
    cases h

/-- An accepted pattern has no slash around its fields, and a safe name has none either. So a path leaves the data
directory only where fields are laid out so that no name of a file is left. -/
theorem confines_of_accepts (haccepted : Settings.Accepts s.pattern) (honly : OnlyTable 2 s.pattern.toList) :
    s.Confines where
  unnamed t hunsafe := by rw [path, if_pos (safeName_eq_empty hunsafe)]
  confined t p hlayouts hpath := by
    obtain ⟨hsafe, shown, hexpand⟩ := exists_expandTo_of_path hpath
    obtain ⟨c, hc, hdot⟩ :=
      exists_mem_expandTo honly hlayouts haccepted.field (exists_mem_safeName hsafe) hexpand
    obtain ⟨hname, hdots⟩ := Path.isName_of_mem hc hdot
    rw [path_of_expandTo honly haccepted.bare hsafe hexpand, if_pos hname] at hpath
    obtain rfl := Except.ok.inj hpath
    refine confined_child hname hdots ?_
    rw [String.toList_ofList]
    exact slash_not_mem_expandTo honly haccepted.bare (not_mem_safeName isSafe_slash) hexpand
  left t p hpath := by
    obtain ⟨hsafe, shown, hexpand⟩ := exists_expandTo_of_path hpath
    have hslash : '/' ∉ (String.ofList shown).toList := by
      rw [String.toList_ofList]
      exact slash_not_mem_expandTo honly haccepted.bare (not_mem_safeName isSafe_slash) hexpand
    rw [path_of_expandTo honly haccepted.bare hsafe hexpand] at hpath
    obtain rfl := Except.ok.inj hpath
    refine ⟨String.ofList shown, by rw [expand, hexpand]; rfl, ?_⟩
    generalize String.ofList shown = name at hslash
    by_cases hname : Path.isName name = true
    · rw [if_pos hname]
      by_cases hdots : name = ".."
      · exact .inr (.inr ⟨hdots, by rw [hdots]⟩)
      · exact .inl ⟨confined_child hname hdots hslash, Path.name_child s.directory name⟩
    · rw [if_neg hname]
      refine .inr (.inl ⟨?_, rfl⟩)
      simpa [Path.isName, ← or_iff_not_imp_left] using hname
  usual t hpattern ht := by
    have hsafe := safeName_of_isWord ht
    rw [path_eq hpattern (safeName_ne_empty ht), fileName, hsafe]

end FileStore

namespace Settings

open Template

/-- Settings confine the files of all tables: a pattern whose fields stand for the name alone gives a table a file in
the data directory, whatever its name, unless a layout in the pattern depends on the name itself. Then a name can be
laid out as nothing, and what is left of the pattern is no name of a file. -/
theorem paths_confined {sources : Sources} {settings : Settings} {v : Volume} {files : FileStore}
    (hread : read sources = .ok settings) (hstore : settings.store v = .files files)
    (honly : OnlyTable 2 files.pattern.toList) : files.Confines :=
  FileStore.confines_of_accepts (accepts_of_store hread hstore) honly

/-- Dots and slashes in the name of a table lead nowhere. -/
theorem paths_confined_dots : read (sourcesWith quotedPattern) = .ok (withPattern quotedPattern) ∧
    (withPattern quotedPattern).store .empty = .files (filesWith quotedPattern) ∧
    OnlyTable 2 (filesWith quotedPattern).pattern.toList ∧
    (filesWith quotedPattern).path "../../etc" =
      .ok ⟨0, ["data", "\x7btable\x7d-       'etc'"]⟩ ∧
    FileStore.Confined ⟨0, ["data"]⟩ ⟨0, ["data", "\x7btable\x7d-       'etc'"]⟩ := by
  have hread : read (sourcesWith quotedPattern) = .ok (withPattern quotedPattern) := by decide +kernel
  have hstore : (withPattern quotedPattern).store .empty = .files (filesWith quotedPattern) := rfl
  have honly : OnlyTable 2 (filesWith quotedPattern).pattern.toList := isSound_quotedPattern.onlyTable
  have hpath : (filesWith quotedPattern).path "../../etc" = .ok ⟨0, ["data", "\x7btable\x7d-       'etc'"]⟩ := by
    decide +kernel
  exact ⟨hread, hstore, honly, hpath,
    (paths_confined hread hstore honly).confined _ _ isSound_quotedPattern.layouts hpath⟩

/-- With the name in a layout of its own a table called zero is cut to nothing: its path is then the data directory, or
the directory before that, though settings accept both patterns. -/
theorem pattern_escapes : (∃ files : FileStore,
      read (sourcesWith "\x7btable:.\x7btable\x7d\x7d") = .ok (withPattern "\x7btable:.\x7btable\x7d\x7d") ∧
      (withPattern "\x7btable:.\x7btable\x7d\x7d").store .empty = .files files ∧
      OnlyTable 2 files.pattern.toList ∧ files.path "0" = .ok files.directory) ∧
    ∃ files : FileStore,
      read (sourcesWith "..\x7btable:.\x7btable\x7d\x7d") = .ok (withPattern "..\x7btable:.\x7btable\x7d\x7d") ∧
      (withPattern "..\x7btable:.\x7btable\x7d\x7d").store .empty = .files files ∧
      OnlyTable 2 files.pattern.toList ∧ files.path "0" = .ok (files.directory.child "..") := by
  constructor
  · refine ⟨filesWith "\x7btable:.\x7btable\x7d\x7d", ?_, rfl, ?_, ?_⟩
    · decide +kernel
    · decide +kernel
    · decide +kernel
  · refine ⟨filesWith "..\x7btable:.\x7btable\x7d\x7d", ?_, rfl, ?_, ?_⟩
    · decide +kernel
    · decide +kernel
    · decide +kernel

end Settings

end TableServer
