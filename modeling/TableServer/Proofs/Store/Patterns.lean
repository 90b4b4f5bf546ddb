import TableServer.Proofs.Store.Expansion

namespace TableServer

section

variable {α β ε : Type} {f g : α → Except ε (List β)} {xs : List α} {ys zs : List (List β)}

/-- Pieces that are no longer one by one are no longer together. -/
theorem length_flatten_le (hf : xs.mapM f = .ok ys) (hg : xs.mapM g = .ok zs)
    (hle : ∀ x ∈ xs, ∀ y z, f x = .ok y → g x = .ok z → y.length ≤ z.length) :
    ys.flatten.length ≤ zs.flatten.length := by
  induction xs generalizing ys zs with
  | nil =>
    cases hf
    exact Nat.zero_le _
  | cons x xs ih =>
    obtain ⟨y, ys, hy, hys, rfl⟩ := mapM_cons_eq_ok hf
    obtain ⟨z, zs, hz, hzs, rfl⟩ := mapM_cons_eq_ok hg
    have hfirst := hle x List.mem_cons_self y z hy hz
    have hrest := ih hys hzs fun x' hx' => hle x' (List.mem_cons_of_mem x hx')
    simp only [List.flatten_cons, List.length_append]
    omega

/-- Then they are the same together only if they are the same one by one. -/
theorem eq_of_flatten_eq (hf : xs.mapM f = .ok ys) (hg : xs.mapM g = .ok zs)
    (hle : ∀ x ∈ xs, ∀ y z, f x = .ok y → g x = .ok z → y.length ≤ z.length)
    (heq : ys.flatten = zs.flatten) : ∀ x ∈ xs, f x = g x := by
  induction xs generalizing ys zs with
  | nil => simp
  | cons x xs ih =>
    obtain ⟨y, ys, hy, hys, rfl⟩ := mapM_cons_eq_ok hf
    obtain ⟨z, zs, hz, hzs, rfl⟩ := mapM_cons_eq_ok hg
    have hle' : ∀ x' ∈ xs, ∀ y z, f x' = .ok y → g x' = .ok z → y.length ≤ z.length :=
      fun x' hx' => hle x' (List.mem_cons_of_mem x hx')
    have hfirst := hle x List.mem_cons_self y z hy hz
    have hrest := length_flatten_le hys hzs hle'
    rw [List.flatten_cons, List.flatten_cons] at heq
    have hlength : y.length = z.length := by
      have htotal := congrArg List.length heq
      simp only [List.length_append] at htotal
      omega
    obtain ⟨rfl, htail⟩ := List.append_inj heq hlength
    intro x' hx'
    obtain rfl | hx' := List.mem_cons.mp hx'
    · rw [hy, hz]
    · exact ih hys hzs hle' htail x' hx'

end

namespace Template

variable {cs : List Char} {f : Field}

/-- A pattern with no fault in it, whose fields can all be used. -/
def IsSound (template : List Char) : Prop :=
  ∀ part ∈ parts template, (∃ c, part = .ok (.char c)) ∨ ∃ f l, part = .ok (.field f) ∧ f.Takes l

/-- A pattern with a fault in it, or with a field that starts from something else than the name of the table, or with one
that stands for the name and cannot be used. -/
def IsBroken (template : List Char) : Prop :=
  ∃ part ∈ parts template, (∃ fault, part = .error fault) ∨
    ∃ f, part = .ok (.field f) ∧ (f.IsForeign ∨ f.IsDirect ∧ ∀ l, ¬ f.Takes l)

theorem IsSound.takes (h : IsSound cs) (hf : f ∈ fields cs) : ∃ l, f.Takes l := by
  obtain ⟨c, hc⟩ | ⟨f', l, hf', htakes⟩ := h _ (mem_fields.mp hf)
  · cases hc
  · cases hf'
    exact ⟨l, htakes⟩

/-- A pattern whose fields reach for nothing inside a name is sound or broken. -/
theorem isSound_or_isBroken (h : ∀ f ∈ fields cs, f.IsDirect ∨ f.IsForeign) : IsSound cs ∨ IsBroken cs := by
  by_cases hbroken : IsBroken cs
  · exact .inr hbroken
  · refine .inl fun part hpart => ?_
    obtain fault | (c | f) := part
    · exact absurd ⟨_, hpart, .inl ⟨fault, rfl⟩⟩ hbroken
    · exact .inl ⟨c, rfl⟩
    · refine .inr (Classical.byContradiction fun hno => hbroken ⟨_, hpart, .inr ⟨f, rfl, ?_⟩⟩)
      obtain hdirect | hforeign := h f (mem_fields.mpr hpart)
      · exact .inr ⟨hdirect, fun l htakes => hno ⟨f, l, rfl, htakes⟩⟩
      · exact .inl hforeign

/-- The fields of a sound pattern stand for the name, and there are none in their layouts. -/
theorem IsSound.onlyTable (h : IsSound cs) : OnlyTable 2 cs := by
  intro f hf
  obtain ⟨l, htakes⟩ := h.takes hf
  exact ⟨htakes.direct.1, fun f' hf' => absurd (opening_mem_of_mem_fields hf') htakes.direct.2⟩

theorem IsSound.layouts (h : IsSound cs) : ∀ f ∈ fields cs, Settings.occursIn Settings.tableField f.layout = false := by
  intro f hf
  obtain ⟨l, htakes⟩ := h.takes hf
  refine Bool.eq_false_iff.mpr fun hoccurs => htakes.direct.2 ?_
  exact (occursIn_iff.mp hoccurs).subset List.mem_cons_self

variable {template name other : List Char} {table : String}

/-- A field that stands for the name gives what it shows of it. -/
theorem piece_of_isDirect (h : f.IsDirect) (name : List Char) (depth : Nat) :
    piece name depth (.ok (.field f)) = f.shows name := by
  obtain ⟨hpath, hlayout⟩ := h
  have hlookup : lookup name f.path = .ok (.text name) := by
    rw [hpath]
    rfl
  have hplain : f.layout.contains '\x7b' = false := by simpa using hlayout
  rw [piece, hlookup, hplain]
  rfl

theorem lookup_of_isForeign (h : f.IsForeign) (name : List Char) : ∃ fault, lookup name f.path = .error fault := by
  unfold lookup
  dsimp only
  cases number? (f.path.takeWhile fun c => !startsSelector c) with
  | error fault => exact ⟨fault, rfl⟩
  | ok index =>
    cases index with
    | some index => exact ⟨_, rfl⟩
    | none =>
      dsimp [bind, Except.bind]
      split
      · exact ⟨_, rfl⟩
      · rw [if_neg h]
        exact ⟨_, rfl⟩

theorem piece_of_isForeign (h : f.IsForeign) (name : List Char) (depth : Nat) :
    ∃ fault, piece name depth (.ok (.field f)) = .error fault := by
  obtain ⟨fault, hlookup⟩ := lookup_of_isForeign h name
  exact ⟨fault, by rw [piece, hlookup]; rfl⟩

/-- A broken pattern makes nothing of any name. -/
theorem IsBroken.expand {pattern : String} (h : IsBroken pattern.toList) (table : String) :
    ∃ fault, expand pattern table = .error fault := by
  have hfails : ∃ part ∈ parts pattern.toList, ∃ fault, piece table.toList 1 part = .error fault := by
    obtain ⟨part, hpart, ⟨fault, rfl⟩ | ⟨f, rfl, hforeign | ⟨hdirect, hno⟩⟩⟩ := h
    · exact ⟨_, hpart, fault, rfl⟩
    · exact ⟨_, hpart, piece_of_isForeign hforeign table.toList 1⟩
    · refine ⟨_, hpart, ?_⟩
      rw [piece_of_isDirect hdirect]
      exact Field.shows_of_not_takes hno hdirect table.toList
  obtain ⟨fault, hfault⟩ := mapM_eq_error hfails
  refine ⟨fault, ?_⟩
  rw [Template.expand, expandTo_eq, hfault]
  rfl

section

variable (hsound : IsSound template)
include hsound

/-- Each part of a sound pattern gives a piece of every word. -/
theorem exists_piece (hname : Grammar.IsWord name) (depth : Nat) {part : Except Fault Part}
    (hpart : part ∈ parts template) : ∃ shown, piece name depth part = .ok shown := by
  obtain ⟨c, rfl⟩ | ⟨f, l, rfl, htakes⟩ := hsound part hpart
  · exact ⟨_, rfl⟩
  · rw [piece_of_isDirect htakes.direct]
    exact ⟨_, Field.shows_of_takes htakes hname⟩

/-- A longer name gives no part a shorter piece, so that no part can make up for what another does not tell. -/
theorem length_piece_mono (hname : Grammar.IsWord name) (hother : Grammar.IsWord other) (hle : name.length ≤ other.length)
    (depth : Nat) : ∀ part ∈ parts template, ∀ shown shown', piece name depth part = .ok shown →
      piece other depth part = .ok shown' → shown.length ≤ shown'.length := by
  intro part hpart shown shown' hshown hshown'
  obtain ⟨c, rfl⟩ | ⟨f, l, rfl, htakes⟩ := hsound part hpart
  · cases hshown
    cases hshown'
    exact Nat.le_refl _
  · rw [piece_of_isDirect htakes.direct] at hshown hshown'
    exact Field.length_shows_mono htakes hname hother hle hshown hshown'

/-- A sound pattern makes something of every word. -/
theorem exists_expandTo (hname : Grammar.IsWord name) (depth : Nat) :
    ∃ pieces, (parts template).mapM (piece name depth) = .ok pieces ∧
      expandTo name (depth + 1) template = .ok pieces.flatten := by
  obtain ⟨pieces, hpieces⟩ := exists_mapM_eq_ok fun part hpart => exists_piece hsound hname depth hpart
  exact ⟨pieces, hpieces, by rw [expandTo_eq, hpieces]; rfl⟩

/-- A sound pattern makes the same of two words just if all its fields show the same of them. -/
theorem expandTo_eq_iff (hname : Grammar.IsWord name) (hother : Grammar.IsWord other) (depth : Nat) :
    expandTo name (depth + 1) template = expandTo other (depth + 1) template ↔
      ∀ f ∈ fields template, f.shows name = f.shows other := by
  constructor
  · intro heq f hf
    obtain ⟨pieces, hpieces, hexpand⟩ := exists_expandTo hsound hname depth
    obtain ⟨pieces', hpieces', hexpand'⟩ := exists_expandTo hsound hother depth
    obtain ⟨l, htakes⟩ := hsound.takes hf
    have hflat : pieces.flatten = pieces'.flatten := Except.ok.inj (hexpand.symm.trans (heq.trans hexpand'))
    have hpart := mem_fields.mp hf
    rw [← piece_of_isDirect htakes.direct name depth, ← piece_of_isDirect htakes.direct other depth]
    obtain hle | hle := Nat.le_total name.length other.length
    · exact eq_of_flatten_eq hpieces hpieces' (length_piece_mono hsound hname hother hle depth) hflat _ hpart
    · have hback := eq_of_flatten_eq hpieces' hpieces (length_piece_mono hsound hother hname hle depth) hflat.symm
      exact (hback _ hpart).symm
  · intro hsame
    rw [expandTo_eq, expandTo_eq, mapM_congr]
    intro part hpart
    obtain ⟨c, rfl⟩ | ⟨f, l, rfl, htakes⟩ := hsound part hpart
    · rfl
    · rw [piece_of_isDirect htakes.direct, piece_of_isDirect htakes.direct]
      exact hsame f (mem_fields.mpr hpart)

end

end Template

namespace Settings

open Template

/-- What settings ask of a pattern: the text of a field somewhere in it, be it in doubled braces, and no slash. What
the pattern makes of names is not asked. -/
structure Accepts (pattern : String) : Prop where
  field : occursIn tableField pattern.toList = true
  bare : '/' ∉ pattern.toList

theorem accepts_of_checkPattern {v : Json.Value} {pattern : String} (h : checkPattern v = .ok pattern) :
    Accepts pattern := by
  obtain ⟨text, _, h⟩ := bind_ok.mp h
  split at h
  · cases h
  · next hfield =>
    split at h
    · cases h
    · next hslash =>
      cases h
      exact ⟨by simpa using hfield, by simpa using hslash⟩

theorem accepts_usualPattern : Accepts FileStore.usualPattern := ⟨by decide, by decide⟩

/-- All settings that are read have an accepted pattern. -/
theorem accepts_of_read {sources : Sources} {settings : Settings} (h : read sources = .ok settings) :
    Accepts settings.filePattern := by
  have hpattern : sources.read "table_file_pattern" FileStore.usualPattern checkPattern = .ok settings.filePattern := by
    unfold read at h
    dsimp only at h
    split at h
    · next hissues hsettings =>
      cases h
      simp only [bind_ok] at hsettings
      obtain ⟨_, _, _, _, _, _, _, _, _, _, pattern, hpattern, _, _, _, _, _, _, hsettings⟩ := hsettings
      cases hsettings
      exact hpattern
    · cases h
  unfold Sources.read at hpattern
  split at hpattern
  · rw [← Except.ok.inj hpattern]
    exact accepts_usualPattern
  · next v _ =>
    cases hcheck : checkPattern v with
    | error cause =>
      rw [hcheck] at hpattern
      cases hpattern
    | ok pattern =>
      rw [hcheck] at hpattern
      cases hpattern
      exact accepts_of_checkPattern hcheck

end Settings

namespace FileStore

open Template

variable {s : FileStore} {t u : String}

/-- A table has no path by a broken pattern, and is told the fault. -/
theorem path_of_isBroken (h : IsBroken s.pattern.toList) (ht : Grammar.IsWord t.toList) :
    ∃ fault, s.path t = .error (.unexpected (.template fault)) := by
  obtain ⟨fault, hfault⟩ := h.expand t
  refine ⟨fault, ?_⟩
  rw [path, if_neg (safeName_ne_empty ht), safeName_of_isWord ht, hfault]

/-- A sound pattern gives a table a file in the data directory. -/
theorem path_of_isSound (hsound : IsSound s.pattern.toList) (haccepted : Settings.Accepts s.pattern)
    (ht : Grammar.IsWord t.toList) : ∃ shown, expandTo t.toList 2 s.pattern.toList = .ok shown ∧
      s.path t = .ok (s.directory.child (String.ofList shown)) := by
  obtain ⟨pieces, _, hexpand⟩ := exists_expandTo hsound ht 1
  refine ⟨pieces.flatten, hexpand, ?_⟩
  have hsafe : expandTo (safeName t).toList 2 s.pattern.toList = .ok pieces.flatten := by
    rw [safeName_of_isWord ht]
    exact hexpand
  have hname := safeName_ne_empty ht
  obtain ⟨c, hc, hdot⟩ :=
    exists_mem_expandTo hsound.onlyTable hsound.layouts haccepted.field (exists_mem_safeName hname) hsafe
  rw [path_of_expandTo hsound.onlyTable haccepted.bare hname hsafe,
    if_pos (Path.isName_of_mem hc hdot).1]

/-- Two words have one file just if no field tells them apart. -/
theorem path_eq_iff (hsound : IsSound s.pattern.toList) (haccepted : Settings.Accepts s.pattern)
    (ht : Grammar.IsWord t.toList) (hu : Grammar.IsWord u.toList) :
    s.path t = s.path u ↔ ∀ f ∈ fields s.pattern.toList, f.shows t.toList = f.shows u.toList := by
  rw [← expandTo_eq_iff hsound ht hu 1]
  obtain ⟨shown, hshown, hpath⟩ := path_of_isSound hsound haccepted ht
  obtain ⟨shown', hshown', hpath'⟩ := path_of_isSound hsound haccepted hu
  rw [hpath, hpath', hshown, hshown']
  simp [Path.child, String.ofList_inj]

/-- What the pattern of a store makes of the tables whose names are words. If it is broken they have no paths. If it is sound
each has a file in the data directory, and two have one file just if all fields show the same of their names: none do if a
field shows the whole of names, and some do if all fields cut names, or fill them up with the same character of names.

A field that is wider than `greatestWidth` counts as broken. That is where memory is taken to end: up to there a field
shows its table on any machine, and beyond it a machine with more memory may still find a path where `broken` says that
there is none. -/
structure NamesFiles (s : FileStore) : Prop where
  decided : (∀ f ∈ fields s.pattern.toList, f.IsDirect ∨ f.IsForeign) →
    IsSound s.pattern.toList ∨ IsBroken s.pattern.toList
  broken (t : String) : IsBroken s.pattern.toList → Grammar.IsWord t.toList →
    ∃ fault, s.path t = .error (.unexpected (.template fault))
  sound (t : String) : IsSound s.pattern.toList → Grammar.IsWord t.toList →
    ∃ name, s.path t = .ok (s.directory.child name)
  joined (t u : String) : IsSound s.pattern.toList → Grammar.IsWord t.toList → Grammar.IsWord u.toList →
    (s.path t = s.path u ↔ ∀ f ∈ fields s.pattern.toList, f.shows t.toList = f.shows u.toList)
  whole (t u : String) : IsSound s.pattern.toList → (∃ f ∈ fields s.pattern.toList, f.IsWhole) →
    Grammar.IsWord t.toList → Grammar.IsWord u.toList → t ≠ u → s.path t ≠ s.path u
  cut : IsSound s.pattern.toList → (∀ f ∈ fields s.pattern.toList, ∃ n, f.IsCut n) →
    ∃ t u, Grammar.IsWord t.toList ∧ Grammar.IsWord u.toList ∧ t ≠ u ∧ s.path t = s.path u
  filled (c : Char) : IsSound s.pattern.toList → isWordChar c = true → (∀ f ∈ fields s.pattern.toList, f.FillsWith c) →
    ∃ t u, Grammar.IsWord t.toList ∧ Grammar.IsWord u.toList ∧ t ≠ u ∧ s.path t = s.path u

/-- Fields that all cut names cut them at some length at the latest. -/
theorem exists_cut {fs : List Field} (h : ∀ f ∈ fs, ∃ n, f.IsCut n) : ∃ m, ∀ f ∈ fs, ∃ n ≤ m, f.IsCut n := by
  induction fs with
  | nil => exact ⟨0, by simp⟩
  | cons f fs ih =>
    simp only [List.forall_mem_cons] at h
    obtain ⟨⟨n, hn⟩, hrest⟩ := h
    obtain ⟨m, hm⟩ := ih hrest
    refine ⟨max n m, ?_⟩
    simp only [List.forall_mem_cons]
    refine ⟨⟨n, Nat.le_max_left n m, hn⟩, fun f' hf' => ?_⟩
    obtain ⟨n', hle, hcut⟩ := hm f' hf'
    exact ⟨n', Nat.le_trans hle (Nat.le_max_right n m), hcut⟩

/-- The clauses that give two names choose them by the fields: long ones that start alike where fields cut, one and
two of the same character where they fill. -/
theorem names_files_of_accepts (haccepted : Settings.Accepts s.pattern) : s.NamesFiles where
  decided := isSound_or_isBroken
  broken t hbroken ht := path_of_isBroken hbroken ht
  sound t hsound ht := by
    obtain ⟨shown, _, hpath⟩ := path_of_isSound hsound haccepted ht
    exact ⟨_, hpath⟩
  joined t u hsound ht hu := path_eq_iff hsound haccepted ht hu
  whole t u hsound hwhole ht hu hne heq := by
    obtain ⟨f, hf, hshown⟩ := hwhole
    have hsame := (path_eq_iff hsound haccepted ht hu).mp heq f hf
    exact hne (String.toList_inj.mp (Field.eq_of_shows_eq hshown ht hu hsame))
  cut hsound hcut := by
    obtain ⟨m, hm⟩ := exists_cut hcut
    have hword : ∀ n, Grammar.IsWord (String.ofList (List.replicate (n + 1) 'a')).toList := by
      intro n
      rw [String.toList_ofList]
      exact isWord_replicate (by decide) (Nat.succ_ne_zero n)
    refine ⟨_, _, hword m, hword (m + 1), ?_, ?_⟩
    · intro heq
      have hlength := congrArg List.length (String.ofList_injective heq)
      simp at hlength
    · rw [path_eq_iff hsound haccepted (hword m) (hword (m + 1))]
      intro f hf
      obtain ⟨n, hle, hcut⟩ := hm f hf
      apply Field.shows_eq_of_take_eq hcut (hword m) (hword (m + 1))
      rw [String.toList_ofList, String.toList_ofList, List.take_replicate, List.take_replicate]
      congr 1
      omega
  filled c hsound hc hfills := by
    have hshort : Grammar.IsWord (String.ofList [c]).toList := by
      rw [String.toList_ofList]
      exact isWord_replicate hc (Nat.succ_ne_zero 0)
    have hlong : Grammar.IsWord (String.ofList [c, c]).toList := by
      rw [String.toList_ofList]
      exact isWord_replicate hc (Nat.succ_ne_zero 1)
    refine ⟨_, _, hshort, hlong, ?_, ?_⟩
    · intro heq
      simpa using String.ofList_injective heq
    · rw [path_eq_iff hsound haccepted hshort hlong, String.toList_ofList, String.toList_ofList]
      intro f hf
      exact Field.shows_eq_of_fillsWith (hfills f hf) hc

end FileStore

theorem Settings.accepts_of_store {sources : Sources} {settings : Settings} {v : Volume} {files : FileStore}
    (hread : read sources = .ok settings) (hstore : settings.store v = .files files) : Accepts files.pattern := by
  have hpattern : files.pattern = settings.filePattern := by
    unfold Settings.store at hstore
    cases hbackend : settings.backend with
    | memory =>
      rw [hbackend] at hstore
      cases hstore
    | json =>
      rw [hbackend] at hstore
      cases hstore
      rfl
  rw [hpattern]
  exact accepts_of_read hread

/-- Every configuration that is read and asks for files decides by its pattern how tables are named. -/
theorem Settings.names_files {sources : Sources} {settings : Settings} {v : Volume} {files : FileStore}
    (hread : read sources = .ok settings) (hstore : settings.store v = .files files) : files.NamesFiles :=
  FileStore.names_files_of_accepts (accepts_of_store hread hstore)

namespace Settings

open Template

def sourcesWith (pattern : String) : Sources := ⟨.default, [], [("table_file_pattern", .ofString pattern)]⟩

def withPattern (pattern : String) : Settings := ⟨"0.0.0.0", 8004, 65536, .json, "data", pattern, true, "INFO", .json⟩

def filesWith (pattern : String) : FileStore := ⟨.ofString "data", pattern, true, .empty⟩

/-- Names in quotes, filled up in front, behind the text of a field. -/
def quotedPattern : String := "\x7b\x7btable\x7d\x7d-\x7btable!r:>12\x7d"

def quotedField : Field := ⟨tableName, some 'r', ['>', '1', '2']⟩

theorem parts_quotedPattern : parts quotedPattern.toList =
    ('\x7b' :: tableName ++ ['\x7d', '-']).map (fun c => .ok (.char c)) ++ [.ok (.field quotedField)] := by
  decide +kernel

theorem takes_quotedField : quotedField.Takes ⟨' ', some .right, none, false, false, some 12, none, none, none⟩ := by
  refine ⟨⟨rfl, by decide⟩, by decide, ?_, rfl⟩
  decide +kernel

theorem isSound_quotedPattern : IsSound quotedPattern.toList := by
  intro part hpart
  rw [parts_quotedPattern, List.mem_append, List.mem_map, List.mem_singleton] at hpart
  obtain ⟨c, _, rfl⟩ | rfl := hpart
  · exact .inl ⟨c, rfl⟩
  · exact .inr ⟨_, _, rfl, takes_quotedField⟩

/-- A field in quotes shows the whole of names, whatever stands around it. -/
theorem names_files_quoted : read (sourcesWith quotedPattern) = .ok (withPattern quotedPattern) ∧
    (withPattern quotedPattern).store .empty = .files (filesWith quotedPattern) ∧
    (filesWith quotedPattern).path "a" ≠ (filesWith quotedPattern).path "b" := by
  have hread : read (sourcesWith quotedPattern) = .ok (withPattern quotedPattern) := by decide +kernel
  have hstore : (withPattern quotedPattern).store .empty = .files (filesWith quotedPattern) := rfl
  have hfield : quotedField ∈ fields quotedPattern.toList := by
    rw [mem_fields, parts_quotedPattern]
    simp
  have hwhole : quotedField.IsWhole := ⟨_, takes_quotedField, rfl, .inl (.inl rfl)⟩
  refine ⟨hread, hstore, (names_files hread hstore).whole "a" "b" isSound_quotedPattern ⟨_, hfield, hwhole⟩ ?_ ?_ ?_⟩
  · simp [Grammar.IsWord]
  · simp [Grammar.IsWord]
  · decide

/-- With the field in doubled braces all tables have one file, and with a second field of another name none has any,
though settings accept both patterns. -/
theorem pattern_joins : (∃ files : FileStore,
      read (sourcesWith "\x7b\x7btable\x7d\x7d.json") = .ok (withPattern "\x7b\x7btable\x7d\x7d.json") ∧
      (withPattern "\x7b\x7btable\x7d\x7d.json").store .empty = .files files ∧
      files.path "a" = .ok ⟨0, ["data", "\x7btable\x7d.json"]⟩ ∧
      files.path "b" = .ok ⟨0, ["data", "\x7btable\x7d.json"]⟩) ∧
    ∃ files : FileStore,
      read (sourcesWith "\x7btable\x7d\x7bx\x7d.json") = .ok (withPattern "\x7btable\x7d\x7bx\x7d.json") ∧
      (withPattern "\x7btable\x7d\x7bx\x7d.json").store .empty = .files files ∧
      files.path "a" = .error (.unexpected (.template (.unknownName "x"))) := by
  constructor
  · refine ⟨filesWith "\x7b\x7btable\x7d\x7d.json", ?_, rfl, ?_, ?_⟩
    · decide +kernel
    · decide +kernel
    · decide +kernel
  · refine ⟨filesWith "\x7btable\x7d\x7bx\x7d.json", ?_, rfl, ?_⟩
    · decide +kernel
    · decide +kernel

end Settings

end TableServer
