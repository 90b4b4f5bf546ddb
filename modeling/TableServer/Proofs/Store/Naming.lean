import TableServer.Proofs.Statement.Grammar
import TableServer.Proofs.Store.Places
import TableServer.Proofs.Text.Runs
import TableServer.Store.File

namespace TableServer

namespace Template

theorem parts_usual : parts ['\x7b', 't', 'a', 'b', 'l', 'e', '\x7d', '.', 'j', 's', 'o', 'n'] =
    .ok (.field ⟨tableName, none, []⟩) :: ['.', 'j', 's', 'o', 'n'].map fun c => .ok (.char c) := by
  have hfield : readField ['t', 'a', 'b', 'l', 'e', '\x7d', '.', 'j', 's', 'o', 'n'] =
      .ok (⟨tableName, none, []⟩, ['.', 'j', 's', 'o', 'n']) := rfl
  have hchars : parts ['.', 'j', 's', 'o', 'n'] = ['.', 'j', 's', 'o', 'n'].map fun c => .ok (.char c) := by
    simp [parts]
  rw [parts, if_pos rfl, if_neg (by decide)]
  split
  · next h =>
    rw [hfield] at h
    cases h
    rw [hchars]
  · next h =>
    rw [hfield] at h
    contradiction

theorem expand_usual (table : String) : expand "\x7btable\x7d.json" table = .ok (table ++ ".json") := by
  have htemplate : "\x7btable\x7d.json".toList =
      ['\x7b', 't', 'a', 'b', 'l', 'e', '\x7d', '.', 'j', 's', 'o', 'n'] := rfl
  have hending : ".json" = String.ofList ['.', 'j', 's', 'o', 'n'] := rfl
  have hname : (Except.ok (table.toList ++ ['.', 'j', 's', 'o', 'n'])).map String.ofList =
      (.ok (table ++ ".json") : Except Fault String) := by
    rw [hending]
    simp [Except.map, String.ofList_append]
  rw [expand, htemplate, expandTo, parts_usual, ← hname]
  rfl

end Template

theorem splitMarks_of_forall {isMark : Char → Bool} {cs : List Char} (h : ∀ c ∈ cs, isMark c = false) :
    splitMarks isMark cs = [cs] := by
  induction cs with
  | nil => rfl
  | cons c cs ih =>
    rw [splitMarks, if_neg (by simp [h c List.mem_cons_self]), ih fun d hd => h d (List.mem_cons_of_mem c hd)]

/-- A text without a slash is a path of one name at most. -/
theorem Path.ofString_of_slash_not_mem {name : String} (hslash : '/' ∉ name.toList) :
    ofString name = ⟨0, [name].filter isName⟩ := by
  have hmark : ∀ c ∈ name.toList, decide (c = '/') = false := by
    intro c hc
    refine decide_eq_false ?_
    rintro rfl
    exact hslash hc
  have hroot : name.toList.takeWhile (· = '/') = [] := by
    cases hcs : name.toList with
    | nil => rfl
    | cons c cs =>
      rw [List.takeWhile_cons, hmark c (hcs ▸ List.mem_cons_self)]
      rfl
  rw [ofString, ofChars, hroot, splitMarks_of_forall hmark]
  simp

/-- A text without slashes is a path of one name, if it counts as a name. -/
theorem Path.ofString_bare {name : String} (hslash : '/' ∉ name.toList) (hname : isName name = true) :
    ofString name = ⟨0, [name]⟩ := by
  rw [ofString_of_slash_not_mem hslash, List.filter_cons_of_pos hname, List.filter_nil]

namespace FileStore

theorem isSafe_ne {c d : Char} (h : isSafe c = true) (hd : isSafe d = false) : c ≠ d := by
  rintro rfl
  rw [h] at hd
  contradiction

theorem isSafe_slash : isSafe '/' = false := by decide +kernel

theorem isSafe_dot : isSafe '.' = false := by decide +kernel

theorem isSafe_nul : isSafe '\x00' = false := by decide +kernel

theorem isAlphanumeric_of_isAlphanum {c : Char} (h : c.isAlphanum = true) : isAlphanumeric c = true := by
  have hranges : ∃ range ∈ [(0x30, 0x39), (0x41, 0x5a), (0x61, 0x7a)],
      range.1 ≤ c.toNat ∧ c.toNat ≤ range.2 := by
    delta Char.isAlphanum Char.isAlpha Char.isUpper Char.isLower Char.isDigit at h
    simp only [Bool.or_eq_true, Bool.and_eq_true, decide_eq_true_eq, ge_iff_le, UInt32.le_iff_toNat_le] at h
    change ((65 ≤ c.toNat ∧ c.toNat ≤ 90) ∨ (97 ≤ c.toNat ∧ c.toNat ≤ 122)) ∨
      (48 ≤ c.toNat ∧ c.toNat ≤ 57) at h
    obtain (h | h) | h := h
    · exact ⟨(0x41, 0x5a), by decide, h⟩
    · exact ⟨(0x61, 0x7a), by decide, h⟩
    · exact ⟨(0x30, 0x39), by decide, h⟩
  obtain ⟨range, hmem, hrange⟩ := hranges
  have hsub : ∀ r ∈ [(0x30, 0x39), (0x41, 0x5a), (0x61, 0x7a)], r ∈ alphanumericRanges := by decide +kernel
  refine List.any_eq_true.mpr ⟨range, hsub range hmem, ?_⟩
  simpa using hrange

/-- A table whose name is a word keeps its name. -/
theorem safeName_of_isWord {table : String} (h : Grammar.IsWord table.toList) : safeName table = table := by
  have hsafe : table.toList.filter isSafe = table.toList := by
    refine List.filter_eq_self.mpr fun c hc => ?_
    obtain hc | rfl := h.2 c hc
    · rw [isSafe, isAlphanumeric_of_isAlphanum hc, Bool.true_or]
    · rw [isSafe, decide_eq_true rfl, Bool.or_true]
  rw [safeName, hsafe, String.ofList_toList]

/-- The pattern that settings fall back on. -/
def usualPattern : String := "\x7btable\x7d.json"

def fileName (table : String) : String := safeName table ++ ".json"

theorem toList_fileName (table : String) :
    (fileName table).toList = table.toList.filter isSafe ++ ['.', 'j', 's', 'o', 'n'] := by
  simp only [fileName, safeName, String.toList_append, String.toList_ofList]
  rfl

theorem not_mem_fileName {table : String} {c : Char} (hc : isSafe c = false)
    (hending : c ∉ ['.', 'j', 's', 'o', 'n']) : c ∉ (fileName table).toList := by
  rw [toList_fileName, List.mem_append, not_or]
  refine ⟨fun hmem => ?_, hending⟩
  rw [(List.mem_filter.mp hmem).2] at hc
  contradiction

theorem fileName_ne {table name : String} (h : name.toList.length < 5) : fileName table ≠ name := by
  rintro rfl
  rw [toList_fileName, List.length_append] at h
  exact absurd (Nat.lt_of_le_of_lt (Nat.le_add_left _ _) h) (by decide)

theorem ofString_fileName (table : String) : Path.ofString (fileName table) = ⟨0, [fileName table]⟩ := by
  apply Path.ofString_bare
  · exact not_mem_fileName isSafe_slash (by decide)
  · have hempty : fileName table ≠ "" := fileName_ne (by decide)
    have hdot : fileName table ≠ "." := fileName_ne (by decide)
    simp [Path.isName, hempty, hdot]

variable {s : FileStore} {table : String}

/-- Every name with something safe in it has its file in the data directory. -/
theorem path_eq (hpattern : s.pattern = usualPattern) (htable : safeName table ≠ "") :
    s.path table = .ok (s.directory.child (fileName table)) := by
  have hname : Template.expand s.pattern (safeName table) = .ok (fileName table) :=
    hpattern ▸ Template.expand_usual (safeName table)
  rw [path, if_neg htable, hname]
  dsimp only
  rw [ofString_fileName]
  rfl

theorem safeName_ne_empty_of_path {p : Path} (h : s.path table = .ok p) : safeName table ≠ "" := by
  intro hempty
  rw [path, if_pos hempty] at h
  contradiction

theorem safeName_eq_of_fileName {other : String} (h : fileName table = fileName other) :
    safeName table = safeName other := by
  have hchars := congrArg String.toList h
  rw [fileName, fileName, String.toList_append, String.toList_append] at hchars
  exact String.toList_inj.mp (List.append_cancel_right hchars)

theorem fileName_inj {table other : String} (h : Grammar.IsWord table.toList)
    (h' : Grammar.IsWord other.toList) (hname : fileName table = fileName other) : table = other := by
  rw [← safeName_of_isWord h, ← safeName_of_isWord h']
  exact safeName_eq_of_fileName hname

/-- The name of a temporary file beside a file. -/
def temporaryName (name tag : String) : String := "." ++ name ++ "." ++ tag ++ ".tmp"

theorem temporaryPath_child (p : Path) (name tag : String) :
    temporaryPath (p.child name) tag = p.child (temporaryName name tag) := by
  rw [temporaryPath, Path.parent_child, Path.name_child]
  rfl

theorem length_temporaryName (name tag : String) :
    (temporaryName name tag).toList.length = name.toList.length + tag.toList.length + 6 := by
  have hdot : ".".toList.length = 1 := rfl
  have hending : ".tmp".toList.length = 4 := rfl
  simp only [temporaryName, String.toList_append, List.length_append]
  omega

theorem temporaryName_ne_self (name tag : String) : temporaryName name tag ≠ name := by
  intro h
  have hlength := length_temporaryName name tag
  rw [h] at hlength
  omega

theorem temporaryName_ne_dots (name tag : String) : temporaryName name tag ≠ ".." := by
  intro h
  have hlength := length_temporaryName name tag
  have hdots : "..".toList.length = 2 := rfl
  rw [h] at hlength
  omega

/-- No temporary file is the file of a table: it starts with a dot, which no safe name does. -/
theorem temporaryName_ne_fileName (name tag : String) {table : String} (htable : safeName table ≠ "") :
    temporaryName name tag ≠ fileName table := by
  intro h
  have hchars := congrArg String.toList h
  rw [toList_fileName] at hchars
  cases hsafe : table.toList.filter isSafe with
  | nil =>
    rw [safeName, hsafe] at htable
    exact htable rfl
  | cons c cs =>
    have hc : isSafe c = true := (List.mem_filter.mp (hsafe ▸ List.mem_cons_self)).2
    rw [hsafe] at hchars
    have hdot : (temporaryName name tag).toList.head? = some '.' := by
      simp [temporaryName]
    rw [hchars] at hdot
    exact isSafe_ne hc isSafe_dot (Option.some.inj hdot)

/-- Up to its first dot behind the one in front, a temporary name is the name of the table. -/
theorem safeName_eq_of_temporaryName {other t u : String}
    (h : temporaryName (fileName table) t = temporaryName (fileName other) u) : safeName table = safeName other := by
  have hchars : ∀ table tag, ∃ more, (temporaryName (fileName table) tag).toList =
      '.' :: (table.toList.filter isSafe ++ '.' :: more) := by
    intro table tag
    refine ⟨['j', 's', 'o', 'n'] ++ ".".toList ++ tag.toList ++ ".tmp".toList, ?_⟩
    simp only [temporaryName, String.toList_append, toList_fileName]
    simp
  have hrun : ∀ (table : String) (more : List Char),
      (table.toList.filter isSafe ++ '.' :: more).takeWhile isSafe = table.toList.filter isSafe := by
    intro table more
    apply takeWhile_run
    · intro c hc
      exact (List.mem_filter.mp hc).2
    · intro c hc
      obtain rfl := Option.some.inj hc
      exact isSafe_dot
  obtain ⟨more, hmore⟩ := hchars table t
  obtain ⟨rest, hrest⟩ := hchars other u
  have htails := (List.cons.inj (hmore.symm.trans ((congrArg String.toList h).trans hrest))).2
  rw [safeName, ← hrun table more, htails, hrun other rest, safeName]

/-- A name that a file can have: it is no step in a path, and no character in it is refused. -/
structure IsPlain (name : String) : Prop where
  ne_empty : name ≠ ""
  ne_dots : name ≠ ".."
  no_nul : '\x00' ∉ name.toList

theorem hasNul_child (p : Path) {name : String} (h : IsPlain name) : (p.child name).hasNul = p.hasNul := by
  simp [Path.hasNul, Path.child, h.no_nul]

/-- The tables served have a file each in the data directory, `file` telling its name. -/
structure OwnFiles (s : FileStore) (served : String → Prop) (file : String → String) : Prop where
  path {t : String} : served t → s.path t = .ok (s.directory.child (file t))
  plain {t : String} : served t → IsPlain (file t)
  inj {t u : String} : served t → served u → file t = file u → t = u
  apart {t u : String} : served t → served u → ∀ tag, temporaryName (file t) tag ≠ file u

theorem isPlain_fileName (table : String) : IsPlain (fileName table) :=
  ⟨fileName_ne (by decide), fileName_ne (by decide), not_mem_fileName isSafe_nul (by decide)⟩

theorem safeName_ne_empty (h : Grammar.IsWord table.toList) : safeName table ≠ "" := by
  rw [safeName_of_isWord h]
  rintro rfl
  exact h.1 rfl

/-- With the usual pattern the tables whose names are words have files of their own. -/
theorem ownFiles_usual {served : String → Prop} (hpattern : s.pattern = usualPattern)
    (hwords : ∀ t, served t → Grammar.IsWord t.toList) : s.OwnFiles served fileName where
  path ht := path_eq hpattern (safeName_ne_empty (hwords _ ht))
  plain _ := isPlain_fileName _
  inj ht hu := fileName_inj (hwords _ ht) (hwords _ hu)
  apart _ hu tag := temporaryName_ne_fileName _ tag (safeName_ne_empty (hwords _ hu))

end FileStore

end TableServer
