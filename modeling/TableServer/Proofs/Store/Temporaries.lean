import TableServer.Proofs.Store.Naming
import TableServer.Proofs.Store.Places

namespace TableServer

namespace FileStore

variable {v : Volume} {p : Path} {place : Place} {name : String}

theorem ofDigitChars_tag (n : Nat) : Nat.ofDigitChars 10 (tag n).toList 0 = n := by
  simp only [tag, String.toList_ofList, Nat.ofDigitChars_append, Nat.ofDigitChars_replicate_zero, Nat.mul_zero,
    Nat.ofDigitChars_ten_toDigits]

/-- Different numbers have different tags, whatever zeros stand before them. -/
theorem tag_inj {m n : Nat} (h : tag m = tag n) : m = n := by
  rw [← ofDigitChars_tag m, h, ofDigitChars_tag]

theorem temporaryName_inj {t t' : String} (h : temporaryName name t = temporaryName name t') : t = t' := by
  have hchars := congrArg String.toList h
  simp only [temporaryName, String.toList_append, List.append_assoc] at hchars
  have htail := List.append_cancel_left (List.append_cancel_left (List.append_cancel_left hchars))
  exact String.toList_inj.mp (List.append_cancel_right htail)

/-- A text of digits has one byte for each. -/
theorem utf8ByteSize_ofList_digits {cs : List Char} (h : ∀ c ∈ cs, c.isDigit = true) :
    (String.ofList cs).utf8ByteSize = cs.length := by
  induction cs with
  | nil => rfl
  | cons c cs ih =>
    obtain ⟨hc, hcs⟩ := List.forall_mem_cons.mp h
    have hsize : c.utf8Size = 1 := by
      rw [Char.utf8Size_eq_one_iff]
      delta Char.isDigit at hc
      simp only [Bool.and_eq_true, decide_eq_true_eq] at hc
      exact UInt32.le_trans hc.2 (by decide)
    rw [String.ofList_cons, String.utf8ByteSize_append, String.utf8ByteSize_singleton, hsize, ih hcs,
      List.length_cons, Nat.add_comm]

/-- Numbers below this have tags of eight characters. -/
def tagLimit : Nat := Nat.pow 10 8

theorem utf8ByteSize_tag {n : Nat} (h : n < tagLimit) : (tag n).utf8ByteSize = 8 := by
  have hlength : (Nat.toDigits 10 n).length ≤ 8 := (Nat.length_toDigits_le_iff (by decide) (by decide)).mpr h
  have hdigits : ∀ c ∈ List.replicate (8 - (Nat.toDigits 10 n).length) '0' ++ Nat.toDigits 10 n,
      c.isDigit = true := by
    intro c hc
    rcases List.mem_append.mp hc with hzero | hdigit
    · rw [List.eq_of_mem_replicate hzero]
      rfl
    · exact Nat.isDigit_of_mem_toDigits (by decide) (by decide) hdigit
  rw [tag, utf8ByteSize_ofList_digits hdigits, List.length_append, List.length_replicate]
  omega

end FileStore

namespace Volume

variable {p : Path} {name other : String}

/-- How long a path is in bytes depends on its last name by the length of that name alone. -/
theorem utf8ByteSize_child (p : Path) (name : String) :
    (p.child name).toString.utf8ByteSize = (p.child "").toString.utf8ByteSize + name.utf8ByteSize := by
  have hnames : ∀ names : List String, (String.intercalate "/" (names ++ [name])).utf8ByteSize =
      (String.intercalate "/" (names ++ [""])).utf8ByteSize + name.utf8ByteSize := by
    intro names
    cases names with
    | nil => simp
    | cons first names =>
      rw [String.intercalate_append_of_ne_nil (by simp) (by simp),
        String.intercalate_append_of_ne_nil (by simp) (by simp)]
      simp
  have hchild : ∀ name, (p.child name).toString =
      String.ofList (List.replicate p.slashes '/') ++ String.intercalate "/" (p.names ++ [name]) := by
    intro name
    simp [Path.toString, Path.child]
  rw [hchild, hchild, String.utf8ByteSize_append, String.utf8ByteSize_append, hnames, Nat.add_assoc]

/-- A name fits where a longer one does. -/
theorem FitsIn.of_size_le (h : FitsIn p other) (hsize : name.utf8ByteSize ≤ other.utf8ByteSize) :
    FitsIn p name := by
  obtain ⟨hpath, hname⟩ := h
  rw [utf8ByteSize_child] at hpath
  refine ⟨?_, Nat.le_trans hsize hname⟩
  rw [utf8ByteSize_child]
  exact Nat.le_trans (Nat.add_le_add_left hsize _) hpath

end Volume

namespace FileStore

variable {v : Volume} {p : Path} {place : Place} {name : String}

theorem utf8ByteSize_temporaryName (name t : String) :
    (temporaryName name t).utf8ByteSize = name.utf8ByteSize + t.utf8ByteSize + 6 := by
  have hdot : ".".utf8ByteSize = 1 := rfl
  have hending : ".tmp".utf8ByteSize = 4 := rfl
  simp only [temporaryName, String.utf8ByteSize_append]
  omega

/-- Where one temporary name fits, all with eight digits do. -/
theorem fitsIn_temporaryName (h : Volume.FitsIn p (temporaryName name (tag 0))) {n : Nat} (hn : n < tagLimit) :
    Volume.FitsIn p (temporaryName name (tag n)) := by
  have hsize : (temporaryName name (tag n)).utf8ByteSize = (temporaryName name (tag 0)).utf8ByteSize := by
    rw [utf8ByteSize_temporaryName, utf8ByteSize_temporaryName, utf8ByteSize_tag hn, utf8ByteSize_tag (by decide)]
  exact h.of_size_le (Nat.le_of_eq hsize)

/-- Where the temporary name fits, the name does. -/
theorem fitsIn_of_temporaryName (h : Volume.FitsIn p (temporaryName name (tag 0))) : Volume.FitsIn p name := by
  apply h.of_size_le
  rw [utf8ByteSize_temporaryName]
  omega

theorem mem_entries_of_node? {q : Place} (hq : q ≠ []) (h : v.node? q ≠ none) : q ∈ v.entries.map Prod.fst := by
  rw [Volume.node?, if_neg hq] at h
  cases hfind : v.entries.find? fun e => e.1 = q with
  | none => simp [hfind] at h
  | some e =>
    have he : e.1 = q := by simpa using List.find?_some hfind
    exact List.mem_map.mpr ⟨e, List.mem_of_find?_eq_some hfind, he⟩

/-- More places than the volume has entries cannot all be taken, so that the search for a free number ends. -/
theorem exists_free (v : Volume) {places : Nat → Place} (hinj : ∀ m n, places m = places n → m = n)
    (hne : ∀ n, places n ≠ []) : ∃ n ≤ v.entries.length, v.node? (places n) = none := by
  apply Classical.byContradiction
  intro hall
  have htaken : ∀ n ≤ v.entries.length, v.node? (places n) ≠ none := fun n hn hfree => hall ⟨n, hn, hfree⟩
  have hnodup : ((List.range (v.entries.length + 1)).map places).Nodup :=
    List.pairwise_map.mpr (List.nodup_range.imp fun hmn heq => hmn (hinj _ _ heq))
  have hsub : (List.range (v.entries.length + 1)).map places ⊆ v.entries.map Prod.fst := by
    intro q hq
    obtain ⟨n, hn, rfl⟩ := List.mem_map.mp hq
    exact mem_entries_of_node? (hne n) (htaken n (Nat.le_of_lt_succ (List.mem_range.mp hn)))
  have hlength := hnodup.length_le_of_subset hsub
  simp only [List.length_map, List.length_range] at hlength
  omega

theorem status_temporaryPath (hleads : v.Leads p place) (name t : String) :
    v.status (temporaryPath (p.child name) t) =
      if Volume.FitsIn p (temporaryName name t) then
        (v.node? (place ++ [temporaryName name t])).elim (.error .notFound) .ok
      else .error .nameTooLong := by
  rw [temporaryPath_child, hleads.status_child (temporaryName_ne_dots name t)]
  cases v.node? (place ++ [temporaryName name t]) <;> rfl

/-- Nothing is found under the temporary name of a number, be it free or too long. -/
def IsVacant (v : Volume) (p : Path) (place : Place) (name : String) (n : Nat) : Prop :=
  ¬ Volume.FitsIn p (temporaryName name (tag n)) ∨ v.node? (place ++ [temporaryName name (tag n)]) = none

/-- A number is vacant where looking it up fails, which is what a save goes by. -/
theorem isVacant_iff (hleads : v.Leads p place) (n : Nat) :
    IsVacant v p place name n ↔ ∃ e, v.status (temporaryPath (p.child name) (tag n)) = .error e := by
  rw [status_temporaryPath hleads, IsVacant]
  split
  · next hfits => cases v.node? (place ++ [temporaryName name (tag n)]) <;> simp [hfits]
  · next hlong => simp [hlong]

/-- A save takes the first number under which nothing is found. -/
theorem freeTemporary_first (hleads : v.Leads p place) (name : String) :
    ∃ n, freeTemporary v (p.child name) = p.child (temporaryName name (tag n)) ∧ IsVacant v p place name n ∧
      ∀ m < n, ¬ IsVacant v p place name m := by
  have hinj : ∀ m n, place ++ [temporaryName name (tag m)] = place ++ [temporaryName name (tag n)] → m = n := by
    intro m n h
    exact tag_inj (temporaryName_inj (List.cons.inj (List.append_cancel_left h)).1)
  obtain ⟨k, hle, hknone⟩ := exists_free v hinj (by simp)
  obtain ⟨e, hk⟩ := (isVacant_iff hleads k).mp (.inr hknone)
  unfold freeTemporary
  dsimp only
  rw [List.find?_map]
  cases hfind : List.find? _ (List.range (v.entries.length + 1)) with
  | none =>
    have hnot := List.find?_range_eq_none.mp hfind k (Nat.lt_succ_of_le hle)
    simp [hk] at hnot
  | some n =>
    obtain ⟨hn, _, hbefore⟩ := List.find?_range_eq_some.mp hfind
    refine ⟨n, temporaryPath_child p name (tag n), ?_, fun m hm hvacant => ?_⟩
    · rw [isVacant_iff hleads]
      rw [Function.comp_apply] at hn
      split at hn
      · contradiction
      · exact ⟨_, ‹_›⟩
    · obtain ⟨e, hm'⟩ := (isVacant_iff hleads m).mp hvacant
      have hnot := hbefore m hm
      simp [hm'] at hnot

/-- The first number is taken where nothing is found under it. -/
theorem freeTemporary_zero {e : FileError} (h : v.status (p.child (temporaryName name (tag 0))) = .error e) :
    freeTemporary v (p.child name) = p.child (temporaryName name (tag 0)) := by
  rw [← temporaryPath_child] at h ⊢
  unfold freeTemporary
  dsimp only
  rw [List.range_succ_eq_map, List.map_cons, List.find?_cons]
  simp only [h, Option.getD_some]

/-- In a directory where a name of eight digits is free, the save looks one of those up. -/
theorem freeTemporary_eq (hleads : v.Leads p place) (hfits : Volume.FitsIn p (temporaryName name (tag 0)))
    (hfree : ∃ n < tagLimit, v.node? (place ++ [temporaryName name (tag n)]) = none) :
    ∃ n < tagLimit, freeTemporary v (p.child name) = p.child (temporaryName name (tag n)) ∧
      v.node? (place ++ [temporaryName name (tag n)]) = none := by
  obtain ⟨k, hk, hknone⟩ := hfree
  obtain ⟨n, hplanned, hvacant, hbefore⟩ := freeTemporary_first hleads name
  have hnk : n ≤ k := Nat.le_of_not_lt fun hlt => hbefore k hlt (.inr hknone)
  have hn : n < tagLimit := Nat.lt_of_le_of_lt hnk hk
  exact ⟨n, hn, hplanned, hvacant.resolve_left fun hlong => hlong (fitsIn_temporaryName hfits hn)⟩

end FileStore

end TableServer
