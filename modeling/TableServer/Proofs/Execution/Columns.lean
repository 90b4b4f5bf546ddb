import Mathlib.Data.List.Nodup
import TableServer.Execution.Run
import TableServer.Proofs.Outcomes

namespace TableServer

theorem firstRepeated_eq_none_iff {seen columns : List String} :
    firstRepeated seen columns = none ↔ columns.Nodup ∧ ∀ column ∈ columns, column ∉ seen := by
  induction columns generalizing seen with
  | nil => simp [firstRepeated]
  | cons column rest ih =>
    rw [firstRepeated]
    by_cases hseen : column ∈ seen
    · simp [hseen]
    · rw [if_neg (by simpa using hseen), ih, List.nodup_cons, List.forall_mem_cons]
      constructor
      · rintro ⟨hnodup, hrest⟩
        exact ⟨⟨fun hmem => hrest column hmem List.mem_cons_self, hnodup⟩, hseen,
          fun c hc hs => hrest c hc (List.mem_cons_of_mem column hs)⟩
      · rintro ⟨⟨hnew, hnodup⟩, _, hrest⟩
        refine ⟨hnodup, fun c hc hs => ?_⟩
        rcases List.mem_cons.mp hs with rfl | hs
        · exact hnew hc
        · exact hrest c hc hs

/-- The column that is found repeats an earlier one, and none before it does. -/
theorem firstRepeated_eq_some {seen columns : List String} {column : String}
    (h : firstRepeated seen columns = some column) : ∃ before after, columns = before ++ column :: after ∧
      before.Nodup ∧ (∀ c ∈ before, c ∉ seen) ∧ (column ∈ before ∨ column ∈ seen) := by
  induction columns generalizing seen with
  | nil => simp [firstRepeated] at h
  | cons first rest ih =>
    rw [firstRepeated] at h
    by_cases hseen : first ∈ seen
    · rw [if_pos (by simpa using hseen)] at h
      obtain rfl := Option.some.inj h
      exact ⟨[], rest, rfl, List.nodup_nil, by simp, .inr hseen⟩
    · rw [if_neg (by simpa using hseen)] at h
      obtain ⟨before, after, rfl, hnodup, hfresh, hmem⟩ := ih h
      simp only [List.mem_cons, not_or] at hfresh hmem
      refine ⟨first :: before, after, rfl, ?_, ?_, ?_⟩
      · exact List.nodup_cons.mpr ⟨fun hf => (hfresh first hf).1 rfl, hnodup⟩
      · exact List.forall_mem_cons.mpr ⟨hseen, fun c hc => (hfresh c hc).2⟩
      · rcases hmem with hb | rfl | hs
        · exact .inl (List.mem_cons_of_mem first hb)
        · exact .inl List.mem_cons_self
        · exact .inr hs

namespace Insertion

variable {i j : Insertion} {id : Nat} {column value : String}

theorem setCell_of_notMem {cells : List (String × String)} (h : column ∉ cells.map (·.1)) :
    setCell column value cells = cells ++ [(column, value)] := by
  induction cells with
  | nil => rfl
  | cons cell rest ih =>
    rw [List.map_cons, List.mem_cons, not_or] at h
    rw [setCell, if_neg (Ne.symm h.1), ih h.2, List.cons_append]

theorem foldl_setCell {done cells : List (String × String)} (h : ((done ++ cells).map (·.1)).Nodup) :
    cells.foldl (fun fields cell => setCell cell.1 cell.2 fields) done = done ++ cells := by
  induction cells generalizing done with
  | nil => simp
  | cons cell rest ih =>
    have hnew : cell.1 ∉ done.map (·.1) := by
      rw [List.map_append, List.map_cons] at h
      intro hmem
      exact (List.nodup_append.mp h).2.2 _ hmem _ List.mem_cons_self rfl
    rw [List.foldl_cons, setCell_of_notMem hnew, ih (by simpa using h)]
    simp

/-- Of different columns none loses its value to another. -/
theorem fields_of_nodup (h : i.columns.Nodup) : i.fields = i.cells :=
  @foldl_setCell [] i.cells h

theorem cell_eq (i : Insertion) (column : String) :
    i.cell column = ((i.fields.find? fun cell => cell.1 = column).map (·.2)).getD "" := rfl

theorem cell_of_mem (h : i.columns.Nodup) (hmem : (column, value) ∈ i.cells) : i.cell column = value := by
  rw [cell_eq, fields_of_nodup h]
  cases hfound : i.cells.find? fun cell => cell.1 = column with
  | none => simpa using List.find?_eq_none.mp hfound _ hmem
  | some found =>
    have hcolumn : found.1 = column := by simpa using List.find?_some hfound
    obtain rfl := List.inj_on_of_nodup_map h (List.mem_of_find?_eq_some hfound) hmem hcolumn
    rfl

theorem cell_of_notMem (h : i.columns.Nodup) (hnot : column ∉ i.columns) : i.cell column = "" := by
  rw [cell_eq, fields_of_nodup h]
  cases hfound : i.cells.find? fun cell => cell.1 = column with
  | none => rfl
  | some found =>
    have hcolumn : found.1 = column := by simpa using List.find?_some hfound
    exact absurd (hcolumn ▸ List.mem_map_of_mem (List.mem_of_find?_eq_some hfound)) hnot

/-- The order of different columns does not matter to their values. -/
theorem cell_of_perm (hperm : j.cells.Perm i.cells) (h : i.columns.Nodup) (column : String) :
    j.cell column = i.cell column := by
  have hcolumns : j.columns.Perm i.columns := hperm.map _
  have hj := hcolumns.nodup_iff.mpr h
  by_cases hmem : column ∈ i.columns
  · obtain ⟨⟨_, value⟩, hcell, rfl⟩ := List.mem_map.mp hmem
    rw [cell_of_mem h hcell, cell_of_mem hj (hperm.mem_iff.mpr hcell)]
  · rw [cell_of_notMem h hmem, cell_of_notMem hj (fun hc => hmem (hcolumns.mem_iff.mp hc))]

/-- All columns are known, and no two are the same. -/
def IsLegal (i : Insertion) : Prop :=
  i.columns.Nodup ∧ ∀ column ∈ i.columns, column = "id" ∨ column = "name" ∨ column = "description"

theorem knownColumns_contains : knownColumns.contains column = true ↔
    column = "id" ∨ column = "name" ∨ column = "description" := by
  simp only [knownColumns, List.contains_cons, List.contains_nil, Bool.or_false, Bool.or_eq_true, beq_iff_eq]
  tauto

/-- The columns that no record has. -/
def unknownColumns (i : Insertion) : List String :=
  i.columns.filter fun column => ¬ (column = "id" ∨ column = "name" ∨ column = "description")

theorem filter_knownColumns : (i.columns.filter fun column => !knownColumns.contains column) = i.unknownColumns := by
  refine List.filter_congr fun column _ => ?_
  rw [Bool.eq_iff_iff, Bool.not_eq_true', ← Bool.not_eq_true, knownColumns_contains, decide_eq_true_eq]

theorem unknownColumns_eq_nil_iff : i.unknownColumns = [] ↔
    ∀ column ∈ i.columns, column = "id" ∨ column = "name" ∨ column = "description" := by
  simp only [unknownColumns, List.filter_eq_nil_iff, decide_eq_true_eq, not_not]

/-- Without repetition the columns make a record just if all of them are known. -/
theorem record_of_nodup (h : i.columns.Nodup) : i.record id =
    if i.unknownColumns = [] then .ok ⟨id, Text.ofString (i.cell "name"), Text.ofString (i.cell "description")⟩
    else .error (.unknown i.unknownColumns) := by
  have hnone : firstRepeated [] i.columns = none := firstRepeated_eq_none_iff.mpr ⟨h, by simp⟩
  simp only [record, hnone, filter_knownColumns]
  cases i.unknownColumns with
  | nil => rfl
  | cons column rest => rfl

theorem record_of_isLegal (h : i.IsLegal) :
    i.record id = .ok ⟨id, Text.ofString (i.cell "name"), Text.ofString (i.cell "description")⟩ := by
  rw [record_of_nodup h.1, if_pos (unknownColumns_eq_nil_iff.mpr h.2)]

theorem record_of_unknown (h : i.columns.Nodup) (hsome : i.unknownColumns ≠ []) :
    i.record id = .error (.unknown i.unknownColumns) := by
  rw [record_of_nodup h, if_neg hsome]

/-- A column that repeats an earlier one is told before any that is unknown. -/
theorem record_of_not_nodup (id : Nat) (h : ¬ i.columns.Nodup) : ∃ before column after,
    i.columns = before ++ column :: after ∧ before.Nodup ∧ column ∈ before ∧
      i.record id = .error (.duplicate column) := by
  cases hfirst : firstRepeated [] i.columns with
  | none => exact absurd (firstRepeated_eq_none_iff.mp hfirst).1 h
  | some column =>
    obtain ⟨before, after, hsplit, hnodup, _, hmem⟩ := firstRepeated_eq_some hfirst
    refine ⟨before, column, after, hsplit, hnodup, hmem.resolve_right List.not_mem_nil, ?_⟩
    rw [record, hfirst]

/-- There is a record just if the insertion is legal. Its id has no part in it. -/
theorem record_isOk_iff : (∃ r, i.record id = .ok r) ↔ i.IsLegal := by
  constructor
  · rintro ⟨r, hr⟩
    have hnodup : i.columns.Nodup := by
      by_contra hnot
      obtain ⟨_, _, _, _, _, _, hrecord⟩ := record_of_not_nodup id hnot
      cases hr.symm.trans hrecord
    refine ⟨hnodup, unknownColumns_eq_nil_iff.mp ?_⟩
    by_contra hsome
    cases hr.symm.trans (record_of_unknown hnodup hsome)
  · exact fun h => ⟨_, record_of_isLegal h⟩

/-- The text of a column: that of the value at its place, or none where it is not named. -/
def HasText (i : Insertion) (column : String) (t : Text) : Prop :=
  (∀ place : Nat, i.columns[place]? = some column → i.values[place]?.map Text.ofString = some t) ∧
    (column ∉ i.columns → t = [])

theorem hasText_cell (h : i.columns.Nodup) (column : String) : i.HasText column (Text.ofString (i.cell column)) := by
  constructor
  · intro place hplace
    rw [columns, List.getElem?_map] at hplace
    obtain ⟨⟨_, value⟩, hcell, rfl⟩ := Option.map_eq_some_iff.mp hplace
    rw [values, List.getElem?_map, hcell, cell_of_mem h (List.mem_of_getElem? hcell)]
    rfl
  · intro hnot
    rw [cell_of_notMem h hnot]
    rfl

/-- How an insertion is told a record for an id, or a report. -/
structure Builds (id : Nat) (i : Insertion) : Prop where
  accepted : (∃ r, i.build id = .ok r) ↔ i.IsLegal
  /-- The record has the id that it is given, whatever the insertion says of ids. -/
  made : ∀ r, i.build id = .ok r → r.id = id ∧ i.HasText "name" r.name ∧ i.HasText "description" r.description
  permuted : ∀ j : Insertion, j.cells.Perm i.cells → ∀ r, i.build id = .ok r → j.build id = .ok r
  /-- The column at the first place that repeats an earlier one is told. -/
  repeated : ¬ i.columns.Nodup → ∃ (place : Nat) (column : String), i.columns[place]? = some column ∧
    column ∈ i.columns.take place ∧ (i.columns.take place).Nodup ∧
      i.build id = .error (.execution ("duplicate column '" ++ column ++ "'") (.ofString i.table))
  /-- All unknown columns are told in their order, if none repeats another. -/
  unknown : i.columns.Nodup → i.unknownColumns ≠ [] → i.build id = .error (.execution
    ("unknown column(s): " ++ String.intercalate ", " (i.unknownColumns.map quoted)) (.ofString i.table))

theorem build_eq_ok_iff {r : Record} : i.build id = .ok r ↔ i.record id = .ok r := mapError_ok

/-- Every insertion is told its record or its report, by where its columns stand. The columns are gone through three
times, for one that repeats an earlier one, for those that no record has, and for the values that count; together that
is one reading by positions. -/
theorem build_of_columns (id : Nat) (i : Insertion) : Builds id i where
  accepted := by simp only [build_eq_ok_iff, record_isOk_iff]
  made r hr := by
    have hrecord := build_eq_ok_iff.mp hr
    have hlegal := record_isOk_iff.mp ⟨r, hrecord⟩
    obtain rfl := Except.ok.inj ((record_of_isLegal hlegal).symm.trans hrecord)
    exact ⟨rfl, hasText_cell hlegal.1 "name", hasText_cell hlegal.1 "description"⟩
  permuted j hperm r hr := by
    have hrecord := build_eq_ok_iff.mp hr
    have hlegal := record_isOk_iff.mp ⟨r, hrecord⟩
    have hcolumns : j.columns.Perm i.columns := hperm.map _
    have hlegal' : j.IsLegal :=
      ⟨hcolumns.nodup_iff.mpr hlegal.1, fun column hc => hlegal.2 column (hcolumns.mem_iff.mp hc)⟩
    rw [build_eq_ok_iff, record_of_isLegal hlegal', cell_of_perm hperm hlegal.1, cell_of_perm hperm hlegal.1,
      ← record_of_isLegal hlegal, hrecord]
  repeated hnot := by
    obtain ⟨before, column, after, hsplit, hnodup, hmem, hrecord⟩ := record_of_not_nodup id hnot
    have htake : i.columns.take before.length = before := by rw [hsplit, List.take_left]
    refine ⟨before.length, column, ?_, by rwa [htake], by rwa [htake], ?_⟩
    · rw [hsplit, List.getElem?_append_right (Nat.le_refl _), Nat.sub_self]
      rfl
    · rw [build, hrecord]
      rfl
  unknown hnodup hsome := by
    rw [build, record_of_unknown hnodup hsome]
    rfl

/-- A store inserts the record, or answers with the report's message. -/
theorem insert_of_build {σ : Type} [TableStore σ] {before after : σ} {records : List Record}
    (hload : TableStore.load before i.table = (.ok records, after)) : insert before i =
      match i.build (nextId records) with
      | .error report => (.executionFailure report.message, after)
      | .ok r => match TableStore.save after i.table (records ++ [r]) with
        | (.ok (), saved) => (.inserted r, saved)
        | (.error e, saved) => (e.result, saved) := by
  rw [insert, hload, build]
  cases hrecord : i.record (nextId records) with
  | error fault =>
    simp only [hrecord]
    rfl
  | ok r =>
    simp only [hrecord]
    rfl

/-- A column that repeats is told although an unknown one stands before it. -/
example : build 1 ⟨"t", [("colour", "red"), ("name", "a"), ("id", "7"), ("name", "b")]⟩ =
    .error (.execution "duplicate column 'name'" (.ofString "t")) := by
  rfl

end Insertion

end TableServer
