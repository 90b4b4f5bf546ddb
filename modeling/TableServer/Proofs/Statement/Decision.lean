import TableServer.Proofs.Statement.Parsing

namespace TableServer
open Grammar

theorem command_ne_openQuote (limit : Nat) (ls : List Lexeme) :
    Statement.command limit ls ≠ .error .openQuote := by
  intro h
  unfold Statement.command at h
  repeat' split at h
  all_goals cases h

/-- Open quotes are found before any form is tried, and nothing later is rejected for them. -/
theorem parseChars_eq_openQuote_iff {limit : Nat} {text : List Char} :
    parseChars limit text = .error .openQuote ↔ ¬ Closed text := by
  rw [← lexemes_eq_none_iff, parseChars]
  cases lexemes false text with
  | none => simp
  | some ls => simpa using command_ne_openQuote limit ls

theorem parseChars_eq_iff {limit : Nat} {text : List Char} {outcome : Except Rejection Command}
    (ho : outcome ≠ .error .openQuote) :
    parseChars limit text = outcome ↔
      ∃ all, lexemes false text = some all ∧ Statement.command limit all = outcome := by
  rw [parseChars]
  cases lexemes false text with
  | none => simpa using ho.symm
  | some ls => simp

section
variable {limit : Nat} {text : List Char}

theorem parseChars_selectAll_iff {table : String} :
    parseChars limit text = .ok (.selectAll table) ↔ IsSelectAll text table := by
  rw [parseChars_eq_iff (by simp), command_selectAll_iff]

theorem parseChars_selectById_iff {table : String} {id : Int} :
    parseChars limit text = .ok (.selectById table id) ↔
      ∃ n : Nat, id = n ∧ IsSelectById limit text table n := by
  rw [parseChars_eq_iff (by simp), command_selectById_iff]

theorem parseChars_insert_iff {i : Insertion} :
    parseChars limit text = .ok (.insert i) ↔ IsInsert text i.table i.columns i.values := by
  rw [parseChars_eq_iff (by simp), command_insertion_iff (.inr ⟨i, rfl⟩)]
  simp only [ofLists_eq_insert_iff]
  constructor
  · rintro ⟨table, columns, values, h, rfl, rfl, rfl⟩
    exact h
  · intro h
    exact ⟨_, _, _, h, rfl, rfl, rfl⟩

theorem parseChars_countMismatch_iff :
    parseChars limit text = .error .countMismatch ↔
      ∃ table columns values, IsInsert text table columns values ∧ columns.length ≠ values.length := by
  rw [parseChars_eq_iff (by simp), command_insertion_iff (.inl rfl)]
  simp only [ofLists_eq_countMismatch_iff]

/-- Where the other outcomes are excluded there is one left. So the text of an unsupported statement is closed, and
has none of the three forms. -/
theorem parseChars_unsupported_iff :
    parseChars limit text = .error .unsupported ↔
      Closed text ∧ (∀ table, ¬ IsSelectAll text table) ∧
        (∀ table id, ¬ IsSelectById limit text table id) ∧
        ∀ table columns values, ¬ IsInsert text table columns values := by
  constructor
  · intro h
    refine ⟨?_, ?_, ?_, ?_⟩
    · apply Classical.byContradiction
      intro hc
      cases h.symm.trans (parseChars_eq_openQuote_iff.mpr hc)
    · intro table ht
      cases h.symm.trans (parseChars_selectAll_iff.mpr ht)
    · intro table id hid
      cases h.symm.trans (parseChars_selectById_iff.mpr ⟨id, rfl, hid⟩)
    · intro table columns values hins
      by_cases hlen : columns.length = values.length
      · have hi : ofLists table columns values = .ok (.insert ⟨table, columns.zip values⟩) := by
          simp [ofLists, Insertion.ofLists?, hlen]
        cases h.symm.trans ((parseChars_eq_iff (by simp)).mpr
          ((command_insertion_iff (.inr ⟨_, rfl⟩)).mpr ⟨table, columns, values, hins, hi⟩))
      · cases h.symm.trans (parseChars_countMismatch_iff.mpr ⟨table, columns, values, hins, hlen⟩)
  · rintro ⟨hclosed, hall, hbyId, hins⟩
    match h : parseChars limit text with
    | .ok (.selectAll table) => exact (hall table (parseChars_selectAll_iff.mp h)).elim
    | .ok (.selectById table id) =>
      obtain ⟨n, -, hn⟩ := parseChars_selectById_iff.mp h
      exact (hbyId table n hn).elim
    | .ok (.insert i) => exact (hins _ _ _ (parseChars_insert_iff.mp h)).elim
    | .error .openQuote => exact (parseChars_eq_openQuote_iff.mp h hclosed).elim
    | .error .countMismatch =>
      obtain ⟨table, columns, values, hi, -⟩ := parseChars_countMismatch_iff.mp h
      exact (hins _ _ _ hi).elim
    | .error .unsupported => rfl

end

/-- Parsing is decided by the grammar, with the statement without the blanks and NUL characters around it
taken for the text. An open region comes before all else, and a list that is too short only behind a form that
is complete. -/
theorem parse_decided (limit : Nat) (text : String) :
    (parse limit text = .error .openQuote ↔ ¬ Closed (cleanChars text.toList)) ∧
    (∀ table, parse limit text = .ok (.selectAll table) ↔
      IsSelectAll (cleanChars text.toList) table) ∧
    (∀ table id, parse limit text = .ok (.selectById table id) ↔
      ∃ n : Nat, id = n ∧ IsSelectById limit (cleanChars text.toList) table n) ∧
    (∀ i, parse limit text = .ok (.insert i) ↔
      IsInsert (cleanChars text.toList) i.table i.columns i.values) ∧
    (parse limit text = .error .countMismatch ↔ ∃ table columns values,
      IsInsert (cleanChars text.toList) table columns values ∧ columns.length ≠ values.length) ∧
    (parse limit text = .error .unsupported ↔ Closed (cleanChars text.toList) ∧
      (∀ table, ¬ IsSelectAll (cleanChars text.toList) table) ∧
      (∀ table id, ¬ IsSelectById limit (cleanChars text.toList) table id) ∧
      ∀ table columns values, ¬ IsInsert (cleanChars text.toList) table columns values) ∧
    Rejection.openQuote.message = "unterminated quoted value" ∧
    Rejection.countMismatch.message = "column/value count mismatch" ∧
    Rejection.unsupported.message = "unsupported command" :=
  ⟨parseChars_eq_openQuote_iff, fun _ => parseChars_selectAll_iff, fun _ _ => parseChars_selectById_iff,
    fun _ => parseChars_insert_iff, parseChars_countMismatch_iff, parseChars_unsupported_iff, rfl, rfl, rfl⟩

end TableServer
