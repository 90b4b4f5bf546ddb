import TableServer.Proofs.Statement.Forms

namespace TableServer.Grammar
open Lexeme

theorem isEnd_iff {ks : List Lexeme} :
    Statement.isEnd ks = true ↔ ks = [] ∨ ks = [.mark ';'] := by
  simp [Statement.isEnd]

/-- What there is in a selection, of a whole table or of one record. -/
theorem select?_cases {limit : Nat} {ks : List Lexeme} {c : Command} (h : Statement.select? limit ks = some c) :
    ∃ from_ table rest, ks = .mark '*' :: .word from_ :: .word table :: rest ∧ Spells "FROM" from_ ∧
      (Statement.isEnd rest = true ∧ c = .selectAll (String.ofList table) ∨
        ∃ where_ column digits rest', ∃ n : Nat,
          rest = .word where_ :: .word column :: .mark '=' :: .word digits :: rest' ∧ Spells "WHERE" where_ ∧
          Spells "ID" column ∧ Statement.readId? limit digits = some n ∧ Statement.isEnd rest' = true ∧
          c = .selectById (String.ofList table) n) := by
  unfold Statement.select? at h
  split at h
  case h_2 => contradiction
  case h_1 from_ table rest =>
    split at h
    case isTrue => contradiction
    case isFalse hfrom =>
      simp only [Bool.not_eq_true', Bool.not_eq_false, isKeyword_iff] at hfrom
      refine ⟨from_, table, rest, rfl, hfrom, ?_⟩
      split at h
      case h_2 =>
        split at h
        case isFalse => contradiction
        case isTrue hend => exact .inl ⟨hend, (Option.some.inj h).symm⟩
      case h_1 where_ rest =>
        split at h
        case isTrue => contradiction
        case isFalse hwhere =>
          simp only [Bool.not_eq_true', Bool.not_eq_false, isKeyword_iff] at hwhere
          split at h
          case h_2 => contradiction
          case h_1 column digits rest' =>
            split at h
            case isFalse => contradiction
            case isTrue hc =>
              rw [Bool.and_eq_true, isKeyword_iff] at hc
              obtain ⟨id, hid, rfl⟩ := Option.map_eq_some_iff.mp h
              obtain ⟨n, hn, hid⟩ := Option.bind_eq_some_iff.mp hid
              obtain rfl := Option.some.inj hid
              exact .inr ⟨where_, column, digits, rest', n, rfl, hwhere, hc.1, hn, hc.2, rfl⟩

theorem select?_eq_selectAll_iff {limit : Nat} {ks : List Lexeme} {table : String} :
    Statement.select? limit ks = some (.selectAll table) ↔
      ∃ from_ rest, ks = .mark '*' :: .word from_ :: .word table.toList :: rest ∧
        Spells "FROM" from_ ∧ Statement.isEnd rest = true := by
  constructor
  · intro h
    obtain ⟨from_, letters, rest, rfl, hfrom, ⟨hend, he⟩ | ⟨_, _, _, _, _, _, _, _, _, _, he⟩⟩ := select?_cases h
    · cases he
      exact ⟨from_, rest, by simp, hfrom, hend⟩
    · cases he
  · rintro ⟨from_, rest, rfl, hfrom, hend⟩
    have hkey := isKeyword_iff.mpr hfrom
    rcases isEnd_iff.mp hend with rfl | rfl <;> simp [Statement.select?, Statement.isEnd, hkey]

theorem readId?_eq_some_iff {limit id : Nat} {digits : List Char} (hne : digits ≠ []) :
    Statement.readId? limit digits = some id ↔ IsId limit digits id := by
  unfold Statement.readId?
  constructor
  · intro h
    split at h
    case isTrue hd =>
      cases h
      exact ⟨hne, List.all_eq_true.mp hd.1, hd.2.1, hd.2.2, rfl⟩
    case isFalse => contradiction
  · rintro ⟨-, hd, hlen, hlim, rfl⟩
    rw [if_pos ⟨List.all_eq_true.mpr hd, hlen, hlim⟩]

theorem select?_eq_selectById_iff {limit : Nat} {ks : List Lexeme} {table : String} {id : Int} :
    Statement.select? limit ks = some (.selectById table id) ↔
      ∃ from_ where_ column digits rest, ∃ n : Nat, ks = .mark '*' :: .word from_ :: .word table.toList ::
          .word where_ :: .word column :: .mark '=' :: .word digits :: rest ∧
        Spells "FROM" from_ ∧ Spells "WHERE" where_ ∧ Spells "ID" column ∧
        Statement.readId? limit digits = some n ∧ id = n ∧ Statement.isEnd rest = true := by
  constructor
  · intro h
    obtain ⟨from_, letters, _, rfl, hfrom, ⟨_, he⟩ | ⟨where_, column, digits, rest, n, rfl, hwhere, hcolumn, hn, hend,
      he⟩⟩ := select?_cases h
    · cases he
    · cases he
      exact ⟨from_, where_, column, digits, rest, n, by simp, hfrom, hwhere, hcolumn, hn, rfl, hend⟩
  · rintro ⟨from_, where_, column, digits, rest, n, rfl, hfrom, hwhere, hcolumn, hn, rfl, hend⟩
    simp [Statement.select?, isKeyword_iff.mpr hfrom, isKeyword_iff.mpr hwhere,
      isKeyword_iff.mpr hcolumn, hend, hn]

theorem select?_ne_insert {limit : Nat} {ks : List Lexeme} {i : Insertion} :
    Statement.select? limit ks ≠ some (.insert i) := by
  intro h
  obtain ⟨_, _, _, _, _, ⟨_, he⟩ | ⟨_, _, _, _, _, _, _, _, _, _, he⟩⟩ := select?_cases h
  · cases he
  · cases he

theorem not_spells_both {letters : List Char} (h : Spells "INSERT" letters) :
    ¬ Spells "SELECT" letters := by
  intro h'
  have : "SELECT".toList = "INSERT".toList := h'.symm.trans h
  contradiction

section
variable {limit : Nat} {all : List Lexeme}

theorem command_eq_select_iff {c : Command} (hc : ∀ i, c ≠ .insert i) :
    Statement.command limit all = .ok c ↔
      ∃ verb rest, Statement.skipBlanks all = .word verb :: rest ∧ Spells "SELECT" verb ∧
        Statement.select? limit (rest.filter isSolid) = some c := by
  constructor
  · intro h
    unfold Statement.command at h
    split at h
    case h_2 => contradiction
    case h_1 verb rest hs =>
      split at h
      case isTrue hverb =>
        split at h
        case h_2 => contradiction
        case h_1 c' hsel =>
          cases h
          exact ⟨verb, rest, hs, isKeyword_iff.mp hverb, hsel⟩
      case isFalse =>
        split at h
        case isFalse => contradiction
        case isTrue =>
          split at h
          case h_2 => contradiction
          case h_1 =>
            split at h
            · cases h
              exact (hc _ rfl).elim
            · contradiction
  · rintro ⟨verb, rest, hs, hverb, hsel⟩
    rw [Statement.command, hs]
    simp [isKeyword_iff.mpr hverb, hsel]

/-- What an insertion comes to once both its lists have been read. -/
def ofLists (table : String) (columns values : List String) : Except Rejection Command :=
  match Insertion.ofLists? table columns values with
  | some i => .ok (.insert i)
  | none => .error .countMismatch

/-- Whatever comes of two lists is what comes of the insertion that has them: the command, or the rejection where one
is longer. -/
theorem command_eq_insert_iff {outcome : Except Rejection Command}
    (ho : outcome = .error .countMismatch ∨ ∃ i, outcome = .ok (.insert i)) :
    Statement.command limit all = outcome ↔
      ∃ verb rest table columns values, Statement.skipBlanks all = .word verb :: rest ∧
        Spells "INSERT" verb ∧ Statement.insert? rest = some (table, columns, values) ∧
        ofLists table columns values = outcome := by
  constructor
  · intro h
    unfold Statement.command at h
    split at h
    case h_2 => rcases ho with rfl | ⟨i, rfl⟩ <;> cases h
    case h_1 verb rest hs =>
      split at h
      case isTrue =>
        split at h
        case h_2 => rcases ho with rfl | ⟨i, rfl⟩ <;> cases h
        case h_1 c hsel =>
          rcases ho with rfl | ⟨i, rfl⟩
          · cases h
          · cases h
            exact (select?_ne_insert hsel).elim
      case isFalse =>
        split at h
        case isFalse => rcases ho with rfl | ⟨i, rfl⟩ <;> cases h
        case isTrue hverb =>
          split at h
          case h_2 => rcases ho with rfl | ⟨i, rfl⟩ <;> cases h
          case h_1 table columns values hins =>
            exact ⟨verb, rest, table, columns, values, hs, isKeyword_iff.mp hverb, hins, h⟩
  · rintro ⟨verb, rest, table, columns, values, hs, hverb, hins, hlists⟩
    have hselect : Statement.isKeyword "SELECT" verb = false := by
      rw [← Bool.not_eq_true, isKeyword_iff]
      exact not_spells_both hverb
    rw [Statement.command, hs]
    simp only [hselect, isKeyword_iff.mpr hverb, hins, Bool.false_eq_true, if_false, if_true]
    exact hlists

end

theorem spelled_of_isEnd {text : List Char} :
    (∃ ks, Statement.isEnd ks = true ∧ Spelled false text ks) ↔ IsEnd text := by
  simp only [isEnd_iff, or_and_right, exists_or, exists_eq_left, Spelled, IsEnd,
    next_mark_iff (c := ';') (by decide) (by decide) (by decide)]
  refine or_congr_right ⟨?_, ?_⟩
  · rintro ⟨after, ⟨before, rfl, hb⟩, ha⟩
    exact ⟨before, after, rfl, hb, ha⟩
  · rintro ⟨before, after, rfl, hb, ha⟩
    exact ⟨after, ⟨before, rfl, hb⟩, ha⟩

theorem stops_of_isEnd {text : List Char} (h : IsEnd text) : Stops text := by
  rcases h with hg | ⟨before, after, rfl, hb, -⟩
  · simpa using @stops_gap_append _ [] hg (by simp [Stops])
  · refine stops_gap_append hb ?_
    intro c hc
    cases hc
    decide

theorem stops_mark {gap rest : List Char} {c : Char} (hg : Gap gap) (hc : isWordChar c = false) :
    Stops (gap ++ c :: rest) := by
  refine stops_gap_append hg ?_
  intro d hd
  cases hd
  exact hc

theorem spelled_select_iff {text table : List Char} {ks : List Lexeme} :
    (∃ select from_, Spells "SELECT" select ∧ Spells "FROM" from_ ∧
      Spelled false text (.word select :: .mark '*' :: .word from_ :: .word table :: ks)) ↔
      ∃ rest, IsSelect text (String.ofList table) rest ∧ Stops rest ∧ Spelled false rest ks := by
  have hstar : ∀ {opens text rest}, Next opens text (.mark '*') rest ↔
      ∃ gap, text = gap ++ '*' :: rest ∧ Gap gap :=
    next_mark_iff (by decide) (by decide) (by decide)
  simp only [Spelled, next_word_iff, hstar, IsSelect, String.toList_ofList]
  constructor
  · rintro ⟨select, from_, hselect, hfrom, rest₁, ⟨gap, rfl, hg, -, -⟩, rest₂, ⟨gap₁, rfl, hg₁⟩,
      rest₃, ⟨gap₂, rfl, hg₂, -, hs₃⟩, rest, ⟨gap₃, rfl, hg₃, ht, hs⟩, hks⟩
    exact ⟨rest, ⟨gap, select, gap₁, gap₂, from_, gap₃, by simp, hg, hg₁, hg₂, hg₃, gap_ne_nil ht hs₃,
      hselect, hfrom, ht⟩, hs, hks⟩
  · rintro ⟨rest, ⟨gap, select, gap₁, gap₂, from_, gap₃, rfl, hg, hg₁, hg₂, hg₃, hne, hselect, hfrom,
      ht⟩, hs, hks⟩
    let rest₃ := gap₃ ++ table ++ rest
    let rest₂ := gap₂ ++ from_ ++ rest₃
    refine ⟨select, from_, hselect, hfrom, gap₁ ++ '*' :: rest₂, ⟨gap, by simp [rest₂, rest₃], hg,
      hselect.isWord, stops_mark hg₁ (by decide)⟩, rest₂, ⟨gap₁, rfl, hg₁⟩, rest₃, ⟨gap₂, rfl, hg₂,
      hfrom.isWord, ?_⟩, rest, ⟨gap₃, rfl, hg₃, ht, hs⟩, hks⟩
    simpa [rest₃] using @stops_gap _ (table ++ rest) hg₃ hne

/-- The first word decides which form is tried, and what is behind it is read without blanks. -/
theorem spelled_cons_iff {text : List Char} {l : Lexeme} {ks : List Lexeme} (hl : l.isBlank = false) :
    (∃ all rest, lexemes false text = some all ∧ Statement.skipBlanks all = l :: rest ∧
      rest.filter isSolid = ks) ↔ Spelled false text (l :: ks) := by
  rw [← filter_eq_iff_spelled]
  constructor
  · rintro ⟨all, rest, hall, hs, hf⟩
    exact ⟨all, hall, by rw [← filter_skipBlanks, hs, List.filter_cons, if_pos (by simp [isSolid, hl]), hf]⟩
  · rintro ⟨all, hall, hf⟩
    rw [← filter_skipBlanks] at hf
    cases hs : Statement.skipBlanks all with
    | nil => simp [hs] at hf
    | cons k rest =>
      have hk := head?_dropWhile_not Lexeme.isBlank all k (congrArg List.head? hs)
      rw [hs, List.filter_cons, if_pos (by simp [isSolid, hk])] at hf
      cases hf
      exact ⟨all, rest, hall, hs, rfl⟩

/-- The first of the three forms, as the parser reads it and as the grammar tells it. -/
theorem command_selectAll_iff {limit : Nat} {text : List Char} {table : String} :
    (∃ all, lexemes false text = some all ∧
      Statement.command limit all = .ok (.selectAll table)) ↔ IsSelectAll text table := by
  simp only [command_eq_select_iff (c := .selectAll table) (by simp), select?_eq_selectAll_iff]
  constructor
  · rintro ⟨all, hall, verb, rest, hs, hverb, from_, ks, hf, hfrom, hend⟩
    have hsp := (spelled_cons_iff rfl).mp ⟨all, rest, hall, hs, hf⟩
    obtain ⟨rest, hsel, -, hks⟩ := spelled_select_iff.mp ⟨verb, from_, hverb, hfrom, hsp⟩
    rw [String.ofList_toList] at hsel
    exact ⟨rest, hsel, spelled_of_isEnd.mp ⟨ks, hend, hks⟩⟩
  · rintro ⟨rest, hsel, hend⟩
    obtain ⟨ks, hks, hsp⟩ := spelled_of_isEnd.mpr hend
    rw [← String.ofList_toList (s := table)] at hsel
    obtain ⟨verb, from_, hverb, hfrom, hsp⟩ :=
      spelled_select_iff.mpr ⟨rest, hsel, stops_of_isEnd hend, hsp⟩
    obtain ⟨all, rest, hall, hs, hf⟩ := (spelled_cons_iff rfl).mpr hsp
    exact ⟨all, hall, verb, rest, hs, hverb, from_, ks, hf, hfrom, hks⟩

/-- What follows the table of a selection by id. -/
theorem spelled_condition_iff {text : List Char} {limit id : Nat} :
    (∃ where_ column digits ks, Spells "WHERE" where_ ∧ Spells "ID" column ∧ Statement.isEnd ks = true ∧
      Statement.readId? limit digits = some id ∧ Stops text ∧
      Spelled false text (.word where_ :: .word column :: .mark '=' :: .word digits :: ks)) ↔
      ∃ gap₁ where_ gap₂ column gap₃ gap₄ digits rest,
        text = gap₁ ++ where_ ++ gap₂ ++ column ++ gap₃ ++ '=' :: gap₄ ++ digits ++ rest ∧
        Gap gap₁ ∧ Gap gap₂ ∧ Gap gap₃ ∧ Gap gap₄ ∧ gap₁ ≠ [] ∧ gap₂ ≠ [] ∧
        Spells "WHERE" where_ ∧ Spells "ID" column ∧ IsId limit digits id ∧ IsEnd rest := by
  have hequals : ∀ {opens text rest}, Next opens text (.mark '=') rest ↔
      ∃ gap, text = gap ++ '=' :: rest ∧ Gap gap :=
    next_mark_iff (by decide) (by decide) (by decide)
  simp only [Spelled, next_word_iff, hequals]
  constructor
  · rintro ⟨where_, column, digits, ks, hwhere, hcolumn, hks, hid, hstop, rest₁, ⟨gap₁, rfl, hg₁, hw₁, hs₁⟩,
      rest₂, ⟨gap₂, rfl, hg₂, hw₂, -⟩, rest₃, ⟨gap₃, rfl, hg₃⟩, rest, ⟨gap₄, rfl, hg₄, hd, -⟩, hsp⟩
    exact ⟨gap₁, where_, gap₂, column, gap₃, gap₄, digits, rest, by simp, hg₁, hg₂, hg₃, hg₄,
      gap_ne_nil hw₁ hstop, gap_ne_nil hw₂ hs₁, hwhere, hcolumn, (readId?_eq_some_iff hd.1).mp hid,
      spelled_of_isEnd.mp ⟨ks, hks, hsp⟩⟩
  · rintro ⟨gap₁, where_, gap₂, column, gap₃, gap₄, digits, rest, rfl, hg₁, hg₂, hg₃, hg₄, hne₁, hne₂,
      hwhere, hcolumn, hid, hend⟩
    obtain ⟨ks, hks, hsp⟩ := spelled_of_isEnd.mpr hend
    have hdigits : IsWord digits := ⟨hid.1, fun c hc => .inl (by simp [Char.isAlphanum, hid.2.1 c hc])⟩
    let rest₃ := gap₄ ++ digits ++ rest
    let rest₂ := gap₃ ++ '=' :: rest₃
    let rest₁ := gap₂ ++ column ++ rest₂
    refine ⟨where_, column, digits, ks, hwhere, hcolumn, hks, (readId?_eq_some_iff hid.1).mpr hid, ?_,
      rest₁, ⟨gap₁, by simp [rest₁, rest₂, rest₃], hg₁, hwhere.isWord, ?_⟩,
      rest₂, ⟨gap₂, rfl, hg₂, hcolumn.isWord, stops_mark hg₃ (by decide)⟩,
      rest₃, ⟨gap₃, rfl, hg₃⟩, rest, ⟨gap₄, rfl, hg₄, hdigits, stops_of_isEnd hend⟩, hsp⟩
    · simpa only [List.append_assoc] using stops_gap hg₁ hne₁
    · simpa [rest₁] using @stops_gap _ (column ++ rest₂) hg₂ hne₂

/-- The second form. The grammar has natural numbers for ids, since there is no sign in a word. -/
theorem command_selectById_iff {limit : Nat} {text : List Char} {table : String} {id : Int} :
    (∃ all, lexemes false text = some all ∧
      Statement.command limit all = .ok (.selectById table id)) ↔
      ∃ n : Nat, id = n ∧ IsSelectById limit text table n := by
  simp only [command_eq_select_iff (c := .selectById table id) (by simp), select?_eq_selectById_iff]
  constructor
  · rintro ⟨all, hall, verb, rest, hs, hverb, from_, where_, column, digits, ks, n, hf, hfrom, hwhere,
      hcolumn, hid, rfl, hend⟩
    have hsp := (spelled_cons_iff rfl).mp ⟨all, rest, hall, hs, hf⟩
    obtain ⟨rest, hsel, hstop, hks⟩ := spelled_select_iff.mp ⟨verb, from_, hverb, hfrom, hsp⟩
    rw [String.ofList_toList] at hsel
    obtain ⟨gap₁, where_, gap₂, column, gap₃, gap₄, digits, rest, rfl, h⟩ := spelled_condition_iff.mp
      ⟨where_, column, digits, ks, hwhere, hcolumn, hend, hid, hstop, hks⟩
    exact ⟨n, rfl, gap₁, where_, gap₂, column, gap₃, gap₄, digits, rest, hsel, h⟩
  · rintro ⟨n, rfl, gap₁, where_, gap₂, column, gap₃, gap₄, digits, rest, hsel, h⟩
    obtain ⟨where_, column, digits, ks, hwhere, hcolumn, hend, hid, hstop, hks⟩ :=
      spelled_condition_iff.mpr ⟨gap₁, where_, gap₂, column, gap₃, gap₄, digits, rest, rfl, h⟩
    rw [← String.ofList_toList (s := table)] at hsel
    obtain ⟨verb, from_, hverb, hfrom, hsp⟩ := spelled_select_iff.mpr ⟨_, hsel, hstop, hks⟩
    obtain ⟨all, rest, hall, hs, hf⟩ := (spelled_cons_iff rfl).mpr hsp
    exact ⟨all, hall, verb, rest, hs, hverb, from_, where_, column, digits, ks, n, hf, hfrom, hwhere,
      hcolumn, hid, rfl, hend⟩

theorem insert?_eq_some_iff {ls : List Lexeme} {table : String} {columns values : List String} :
    Statement.insert? ls = some (table, columns, values) ↔
      ∃ into rest₁ rest₂ rest₃ keyword rest₄ rest₅,
        Statement.skipBlanks ls = .word into :: rest₁ ∧
        Statement.skipBlanks rest₁ = .word table.toList :: rest₂ ∧
        Statement.list? rest₂ = some (columns, rest₃) ∧
        Statement.skipBlanks rest₃ = .word keyword :: rest₄ ∧
        Statement.list? rest₄ = some (values, rest₅) ∧
        Spells "INTO" into ∧ Spells "VALUES" keyword ∧
        Statement.isEnd (rest₅.filter isSolid) = true := by
  constructor
  · intro h
    unfold Statement.insert? at h
    split at h
    case h_2 => contradiction
    case h_1 into rest₁ h₁ =>
      split at h
      case h_2 => contradiction
      case h_1 letters rest₂ h₂ =>
        obtain ⟨⟨columns', rest₃⟩, h₃, h⟩ := Option.bind_eq_some_iff.mp h
        dsimp only at h
        split at h
        case h_2 => contradiction
        case h_1 keyword rest₄ h₄ =>
          obtain ⟨⟨values', rest₅⟩, h₅, h⟩ := Option.bind_eq_some_iff.mp h
          dsimp only at h
          split at h
          case isFalse => contradiction
          case isTrue hc =>
            cases h
            simp only [Bool.and_eq_true, isKeyword_iff] at hc
            exact ⟨into, rest₁, rest₂, rest₃, keyword, rest₄, rest₅, h₁, by simpa using h₂, h₃, h₄, h₅,
              hc.1.1, hc.1.2, hc.2⟩
  · rintro ⟨into, rest₁, rest₂, rest₃, keyword, rest₄, rest₅, h₁, h₂, h₃, h₄, h₅, hinto, hvalues, hend⟩
    simp [Statement.insert?, h₁, h₂, h₃, h₄, h₅, isKeyword_iff.mpr hinto, isKeyword_iff.mpr hvalues, hend]

theorem stops_list {gap list rest : List Char} {values : List String} (hg : Gap gap)
    (hl : IsList list values) : Stops (gap ++ list ++ rest) := by
  obtain ⟨inner, rfl, -⟩ := hl
  simpa using @stops_mark _ (inner ++ ')' :: rest) '(' hg (by decide)

theorem skipBlanks_word_iff {text word : List Char} {ls : List Lexeme} :
    (∃ all, lexemes false text = some all ∧ Statement.skipBlanks all = .word word :: ls) ↔
      ∃ gap rest, text = gap ++ word ++ rest ∧ Gap gap ∧ IsWord word ∧ Stops rest ∧
        lexemes false rest = some ls := by
  rw [skipBlanks_eq_cons_iff]
  simp only [next_word_iff]
  constructor
  · rintro ⟨rest, ⟨gap, he, hg, hw, hs⟩, hls⟩
    exact ⟨gap, rest, he, hg, hw, hs, hls⟩
  · rintro ⟨gap, rest, he, hg, hw, hs, hls⟩
    exact ⟨rest, ⟨gap, he, hg, hw, hs⟩, hls⟩

/-- The third form. Its lists are read with the blanks in them, so that it is told by what is skipped and not by what
is spelled. -/
theorem insertion_iff {text : List Char} {table : String} {columns values : List String} :
    (∃ all verb rest, lexemes false text = some all ∧ Statement.skipBlanks all = .word verb :: rest ∧
      Spells "INSERT" verb ∧ Statement.insert? rest = some (table, columns, values)) ↔
      IsInsert text table columns values := by
  constructor
  · rintro ⟨all, verb, ls, hall, hs, hverb, hins⟩
    obtain ⟨into, ls₁, ls₂, ls₃, keyword, ls₄, ls₅, h₁, h₂, h₃, h₄, h₅, hinto, hvalues, hend⟩ :=
      insert?_eq_some_iff.mp hins
    obtain ⟨gap, text₀, rfl, hg, -, hstop₀, hls⟩ := skipBlanks_word_iff.mp ⟨all, hall, hs⟩
    obtain ⟨gap₁, text₁, rfl, hg₁, hw₁, hstop₁, hls₁⟩ := skipBlanks_word_iff.mp ⟨ls, hls, h₁⟩
    obtain ⟨gap₂, text₂, rfl, hg₂, hw₂, -, hls₂⟩ := skipBlanks_word_iff.mp ⟨ls₁, hls₁, h₂⟩
    obtain ⟨gap₃, first, text₃, rfl, hg₃, hfirst, hls₃⟩ := list?_eq_some_iff.mp ⟨ls₂, hls₂, h₃⟩
    obtain ⟨gap₄, text₄, rfl, hg₄, -, -, hls₄⟩ := skipBlanks_word_iff.mp ⟨ls₃, hls₃, h₄⟩
    obtain ⟨gap₅, second, rest, rfl, hg₅, hsecond, hls₅⟩ := list?_eq_some_iff.mp ⟨ls₄, hls₄, h₅⟩
    have hrest : IsEnd rest := spelled_of_isEnd.mp ⟨_, hend, filter_eq_iff_spelled.mp ⟨ls₅, hls₅, rfl⟩⟩
    exact ⟨gap, verb, gap₁, into, gap₂, gap₃, first, gap₄, keyword, gap₅, second, rest, by simp, hg, hg₁,
      hg₂, hg₃, hg₄, hg₅, gap_ne_nil hw₁ hstop₀, gap_ne_nil hw₂ hstop₁, hverb, hinto, hvalues, hw₂,
      hfirst, hsecond, hrest⟩
  · rintro ⟨gap, verb, gap₁, into, gap₂, gap₃, first, gap₄, keyword, gap₅, second, rest, rfl, hg, hg₁, hg₂,
      hg₃, hg₄, hg₅, hne₁, hne₂, hverb, hinto, hvalues, htable, hfirst, hsecond, hrest⟩
    obtain ⟨ks, hend, hsp⟩ := spelled_of_isEnd.mpr hrest
    obtain ⟨ls₅, hls₅, rfl⟩ := filter_eq_iff_spelled.mpr hsp
    let text₄ := gap₅ ++ second ++ rest
    let text₃ := gap₄ ++ keyword ++ text₄
    let text₂ := gap₃ ++ first ++ text₃
    let text₁ := gap₂ ++ table.toList ++ text₂
    let text₀ := gap₁ ++ into ++ text₁
    have hstop₂ : Stops text₂ := stops_list hg₃ hfirst
    have hstop₁ : Stops text₁ := by simpa [text₁] using @stops_gap _ (table.toList ++ text₂) hg₂ hne₂
    have hstop₀ : Stops text₀ := by simpa [text₀] using @stops_gap _ (into ++ text₁) hg₁ hne₁
    obtain ⟨ls₄, hls₄, h₅⟩ := list?_eq_some_iff.mpr ⟨gap₅, second, rest, (rfl : text₄ = _), hg₅, hsecond, hls₅⟩
    obtain ⟨ls₃, hls₃, h₄⟩ := skipBlanks_word_iff.mpr
      ⟨gap₄, text₄, (rfl : text₃ = _), hg₄, hvalues.isWord, stops_list hg₅ hsecond, hls₄⟩
    obtain ⟨ls₂, hls₂, h₃⟩ := list?_eq_some_iff.mpr ⟨gap₃, first, text₃, (rfl : text₂ = _), hg₃, hfirst, hls₃⟩
    obtain ⟨ls₁, hls₁, h₂⟩ := skipBlanks_word_iff.mpr
      ⟨gap₂, text₂, (rfl : text₁ = _), hg₂, htable, hstop₂, hls₂⟩
    obtain ⟨ls, hls, h₁⟩ := skipBlanks_word_iff.mpr
      ⟨gap₁, text₁, (rfl : text₀ = _), hg₁, hinto.isWord, hstop₁, hls₁⟩
    obtain ⟨all, hall, hs⟩ := skipBlanks_word_iff.mpr
      ⟨gap, text₀, rfl, hg, hverb.isWord, hstop₀, hls⟩
    refine ⟨all, verb, ls, ?_, hs, hverb, insert?_eq_some_iff.mpr
      ⟨into, ls₁, ls₂, ls₃, keyword, ls₄, ls₅, h₁, h₂, h₃, h₄, h₅, hinto, hvalues, hend⟩⟩
    simpa [text₀, text₁, text₂, text₃, text₄] using hall

theorem command_insertion_iff {limit : Nat} {text : List Char} {outcome : Except Rejection Command}
    (ho : outcome = .error .countMismatch ∨ ∃ i, outcome = .ok (.insert i)) :
    (∃ all, lexemes false text = some all ∧ Statement.command limit all = outcome) ↔
      ∃ table columns values, IsInsert text table columns values ∧
        ofLists table columns values = outcome := by
  simp only [command_eq_insert_iff ho, ← insertion_iff]
  constructor
  · rintro ⟨all, hall, verb, rest, table, columns, values, hs, hverb, hins, hlists⟩
    exact ⟨table, columns, values, ⟨all, verb, rest, hall, hs, hverb, hins⟩, hlists⟩
  · rintro ⟨table, columns, values, ⟨all, verb, rest, hall, hs, hverb, hins⟩, hlists⟩
    exact ⟨all, hall, verb, rest, table, columns, values, hs, hverb, hins, hlists⟩

theorem ofLists_eq_insert_iff {table : String} {columns values : List String} {i : Insertion} :
    ofLists table columns values = .ok (.insert i) ↔
      i.table = table ∧ i.columns = columns ∧ i.values = values := by
  unfold ofLists Insertion.ofLists?
  constructor
  · intro h
    split at h
    case h_2 => contradiction
    case h_1 j hj =>
      split at hj
      case isFalse => contradiction
      case isTrue hlen =>
        cases hj
        cases h
        exact ⟨rfl, List.map_fst_zip (Nat.le_of_eq hlen), List.map_snd_zip (Nat.le_of_eq hlen.symm)⟩
  · rintro ⟨rfl, rfl, rfl⟩
    have hlen : i.columns.length = i.values.length := by simp [Insertion.columns, Insertion.values]
    have hzip : i.columns.zip i.values = i.cells := by
      simp [Insertion.columns, Insertion.values, List.zip_map']
    rw [if_pos hlen, hzip]

theorem ofLists_eq_countMismatch_iff {table : String} {columns values : List String} :
    ofLists table columns values = .error .countMismatch ↔ columns.length ≠ values.length := by
  unfold ofLists Insertion.ofLists?
  split <;> simp_all

end TableServer.Grammar
