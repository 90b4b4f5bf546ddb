import TableServer.Proofs.Json.Bounds
import TableServer.Proofs.Statement.Cleaning

namespace TableServer

open Grammar Lexeme

/-- A text for an item: in a quote that it does not contain, and as it is where it contains both. -/
inductive WrittenItem (item : String) : List Char → Prop
  | quoted {quote : Char} (hq : isQuote quote = true) (hi : quote ∉ item.toList) :
    WrittenItem item (quote :: item.toList ++ [quote])
  | bare (hsingle : '\'' ∈ item.toList) (hdouble : '"' ∈ item.toList) : WrittenItem item item.toList

inductive WrittenItems : List String → List Char → Prop
  | last {item : String} {text : List Char} (h : WrittenItem item text) : WrittenItems [item] text
  | more {item : String} {items : List String} {text rest : List Char} (h : WrittenItem item text)
    (hrest : WrittenItems items rest) : WrittenItems (item :: items) (text ++ ',' :: ' ' :: rest)

/-- The plain texts of a command, one for each choice of quotes. -/
inductive Written : Command → List Char → Prop
  | selectAll (table : String) : Written (.selectAll table) ("SELECT * FROM ".toList ++ table.toList)
  | selectById (table : String) (id : Int) : Written (.selectById table id)
    ("SELECT * FROM ".toList ++ table.toList ++ " WHERE id = ".toList ++ (toString id).toList)
  | insert {i : Insertion} {columns values : List Char} (hc : WrittenItems i.columns columns)
    (hv : WrittenItems i.values values) : Written (.insert i)
      ("INSERT INTO ".toList ++ i.table.toList ++ ' ' :: ('(' :: columns ++ [')']) ++ " VALUES ".toList ++
        ('(' :: values ++ [')']))

/-- One quote at least is free to stand around an item. -/
def Quotable (item : String) : Prop := '\'' ∉ item.toList ∨ '"' ∉ item.toList

/-- An item without blanks around it that can stand in a list as it is. -/
def Bare (item : String) : Prop :=
  IsItem item.toList ∧ Stands (trimBoth isBlank item.toList) item.toList

/-- Commands that can be said in a statement, with items of a kind. -/
def Sayable (limit : Nat) (kind : String → Prop) : Command → Prop
  | .selectAll table => IsWord table.toList
  | .selectById table id => IsWord table.toList ∧ ∃ n : Nat, id = n ∧
    (Nat.toDigits 10 n).length ≤ 4300 ∧ (limit = 0 ∨ (Nat.toDigits 10 n).length ≤ limit)
  | .insert i => IsWord i.table.toList ∧ i.cells ≠ [] ∧ ∀ cell ∈ i.cells, kind cell.1 ∧ kind cell.2

section

variable {item : String} {items values : List String} {text inner gap : List Char}

theorem WrittenItem.isItem (h : WrittenItem item text) (hi : Quotable item ∨ Bare item) :
    IsItem text ∧ Stands (trimBoth isBlank text) item.toList ∧ ¬ Gap text := by
  cases h with
  | quoted hq hi =>
    exact ⟨isItem_quoted hq hi, stands_quoted hq hi, not_gap_of_head (not_isBlank_of_isQuote hq)⟩
  | bare hsingle hdouble =>
    obtain (hnot | hnot) | ⟨hitem, hstands⟩ := hi
    · exact (hnot hsingle).elim
    · exact (hnot hdouble).elim
    · exact ⟨hitem, hstands, fun hg => by have := hg _ hsingle; contradiction⟩

theorem Grammar.Items.gap_append (hg : Gap gap) (h : Items text values) : Items (gap ++ text) values := by
  cases h with
  | last hr hv => exact .last (isItem_gap_append hg hr) (by rwa [trimBoth_gap_append hg])
  | more hr hv h =>
    rw [← List.append_assoc]
    exact .more (isItem_gap_append hg hr) (by rwa [trimBoth_gap_append hg]) h

/-- Texts of items with commas between them are read as these items. The blanks behind the commas belong to no item.
-/
theorem WrittenItems.itemsOf (h : WrittenItems items inner) (hi : ∀ item ∈ items, Quotable item ∨ Bare item) :
    Items inner items ∧ ¬ Gap inner := by
  induction h with
  | last h =>
    obtain ⟨hitem, hstands, hsolid⟩ := h.isItem (hi _ List.mem_cons_self)
    have := Items.last hitem hstands
    rw [String.ofList_toList] at this
    exact ⟨this, hsolid⟩
  | more h _ ih =>
    obtain ⟨hitem, hstands, hsolid⟩ := h.isItem (hi _ List.mem_cons_self)
    obtain ⟨hrest, -⟩ := ih fun item hm => hi item (.tail _ hm)
    have := Items.more hitem hstands (hrest.gap_append gap_space)
    rw [String.ofList_toList] at this
    exact ⟨this, fun hg => hsolid fun c hc => hg c (List.mem_append_left _ hc)⟩

theorem WrittenItems.isList (h : WrittenItems items inner) (hi : ∀ item ∈ items, Quotable item ∨ Bare item) :
    IsList ('(' :: inner ++ [')']) items :=
  ⟨inner, rfl, (h.itemsOf hi).2, (h.itemsOf hi).1⟩

end

section

variable {limit : Nat}

/-- A text is clean that starts with a letter and ends with a character that is no filler. -/
theorem parse_ofList {text : List Char} {start stop : Char} (limit : Nat) (hfirst : text.head? = some start)
    (hstart : isFiller start = false) (hlast : text.getLast? = some stop) (hstop : isFiller stop = false) :
    parse limit (String.ofList text) = parseChars limit text := by
  obtain ⟨hblank, hnul⟩ := isFiller_eq_false_iff.mp hstart
  obtain ⟨hblank', hnul'⟩ := isFiller_eq_false_iff.mp hstop
  rw [parse, String.toList_ofList, cleanChars_eq_self hfirst hlast hblank hblank'
    (of_decide_eq_false hnul) (of_decide_eq_false hnul')]

theorem getLast?_isWord (front : List Char) {word : List Char} (h : IsWord word) :
    ∃ c, (front ++ word).getLast? = some c ∧ isFiller c = false := by
  obtain ⟨hne, hletters⟩ := isWord_iff.mp h
  obtain ⟨word, c, rfl⟩ := (List.eq_nil_or_concat' word).resolve_left hne
  exact ⟨c, by rw [← List.append_assoc, List.getLast?_concat], isFiller_of_isWordChar (hletters c (by simp))⟩

theorem columns_ne_nil {i : Insertion} (h : i.cells ≠ []) : i.columns ≠ [] ∧ i.values ≠ [] := by
  simpa [Insertion.columns, Insertion.values] using h

/-- Whatever quotes its items stand in, a command is parsed from its text. -/
theorem parse_of_written {c : Command} {text : List Char} (h : Written c text)
    (hc : Sayable limit (fun item => Quotable item ∨ Bare item) c) :
    parse limit (String.ofList text) = .ok c := by
  cases h with
  | selectAll table =>
    obtain ⟨last, hlast, hfiller⟩ := getLast?_isWord "SELECT * FROM ".toList hc
    rw [parse_ofList limit rfl (by decide) hlast hfiller, parseChars_selectAll_iff]
    refine ⟨[], ?_, .inl gap_nil⟩
    simpa using isSelect_plain hc []
  | selectById table id =>
    obtain ⟨htable, n, rfl, hdigits, hlimit⟩ := hc
    exact parse_printSelectById limit htable hdigits hlimit
  | @insert i columns values hcolumns hvalues =>
    obtain ⟨htable, -, hcells⟩ := hc
    have hfirst : IsList ('(' :: columns ++ [')']) i.columns := hcolumns.isList fun item hm => by
      obtain ⟨cell, hcell, rfl⟩ := List.mem_map.mp hm
      exact (hcells cell hcell).1
    have hsecond : IsList ('(' :: values ++ [')']) i.values := hvalues.isList fun item hm => by
      obtain ⟨cell, hcell, rfl⟩ := List.mem_map.mp hm
      exact (hcells cell hcell).2
    have hlast : (("INSERT INTO ".toList ++ i.table.toList ++ ' ' :: ('(' :: columns ++ [')']) ++
        " VALUES ".toList ++ ('(' :: values ++ [')'])) : List Char).getLast? = some ')' := by
      rw [← List.append_assoc, List.getLast?_concat]
    rw [parse_ofList limit rfl (by decide) hlast (by decide), parseChars_insert_iff]
    exact isInsert_plain htable hfirst hsecond

end

/-- An item is printed in one of its texts: in single quotes, in double quotes if it has single ones, or bare. -/
theorem writtenItem_printItem (item : String) : WrittenItem item (Command.printItem item) := by
  unfold Command.printItem
  dsimp only
  split
  case isTrue h => exact .quoted (by decide) (by simpa using h)
  case isFalse h =>
    split
    case isTrue h' => exact .quoted (by decide) (by simpa using h')
    case isFalse h' => exact .bare (by simpa using h) (by simpa using h')

theorem writtenItems_printItems {items : List String} (hne : items ≠ []) :
    WrittenItems items (Command.printItems items) := by
  induction items with
  | nil => contradiction
  | cons item items ih =>
    cases items with
    | nil => exact .last (writtenItem_printItem item)
    | cons item' items => exact .more (writtenItem_printItem item) (ih (by simp))

theorem written_printChars {limit : Nat} {kind : String → Prop} {c : Command} (h : Sayable limit kind c) :
    Written c c.printChars := by
  cases c with
  | selectAll table => exact .selectAll table
  | selectById table id => exact .selectById table id
  | insert i =>
    obtain ⟨hcolumns, hvalues⟩ := columns_ne_nil h.2.1
    exact .insert (writtenItems_printItems hcolumns) (writtenItems_printItems hvalues)

section

variable {raw value inner list digits : List Char} {values : List String}

/-- Without the blanks around it an item is an item still, since it holds the same regions. -/
theorem isItem_trimBoth (h : IsItem raw) : IsItem (trimBoth isBlank raw) := by
  obtain ⟨front, back, he, hfront, hback⟩ := exists_trimBoth isBlank raw
  obtain ⟨hunbroken, houtside⟩ := h
  rw [he, List.append_assoc, unbroken_append, Scan.after_blanks true hfront, unbroken_append] at hunbroken
  rw [he, List.append_assoc, Scan.after_append, Scan.after_blanks true hfront, Scan.after_append] at houtside
  refine ⟨hunbroken.2.1, ?_⟩
  have hquote := quote_of_after (s := .outside true) (fun _ hq => by cases hq) (trimBoth isBlank raw)
  generalize (Scan.outside true).after (trimBoth isBlank raw) = s at hquote houtside
  cases s with
  | outside opens => rfl
  | inside quote =>
    have hnot : quote ∉ back := by
      intro hmem
      have := hback quote hmem
      rw [not_isBlank_of_isQuote (hquote quote rfl)] at this
      contradiction
    rwa [Scan.after_inside hnot] at houtside

theorem trimBoth_trimBoth : trimBoth isBlank (trimBoth isBlank raw) = trimBoth isBlank raw :=
  trimBoth_eq_self head?_trimBoth getLast?_trimBoth

/-- What an item stands for can be written as an item again. -/
theorem quotable_or_bare (hr : IsItem raw) (hv : Stands (trimBoth isBlank raw) value) :
    Quotable (String.ofList value) ∨ Bare (String.ofList value) := by
  unfold Quotable Bare
  rw [String.toList_ofList]
  generalize ht : trimBoth isBlank raw = text at hv
  cases hv with
  | quoted hq hi =>
    rcases hq with rfl | rfl
    · exact .inl (.inl hi)
    · exact .inl (.inr hi)
  | bare hbare =>
    have htrim : trimBoth isBlank value = value := by rw [← ht, trimBoth_trimBoth]
    refine .inr ⟨ht ▸ isItem_trimBoth hr, ?_⟩
    rw [htrim]
    exact .bare hbare

/-- Every item of a list that has been read can be written again, so that bare items need no condition of their own.
-/
theorem Grammar.Items.writable (h : Items inner values) :
    values ≠ [] ∧ ∀ item ∈ values, Quotable item ∨ Bare item := by
  induction h with
  | last hr hv =>
    refine ⟨List.cons_ne_nil _ _, fun item hm => ?_⟩
    rw [List.mem_singleton.mp hm]
    exact quotable_or_bare hr hv
  | more hr hv _ ih =>
    refine ⟨List.cons_ne_nil _ _, fun item hm => ?_⟩
    rcases List.mem_cons.mp hm with rfl | hm
    · exact quotable_or_bare hr hv
    · exact ih.2 item hm

/-- A number is printed in no more digits than it was read from. -/
theorem length_toDigits_ofDigitChars (hne : digits ≠ []) (hd : ∀ c ∈ digits, c.isDigit = true) :
    (Nat.toDigits 10 (Nat.ofDigitChars 10 digits 0)).length ≤ digits.length := by
  have hlt := Json.ofDigitChars_lt hd 0
  rw [Nat.zero_add, Nat.one_mul] at hlt
  exact Json.length_toDigits_le hlt (Nat.le_refl _) (List.length_pos_iff.mpr hne)

end

/-- What has been parsed can be said again: its words are words, and its id has no more digits than were read. -/
theorem sayable_of_parse {limit : Nat} {text : String} {c : Command} (h : parse limit text = .ok c) :
    Sayable limit (fun item => Quotable item ∨ Bare item) c := by
  have hword := isWord_of_parse h
  cases c with
  | selectAll table => exact hword
  | selectById table id =>
    obtain ⟨n, rfl, hselect⟩ := parseChars_selectById_iff.mp h
    obtain ⟨_, _, digits, _, _, ⟨hne, hdigits, hlength, hlimit, rfl⟩, _⟩ := hselect.parts
    have hshorter := length_toDigits_ofDigitChars hne hdigits
    exact ⟨hword, _, rfl, hshorter.trans hlength, hlimit.imp_right hshorter.trans⟩
  | insert i =>
    obtain ⟨_, _, _, _, _, ⟨_, _, _, hfirst⟩, ⟨_, _, _, hsecond⟩, _⟩ := (parseChars_insert_iff.mp h).parts
    refine ⟨hword, fun hnil => hfirst.writable.1 (by rw [Insertion.columns, hnil]; rfl), fun cell hcell => ?_⟩
    exact ⟨hfirst.writable.2 _ (List.mem_map_of_mem hcell), hsecond.writable.2 _ (List.mem_map_of_mem hcell)⟩

/-- Printing and parsing undo each other. -/
structure PrintsBack (limit : Nat) : Prop where
  /-- A command is parsed from each of its texts, whatever is in its items. -/
  written : ∀ c text, Sayable limit Quotable c → Written c text → parse limit (String.ofList text) = .ok c
  /-- The text that is printed is one of them. -/
  printed : ∀ c, Sayable limit Quotable c → Written c c.printChars ∧ parse limit c.print = .ok c
  /-- No two commands have a text in common. -/
  unambiguous : ∀ c c' text, Sayable limit Quotable c → Sayable limit Quotable c' → Written c text →
    Written c' text → c = c'
  /-- What has been parsed is parsed again from each of its texts, those among them that have bare items. -/
  parsed : ∀ text c, parse limit text = .ok c →
    parse limit c.print = .ok c ∧ ∀ text', Written c text' → parse limit (String.ofList text') = .ok c
  /-- No text is parsed as a selection by a negative id. -/
  negative : ∀ text table (id : Int), id < 0 → parse limit text ≠ .ok (.selectById table id)

/-- Commands without negative ids and their texts belong together: parsing undoes printing, on all texts of a command,
and printing keeps what has been parsed. -/
theorem parse_print (limit : Nat) : PrintsBack limit := by
  have hquotable : ∀ {c text}, Sayable limit Quotable c → Written c text →
      parse limit (String.ofList text) = .ok c := by
    intro c text hc htext
    refine parse_of_written htext ?_
    cases c with
    | selectAll table => exact hc
    | selectById table id => exact hc
    | insert i => exact ⟨hc.1, hc.2.1, fun cell hm => (hc.2.2 cell hm).imp .inl .inl⟩
  constructor
  case written => exact fun c text => hquotable
  case printed =>
    intro c hc
    exact ⟨written_printChars hc, hquotable hc (written_printChars hc)⟩
  case unambiguous =>
    intro c c' text hc hc' htext htext'
    have := (hquotable hc htext).symm.trans (hquotable hc' htext')
    cases this
    rfl
  case parsed =>
    intro text c hparse
    have hc := sayable_of_parse hparse
    exact ⟨parse_of_written (written_printChars hc) hc, fun text' htext => parse_of_written htext hc⟩
  case negative =>
    intro text table id hid hparse
    obtain ⟨n, rfl, -⟩ := parseChars_selectById_iff.mp hparse
    omega

/-- Commas, parentheses and one kind of quote in the items are no part of the list. -/
theorem parse_print_marks :
    Sayable 4300 Quotable (.insert ⟨"t", [("name", "it's (a, b);"), ("a\"b", "\x00 ")]⟩) ∧
    parse 4300 (Command.print (.insert ⟨"t", [("name", "it's (a, b);"), ("a\"b", "\x00 ")]⟩)) =
      .ok (.insert ⟨"t", [("name", "it's (a, b);"), ("a\"b", "\x00 ")]⟩) := by
  have hsayable : Sayable 4300 Quotable (.insert ⟨"t", [("name", "it's (a, b);"), ("a\"b", "\x00 ")]⟩) := by
    refine ⟨isWord_of_all (by decide) (by decide), by decide, fun cell hm => ?_⟩
    rcases List.mem_pair.mp hm with rfl | rfl
    · exact ⟨.inl (by decide), .inr (by decide)⟩
    · exact ⟨.inl (by decide), .inl (by decide)⟩
  exact ⟨hsayable, ((parse_print 4300).printed _ hsayable).2⟩

/-- A negative id is printed with its sign, and the text is no selection. -/
theorem negativeId_unsupported : Command.print (.selectById "t" (-1)) = "SELECT * FROM t WHERE id = -1" ∧
    parse 4300 (Command.print (.selectById "t" (-1))) = .error .unsupported := by
  decide +kernel

end TableServer
