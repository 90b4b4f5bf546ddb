import TableServer.Proofs.Statement.Decision
import TableServer.Statement.Print

namespace TableServer

theorem trimBoth_eq_self {p : Char → Bool} {cs : List Char} (hfirst : ∀ c ∈ cs.head?, p c = false)
    (hlast : ∀ c ∈ cs.getLast?, p c = false) : trimBoth p cs = cs := by
  have hdrop : ∀ ds : List Char, (∀ c ∈ ds.head?, p c = false) → ds.dropWhile p = ds := by
    intro ds hds
    cases ds with
    | nil => rfl
    | cons d ds => exact List.dropWhile_cons_of_neg (by simp [hds d rfl])
  rw [trimBoth, hdrop cs hfirst, hdrop, List.reverse_reverse]
  rw [List.head?_reverse]
  exact hlast

/-- A text is clean that starts with a letter, and ends without a blank and a NUL character. -/
theorem cleanChars_eq_self {cs : List Char} {first last : Char} (hfirst : cs.head? = some first)
    (hlast : cs.getLast? = some last) (hblank : isBlank first = false) (hblank' : isBlank last = false)
    (hnul : first ≠ '\x00') (hnul' : last ≠ '\x00') : cleanChars cs = cs := by
  have htrim : trimBoth isBlank cs = cs := by
    refine trimBoth_eq_self ?_ ?_
    · rw [hfirst]
      rintro c ⟨⟩
      exact hblank
    · rw [hlast]
      rintro c ⟨⟩
      exact hblank'
  have htrim' : trimBoth (· = '\x00') cs = cs := by
    refine trimBoth_eq_self ?_ ?_
    · rw [hfirst]
      rintro c ⟨⟩
      exact decide_eq_false hnul
    · rw [hlast]
      rintro c ⟨⟩
      exact decide_eq_false hnul'
  rw [cleanChars, htrim, htrim', htrim]

namespace Grammar

open Lexeme

theorem isItem_quoted {quote : Char} {inner : List Char} (hq : isQuote quote = true) (hi : quote ∉ inner) :
    IsItem (quote :: inner ++ [quote]) := by
  have hfits : (Lexeme.quoted quote inner).Fits true [] := ⟨rfl, hq, hi⟩
  refine ⟨(unbroken_text hfits).mpr id, ?_⟩
  change ((Scan.outside true).after (Lexeme.quoted quote inner).text).isOutside = true
  rw [Scan.after_text hfits]
  rfl

theorem isItem_word {letters : List Char} (h : IsWord letters) : IsItem letters := by
  obtain ⟨hne, hletters⟩ := isWord_iff.mp h
  have hfits : (Lexeme.word letters).Fits true [] := ⟨hne, hletters, fun c hc => by cases hc⟩
  refine ⟨(unbroken_text hfits).mpr id, ?_⟩
  change ((Scan.outside true).after (Lexeme.word letters).text).isOutside = true
  rw [Scan.after_text hfits]
  rfl

/-- A space behind a comma does not change whether a text is an item. -/
theorem isItem_gap_append {gap raw : List Char} (hg : Gap gap) (h : IsItem raw) : IsItem (gap ++ raw) := by
  have hrun : Unbroken (.outside true) gap :=
    unbroken_run (fun c hc => not_isBreak_of_isBlank (hg c hc))
      fun o c hc => by simp [Scan.next_blank o (hg c hc), Scan.isOutside]
  refine ⟨(unbroken_append _ gap raw).mpr ⟨hrun, ?_⟩, ?_⟩
  · rw [Scan.after_blanks true hg]
    exact h.1
  · rw [Scan.after_append, Scan.after_blanks true hg]
    exact h.2

theorem trimBoth_gap_append {gap : List Char} (hg : Gap gap) (raw : List Char) :
    trimBoth isBlank (gap ++ raw) = trimBoth isBlank raw := by
  rw [trimBoth, List.dropWhile_append_of_pos hg]
  rfl

theorem gap_nil : Gap [] := nofun

theorem gap_space : Gap [' '] := by
  intro c hc
  obtain rfl := List.mem_singleton.mp hc
  rfl

/-- A list of two items with a space behind the comma. -/
theorem isList_pair {first second : List Char} {value value' : String} (hfirst : IsItem first)
    (hsecond : IsItem second) (hvalue : Stands (trimBoth isBlank first) value.toList)
    (hvalue' : Stands (trimBoth isBlank second) value'.toList) (hsolid : ¬ Gap first) :
    IsList ('(' :: (first ++ ',' :: ' ' :: second) ++ [')']) [value, value'] := by
  refine ⟨_, rfl, fun hg => hsolid fun c hc => hg c (List.mem_append_left _ hc), ?_⟩
  have hlast : Items (' ' :: second) [String.ofList value'.toList] := by
    refine .last (isItem_gap_append gap_space hsecond) ?_
    exact (trimBoth_gap_append gap_space second).symm ▸ hvalue'
  have hitems := Items.more hfirst hvalue hlast
  rwa [String.ofList_toList, String.ofList_toList] at hitems

theorem not_gap_of_head {c : Char} {cs : List Char} (h : isBlank c = false) : ¬ Gap (c :: cs) := by
  intro hg
  rw [hg c List.mem_cons_self] at h
  contradiction

theorem stands_quoted {quote : Char} {inner : List Char} (hq : isQuote quote = true) (hi : quote ∉ inner) :
    Stands (trimBoth isBlank (quote :: inner ++ [quote])) inner := by
  have hblank := not_isBlank_of_isQuote hq
  rw [trimBoth_eq_self]
  · exact .quoted ((isQuote_iff quote).mp hq) hi
  · rintro c ⟨⟩
    exact hblank
  · rw [List.getLast?_concat]
    rintro c ⟨⟩
    exact hblank

/-- Two values in quotes, as clients write them, each in a quote of its choice. -/
theorem isList_quoted {q q' : Char} {name description : String} (hq : isQuote q = true)
    (hq' : isQuote q' = true) (hname : q ∉ name.toList) (hdescription : q' ∉ description.toList) :
    IsList ('(' :: ((q :: name.toList ++ [q]) ++ ',' :: ' ' :: (q' :: description.toList ++ [q'])) ++ [')'])
      [name, description] :=
  isList_pair (isItem_quoted hq hname) (isItem_quoted hq' hdescription) (stands_quoted hq hname)
    (stands_quoted hq' hdescription) (not_gap_of_head (not_isBlank_of_isQuote hq))

theorem stands_word {letters : List Char} (h : IsWord letters) : Stands (trimBoth isBlank letters) letters := by
  obtain ⟨_, hletters⟩ := isWord_iff.mp h
  have hblank : ∀ c ∈ letters, isBlank c = false := fun c hc => not_isBlank_of_isWordChar (hletters c hc)
  rw [trimBoth_eq_self (fun c hc => hblank c (List.mem_of_head? hc))
    fun c hc => hblank c (List.mem_of_getLast? hc)]
  refine .bare fun quote inner hq _ heq => ?_
  have hword := hletters quote (heq ▸ List.mem_cons_self)
  rw [not_isWordChar_of_isQuote ((isQuote_iff quote).mpr hq)] at hword
  contradiction

theorem isWord_of_all {letters : List Char} (hne : letters ≠ []) (h : letters.all isWordChar = true) :
    IsWord letters :=
  isWord_iff.mpr ⟨hne, List.all_eq_true.mp h⟩

theorem isList_columns : IsList "(name, description)".toList ["name", "description"] := by
  have hname : IsWord "name".toList := isWord_of_all (by decide) (by decide)
  have hdescription : IsWord "description".toList := isWord_of_all (by decide) (by decide)
  exact isList_pair (isItem_word hname) (isItem_word hdescription) (stands_word hname)
    (stands_word hdescription) (not_gap_of_head (by decide))

end Grammar

/-- The statement that stores a name and a description, each in quotes of its own choice. -/
def insertChars (table : String) (q : Char) (name : String) (q' : Char) (description : String) : List Char :=
  "INSERT INTO ".toList ++ table.toList ++ " (name, description) VALUES ".toList ++
    '(' :: ((q :: name.toList ++ [q]) ++ ',' :: ' ' :: (q' :: description.toList ++ [q'])) ++ [')']

open Grammar

section

variable {table : String} {first second : List Char} {columns values : List String}

theorem isSelect_plain (htable : IsWord table.toList) (rest : List Char) :
    IsSelect ("SELECT * FROM ".toList ++ table.toList ++ rest) table rest := by
  have hfront : "SELECT * FROM ".toList =
      "SELECT".toList ++ [' '] ++ '*' :: [' '] ++ "FROM".toList ++ [' '] := rfl
  refine ⟨[], "SELECT".toList, [' '], [' '], "FROM".toList, [' '], ?_, gap_nil, gap_space, gap_space,
    gap_space, List.cons_ne_nil _ _, rfl, rfl, htable⟩
  rw [hfront, List.nil_append]

theorem isInsert_plain (htable : IsWord table.toList) (hfirst : IsList first columns)
    (hsecond : IsList second values) :
    IsInsert ("INSERT INTO ".toList ++ table.toList ++ ' ' :: first ++ " VALUES ".toList ++ second)
      table columns values := by
  have hfront : "INSERT INTO ".toList = "INSERT".toList ++ [' '] ++ "INTO".toList ++ [' '] := rfl
  have hmiddle : " VALUES ".toList = [' '] ++ "VALUES".toList ++ [' '] := rfl
  refine ⟨[], "INSERT".toList, [' '], "INTO".toList, [' '], [' '], first, [' '],
    "VALUES".toList, [' '], second, [], ?_, gap_nil, gap_space, gap_space, gap_space, gap_space, gap_space,
    List.cons_ne_nil _ _, List.cons_ne_nil _ _, rfl, rfl, rfl, htable, hfirst, hsecond, .inl gap_nil⟩
  -- The literals are opaque to the rewriting, which would compare their characters.
  generalize "INSERT INTO ".toList = front at hfront
  generalize " VALUES ".toList = middle at hmiddle
  rw [hfront, hmiddle]
  simp only [List.append_assoc, List.nil_append, List.append_nil, List.cons_append]

end

theorem isInsert_insertChars {table name description : String} {q q' : Char} (htable : IsWord table.toList)
    (hq : Lexeme.isQuote q = true) (hq' : Lexeme.isQuote q' = true) (hname : q ∉ name.toList)
    (hdescription : q' ∉ description.toList) :
    IsInsert (insertChars table q name q' description) table ["name", "description"] [name, description] := by
  have hmiddle : " (name, description) VALUES ".toList = ' ' :: "(name, description)".toList ++ " VALUES ".toList :=
    rfl
  have := isInsert_plain htable isList_columns (isList_quoted hq hq' hname hdescription)
  unfold insertChars
  generalize " (name, description) VALUES ".toList = middle at hmiddle
  rw [hmiddle]
  simpa only [List.append_assoc, List.cons_append] using this

/-- The statement is parsed as the insertion of exactly these two texts: no character of them counts, whatever it
means outside of quotes. -/
theorem parse_insertChars (limit : Nat) {table name description : String} {q q' : Char}
    (htable : IsWord table.toList) (hq : Lexeme.isQuote q = true) (hq' : Lexeme.isQuote q' = true)
    (hname : q ∉ name.toList) (hdescription : q' ∉ description.toList) :
    parse limit (String.ofList (insertChars table q name q' description)) =
      .ok (.insert ⟨table, [("name", name), ("description", description)]⟩) := by
  have hclean : cleanChars (insertChars table q name q' description) =
      insertChars table q name q' description :=
    cleanChars_eq_self rfl List.getLast?_concat (by decide) (by decide) (by decide) (by decide)
  rw [parse, String.toList_ofList, hclean, parseChars_insert_iff]
  exact isInsert_insertChars htable hq hq' hname hdescription

theorem toList_toString_natCast (n : Nat) : (toString (n : Int)).toList = Nat.toDigits 10 n := by
  change (Nat.repr n).toList = _
  rw [Nat.repr, String.toList_ofList]

theorem isSelectById_printChars {limit : Nat} {table : String} {id : Nat} (htable : IsWord table.toList)
    (hdigits : (Nat.toDigits 10 id).length ≤ 4300)
    (hlimit : limit = 0 ∨ (Nat.toDigits 10 id).length ≤ limit) :
    IsSelectById limit (Command.selectById table id).printChars table id := by
  have hmiddle : " WHERE id = ".toList =
      [' '] ++ "WHERE".toList ++ [' '] ++ "id".toList ++ [' '] ++ '=' :: [' '] := rfl
  have hselect : IsSelect (Command.selectById table id).printChars table
      ([' '] ++ "WHERE".toList ++ [' '] ++ "id".toList ++ [' '] ++ '=' :: [' '] ++ Nat.toDigits 10 id ++ []) := by
    have := isSelect_plain htable (" WHERE id = ".toList ++ Nat.toDigits 10 id)
    change IsSelect ("SELECT * FROM ".toList ++ table.toList ++ " WHERE id = ".toList ++ (toString (id : Int)).toList) _ _
    rw [toList_toString_natCast, List.append_assoc, ← hmiddle, List.append_nil]
    exact this
  have hdigit : ∀ c ∈ Nat.toDigits 10 id, c.isDigit = true := fun c hc =>
    Nat.isDigit_of_mem_toDigits (by decide) (by decide) hc
  exact ⟨[' '], "WHERE".toList, [' '], "id".toList, [' '], [' '], Nat.toDigits 10 id, [], hselect, gap_space,
    gap_space, gap_space, gap_space, List.cons_ne_nil _ _, List.cons_ne_nil _ _, rfl, rfl,
    ⟨Nat.toDigits_ne_nil, hdigit, hdigits, hlimit, Nat.ofDigitChars_ten_toDigits⟩, .inl gap_nil⟩

theorem parse_printSelectById (limit : Nat) {table : String} {id : Nat} (htable : IsWord table.toList)
    (hdigits : (Nat.toDigits 10 id).length ≤ 4300)
    (hlimit : limit = 0 ∨ (Nat.toDigits 10 id).length ≤ limit) :
    parse limit (Command.selectById table id).print = .ok (.selectById table id) := by
  have hlast : ∃ c, (Command.selectById table id).printChars.getLast? = some c ∧ c.isDigit = true := by
    have hne : (Nat.toDigits 10 id).getLast? ≠ none := by simp [Nat.toDigits_ne_nil]
    obtain ⟨c, hc⟩ := Option.ne_none_iff_exists'.mp hne
    refine ⟨c, ?_, Nat.isDigit_of_mem_toDigits (by decide) (by decide) (List.mem_of_getLast? hc)⟩
    change ("SELECT * FROM ".toList ++ table.toList ++ " WHERE id = ".toList ++
      (toString (id : Int)).toList).getLast? = _
    rw [toList_toString_natCast, List.getLast?_append, hc, Option.some_or]
  obtain ⟨c, hlast, hc⟩ := hlast
  have hblank : isBlank c = false := Lexeme.not_isBlank_of_isWordChar (by simp [Lexeme.isWordChar, Char.isAlphanum, hc])
  have hclean : cleanChars (Command.selectById table id).printChars = (Command.selectById table id).printChars :=
    cleanChars_eq_self rfl hlast (by decide) hblank (by decide) (by rintro rfl; contradiction)
  rw [parse, Command.print, String.toList_ofList, hclean, parseChars_selectById_iff]
  exact ⟨id, rfl, isSelectById_printChars htable hdigits hlimit⟩

/-- A statement names its table by a word. -/
theorem isWord_of_parse {limit : Nat} {text : String} {c : Command} (h : parse limit text = .ok c) :
    IsWord c.table.toList := by
  cases c with
  | selectAll table =>
    obtain ⟨_, hselect, _⟩ := parseChars_selectAll_iff.mp h
    exact hselect.parts.1
  | selectById table id =>
    obtain ⟨_, _, hselect⟩ := parseChars_selectById_iff.mp h
    exact hselect.parts.1
  | insert i => exact (parseChars_insert_iff.mp h).parts.1

end TableServer
