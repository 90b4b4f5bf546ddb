import TableServer.Statement.Parse

namespace TableServer.Grammar

/-- Where a scan stands that reads a text from left to right, once, character by character. Outside of quoted regions
it knows whether the last character that is no blank is one that an item can start after. -/
inductive Scan
  | outside (opens : Bool)
  | inside (quote : Char)
  deriving DecidableEq, Repr

namespace Scan

def next : Scan → Char → Scan
  | outside opens, c =>
    if isBlank c then outside opens
    else if opens ∧ (c = '\'' ∨ c = '"') then inside c
    else outside (c = '(' ∨ c = ',')
  | inside quote, c => if c = quote then outside false else inside quote

def after (s : Scan) (text : List Char) : Scan := text.foldl next s

def isOutside : Scan → Bool
  | outside _ => true
  | inside _ => false

end Scan

/-- Every quoted region of a text is closed. -/
def Closed (text : List Char) : Prop := ((Scan.outside false).after text).isOutside = true

/-- No comma and no closing parenthesis is met outside of quoted regions. -/
def Unbroken (s : Scan) : List Char → Prop
  | [] => True
  | c :: rest => (s.isOutside = true → c ≠ ',' ∧ c ≠ ')') ∧ Unbroken (s.next c) rest

/-- The text of an item, blanks around it included. -/
def IsItem (raw : List Char) : Prop :=
  Unbroken (.outside true) raw ∧ ((Scan.outside true).after raw).isOutside = true

/-- What a text without blanks around it stands for: what is between the quotes, if it is one quoted region,
and else itself. -/
inductive Stands : List Char → List Char → Prop
  | quoted {quote : Char} {inner : List Char} (hq : quote = '\'' ∨ quote = '"') (hi : quote ∉ inner) :
    Stands (quote :: inner ++ [quote]) inner
  | bare {text : List Char}
    (h : ∀ quote inner, (quote = '\'' ∨ quote = '"') → quote ∉ inner → text ≠ quote :: inner ++ [quote]) :
    Stands text text

/-- Items between commas, with what they stand for. -/
inductive Items : List Char → List String → Prop
  | last {raw value : List Char} (hr : IsItem raw) (hv : Stands (trimBoth isBlank raw) value) :
    Items raw [String.ofList value]
  | more {raw value rest : List Char} {values : List String} (hr : IsItem raw)
    (hv : Stands (trimBoth isBlank raw) value) (h : Items rest values) :
    Items (raw ++ ',' :: rest) (String.ofList value :: values)

def Gap (text : List Char) : Prop := ∀ c ∈ text, isBlank c = true

/-- A list in parentheses, which may not be left blank. -/
def IsList (text : List Char) (values : List String) : Prop :=
  ∃ inner, text = '(' :: inner ++ [')'] ∧ ¬ Gap inner ∧ Items inner values

def IsWord (text : List Char) : Prop := text ≠ [] ∧ ∀ c ∈ text, c.isAlphanum = true ∨ c = '_'

/-- A keyword in any case. -/
def Spells (keyword : String) (text : List Char) : Prop := text.map Char.toUpper = keyword.toList

/-- The end of a statement, with a semicolon or without one. -/
def IsEnd (text : List Char) : Prop :=
  Gap text ∨ ∃ before after, text = before ++ ';' :: after ∧ Gap before ∧ Gap after

/-- A selection up to its table, and `rest` behind that. -/
def IsSelect (text : List Char) (table : String) (rest : List Char) : Prop :=
  ∃ gap select gap₁ gap₂ from_ gap₃,
    text = gap ++ select ++ gap₁ ++ '*' :: gap₂ ++ from_ ++ gap₃ ++ table.toList ++ rest ∧
    Gap gap ∧ Gap gap₁ ∧ Gap gap₂ ∧ Gap gap₃ ∧ gap₃ ≠ [] ∧
    Spells "SELECT" select ∧ Spells "FROM" from_ ∧ IsWord table.toList

def IsSelectAll (text : List Char) (table : String) : Prop :=
  ∃ rest, IsSelect text table rest ∧ IsEnd rest

/-- Digits of a number that can be an id, where `limit` bounds how many there are unless it is zero. -/
def IsId (limit : Nat) (digits : List Char) (id : Nat) : Prop :=
  digits ≠ [] ∧ (∀ c ∈ digits, c.isDigit = true) ∧ digits.length ≤ 4300 ∧
    (limit = 0 ∨ digits.length ≤ limit) ∧ Nat.ofDigitChars 10 digits 0 = id

def IsSelectById (limit : Nat) (text : List Char) (table : String) (id : Nat) : Prop :=
  ∃ gap₁ where_ gap₂ column gap₃ gap₄ digits rest,
    IsSelect text table (gap₁ ++ where_ ++ gap₂ ++ column ++ gap₃ ++ '=' :: gap₄ ++ digits ++ rest) ∧
    Gap gap₁ ∧ Gap gap₂ ∧ Gap gap₃ ∧ Gap gap₄ ∧ gap₁ ≠ [] ∧ gap₂ ≠ [] ∧
    Spells "WHERE" where_ ∧ Spells "ID" column ∧ IsId limit digits id ∧ IsEnd rest

def IsInsert (text : List Char) (table : String) (columns values : List String) : Prop :=
  ∃ gap insert gap₁ into gap₂ gap₃ first gap₄ values_ gap₅ second rest,
    text = gap ++ insert ++ gap₁ ++ into ++ gap₂ ++ table.toList ++ gap₃ ++ first ++ gap₄ ++ values_ ++
      gap₅ ++ second ++ rest ∧
    Gap gap ∧ Gap gap₁ ∧ Gap gap₂ ∧ Gap gap₃ ∧ Gap gap₄ ∧ Gap gap₅ ∧ gap₁ ≠ [] ∧ gap₂ ≠ [] ∧
    Spells "INSERT" insert ∧ Spells "INTO" into ∧ Spells "VALUES" values_ ∧ IsWord table.toList ∧
    IsList first columns ∧ IsList second values ∧ IsEnd rest

section

variable {text rest : List Char} {table : String}

theorem IsSelect.parts (h : IsSelect text table rest) :
    IsWord table.toList ∧ ∃ front, text = front ++ table.toList ++ rest := by
  obtain ⟨_, _, _, _, _, _, rfl, _, _, _, _, _, _, _, hword⟩ := h
  exact ⟨hword, _, rfl⟩

theorem IsSelectById.parts {limit id : Nat} (h : IsSelectById limit text table id) :
    IsWord table.toList ∧ ∃ front digits rest, text = front ++ digits ++ rest ∧ IsId limit digits id ∧ IsEnd rest := by
  obtain ⟨gap₁, where_, gap₂, column, gap₃, gap₄, digits, rest, hselect, _, _, _, _, _, _, _, _, hid, hend⟩ := h
  obtain ⟨hword, front, rfl⟩ := hselect.parts
  refine ⟨hword, front ++ table.toList ++ (gap₁ ++ where_ ++ gap₂ ++ column ++ gap₃ ++ '=' :: gap₄), digits, rest, ?_, hid, hend⟩
  simp

theorem IsInsert.parts {columns values : List String} (h : IsInsert text table columns values) :
    IsWord table.toList ∧ ∃ first second front rest, IsList first columns ∧ IsList second values ∧
      text = front ++ second ++ rest ∧ IsEnd rest := by
  obtain ⟨_, _, _, _, _, _, first, _, _, _, second, rest, rfl, _, _, _, _, _, _, _, _, _, _, _, hword, hfirst, hsecond,
    hend⟩ := h
  exact ⟨hword, first, second, _, rest, hfirst, hsecond, rfl, hend⟩

end

end TableServer.Grammar
