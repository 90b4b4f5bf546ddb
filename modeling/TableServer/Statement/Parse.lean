import TableServer.Statement.Command
import TableServer.Statement.Lexeme

namespace TableServer

/-- Why a statement is no command. -/
inductive Rejection
  | openQuote
  | unsupported
  | countMismatch
  deriving DecidableEq, Repr

def Rejection.message : Rejection → String
  | openQuote => "unterminated quoted value"
  | unsupported => "unsupported command"
  | countMismatch => "column/value count mismatch"

/-- The statement proper: blanks around it go, then NUL characters, then blanks once more. -/
def cleanChars (text : List Char) : List Char :=
  trimBoth isBlank (trimBoth (· = '\x00') (trimBoth isBlank text))

def cleanStatement (text : String) : String := String.ofList (cleanChars text.toList)

namespace Statement

def isKeyword (keyword : String) (letters : List Char) : Bool :=
  letters.map Char.toUpper == keyword.toList

/-- The longest id that a statement can ask for. -/
def idDigits : Nat := 4300

/-- An id in digits, unless it is longer than `limit`; a limit of zero is none. -/
def readId? (limit : Nat) (letters : List Char) : Option Nat :=
  if letters.all Char.isDigit ∧ letters.length ≤ idDigits ∧ (limit = 0 ∨ letters.length ≤ limit) then
    some (Nat.ofDigitChars 10 letters 0)
  else none

def isEnd (rest : List Lexeme) : Bool := rest = [] || rest = [.mark ';']

/-- What follows `SELECT`, without blanks. -/
def select? (limit : Nat) (ls : List Lexeme) : Option Command :=
  match ls with
  | .mark '*' :: .word from_ :: .word table :: rest =>
    if !isKeyword "FROM" from_ then none
    else match rest with
      | .word where_ :: rest =>
        if !isKeyword "WHERE" where_ then none
        else match rest with
          | .word column :: .mark '=' :: .word digits :: rest =>
            if isKeyword "ID" column && isEnd rest then
              (readId? limit digits).map fun id => .selectById (String.ofList table) id
            else none
          | _ => none
      | rest => if isEnd rest then some (.selectAll (String.ofList table)) else none
  | _ => none

def skipBlanks (ls : List Lexeme) : List Lexeme := ls.dropWhile Lexeme.isBlank

/-- The items of a list whose opening parenthesis has been read, as lexemes, and what follows the first
closing parenthesis. -/
def items? : List Lexeme → Option (List (List Lexeme) × List Lexeme)
  | [] => none
  | l :: rest =>
    if l = .mark ')' then some ([[]], rest)
    else match items? rest with
      | none => none
      | some (items, after) =>
        if l = .mark ',' then some ([] :: items, after)
        else match items with
          | [] => none
          | item :: items => some ((l :: item) :: items, after)

/-- Blanks around an item go; quotes around all of it go as well. -/
def itemText (item : List Lexeme) : List Char :=
  let solid := (skipBlanks (skipBlanks item).reverse).reverse
  match solid with
  | [.quoted _ inner] => inner
  | ls => ls.flatMap Lexeme.text

/-- A list in parentheses with at least one item, be it empty. -/
def list? (ls : List Lexeme) : Option (List String × List Lexeme) :=
  match skipBlanks ls with
  | .mark '(' :: rest =>
    if (skipBlanks rest).head? = some (.mark ')') then none
    else do
      let (items, after) ← items? rest
      some (items.map fun item => String.ofList (itemText item), after)
  | _ => none

/-- What follows `INSERT`: the table with both lists. -/
def insert? (ls : List Lexeme) : Option (String × List String × List String) :=
  match skipBlanks ls with
  | .word into :: rest =>
    match skipBlanks rest with
    | .word table :: rest => do
      let (columns, rest) ← list? rest
      match skipBlanks rest with
      | .word values :: rest =>
        let (written, rest) ← list? rest
        if isKeyword "INTO" into && isKeyword "VALUES" values && isEnd (rest.filter Lexeme.isSolid)
        then some (String.ofList table, columns, written) else none
      | _ => none
    | _ => none
  | _ => none

/-- The command that lexemes spell. There are three forms, with keywords in any case and an optional
semicolon at the end: `SELECT * FROM table`, `SELECT * FROM table WHERE id = digits` and `INSERT INTO
table (column, ...) VALUES (value, ...)`. -/
def command (limit : Nat) (ls : List Lexeme) : Except Rejection Command :=
  match skipBlanks ls with
  | .word verb :: rest =>
    if isKeyword "SELECT" verb then
      match select? limit (rest.filter Lexeme.isSolid) with
      | some c => .ok c
      | none => .error .unsupported
    else if isKeyword "INSERT" verb then
      match insert? rest with
      | some (table, columns, values) =>
        match Insertion.ofLists? table columns values with
        | some i => .ok (.insert i)
        | none => .error .countMismatch
      | none => .error .unsupported
    else .error .unsupported
  | _ => .error .unsupported

end Statement

/-- Parses a statement that has been cleaned. -/
def parseChars (limit : Nat) (text : List Char) : Except Rejection Command :=
  match lexemes false text with
  | none => .error .openQuote
  | some ls => Statement.command limit ls

/-- Parses a statement; `limit` bounds the digits of an id, and zero does not. -/
def parse (limit : Nat) (text : String) : Except Rejection Command :=
  parseChars limit (cleanChars text.toList)

end TableServer
