import TableServer.Text.Blank

namespace TableServer

/-- The pieces that a statement is made of: words, quoted values, marks and blanks. -/
inductive Lexeme
  | blank (run : List Char)
  | word (letters : List Char)
  | quoted (quote : Char) (inner : List Char)
  | mark (c : Char)
  deriving DecidableEq, Repr

namespace Lexeme

def isWordChar (c : Char) : Bool := c.isAlphanum || c = '_'

def isQuote (c : Char) : Bool := c = '\'' || c = '"'

/-- Marks after which a list item starts. -/
def opensItem (c : Char) : Bool := c = '(' || c = ','

def text : Lexeme → List Char
  | blank run => run
  | word letters => letters
  | quoted quote inner => quote :: inner ++ [quote]
  | mark c => [c]

def isBlank : Lexeme → Bool
  | blank _ => true
  | _ => false

def isSolid (l : Lexeme) : Bool := !l.isBlank

end Lexeme

theorem length_dropWhile_lt_cons (p : Char → Bool) (c : Char) (cs : List Char) :
    (cs.dropWhile p).length < (c :: cs).length :=
  Nat.lt_succ_of_le (List.dropWhile_suffix p).length_le

/-- Splits a text into lexemes; `opens` says that a list item starts here. A quote opens a quoted value
only there, which is after a parenthesis or a comma; elsewhere it is a character like others. Written out
in order the lexemes are the text again. There are none if a quoted value is not closed. -/
def lexemes (opens : Bool) : List Char → Option (List Lexeme)
  | [] => some []
  | c :: rest =>
    if TableServer.isBlank c then do
      let ls ← lexemes opens (rest.dropWhile TableServer.isBlank)
      some (.blank (c :: rest.takeWhile TableServer.isBlank) :: ls)
    else if Lexeme.isWordChar c then do
      let ls ← lexemes false (rest.dropWhile Lexeme.isWordChar)
      some (.word (c :: rest.takeWhile Lexeme.isWordChar) :: ls)
    else if opens && Lexeme.isQuote c then
      if rest.contains c then do
        let ls ← lexemes false ((rest.dropWhile (· ≠ c)).drop 1)
        some (.quoted c (rest.takeWhile (· ≠ c)) :: ls)
      else none
    else do
      let ls ← lexemes (Lexeme.opensItem c) rest
      some (.mark c :: ls)
  termination_by cs => cs.length
  decreasing_by
  · exact length_dropWhile_lt_cons _ c rest
  · exact length_dropWhile_lt_cons _ c rest
  · exact Nat.lt_of_le_of_lt (List.drop_suffix 1 _).length_le (length_dropWhile_lt_cons _ c rest)
  · exact Nat.lt_succ_self _

end TableServer
