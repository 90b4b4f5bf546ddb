import TableServer.Statement.Lexeme

namespace TableServer

/-- The kinds of tokens, the last of which is the end of the text. -/
inductive TokenKind
  | word
  | string
  | star
  | equals
  | comma
  | opening
  | closing
  | semicolon
  | other
  | finish
  deriving DecidableEq, Repr

/-- A token at the characters from `start` up to `stop`. -/
structure Token where
  kind : TokenKind
  value : List Char
  start : Nat
  stop : Nat
  deriving DecidableEq, Repr

def TokenKind.ofMark (c : Char) : TokenKind :=
  if c = '*' then star
  else if c = '=' then equals
  else if c = ',' then comma
  else if c = '(' then opening
  else if c = ')' then closing
  else if c = ';' then semicolon
  else other

/-- The token of a lexeme that starts at a place. -/
def Lexeme.token? (start : Nat) (l : Lexeme) : Option Token :=
  let stop := start + l.text.length
  match l with
  | .blank _ => none
  | .word letters => some ⟨.word, letters, start, stop⟩
  | .quoted _ inner => some ⟨.string, inner, start, stop⟩
  | .mark c => some ⟨.ofMark c, [c], start, stop⟩

/-- The tokens of lexemes that start at a place, and one token more for the end. -/
def Token.ofLexemes (start : Nat) : List Lexeme → List Token
  | [] => [⟨.finish, [], start, start⟩]
  | l :: rest => (l.token? start).toList ++ ofLexemes (start + l.text.length) rest

/-- The lexemes of a text that are not blank, with their places in it. There are none if a quoted value is
not closed. -/
def tokens (text : List Char) : Option (List Token) :=
  (lexemes false text).map (Token.ofLexemes 0)

end TableServer
