namespace TableServer

/-- The parts between marks, one more than there are marks. -/
def splitMarks (isMark : Char → Bool) : List Char → List (List Char)
  | [] => [[]]
  | c :: rest =>
    if isMark c then [] :: splitMarks isMark rest
    else match splitMarks isMark rest with
      | [] => [[c]]
      | part :: parts => (c :: part) :: parts

end TableServer
