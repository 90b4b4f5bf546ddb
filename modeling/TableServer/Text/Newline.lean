namespace TableServer

/-- Writes every line end, be it `\n`, `\r` or `\r\n`, as `\n`. -/
def unifyNewlines : List Char → List Char
  | [] => []
  | c :: rest =>
    if c = '\r' then
      match rest with
      | [] => ['\n']
      | d :: rest' => if d = '\n' then '\n' :: unifyNewlines rest' else '\n' :: unifyNewlines (d :: rest')
    else c :: unifyNewlines rest

end TableServer
