namespace TableServer.Punycode

/-- A digit of base thirty-six. -/
def digit (n : Nat) : Char := if n < 26 then Char.ofNat ('a'.toNat + n) else Char.ofNat ('0'.toNat + n - 26)

/-- Below this a digit is the last of its number. -/
def limit (bias place : Nat) : Nat := min 26 (max 1 (place - bias))

theorem limit_pos (bias place : Nat) : 0 < limit bias place := by
  unfold limit
  omega

/-- A number with its least digit first; the digits before the last are at or above their limits. -/
def digits (bias place n : Nat) : List Char :=
  if n < limit bias place then [digit n]
  else
    let room := 36 - limit bias place
    digit (limit bias place + (n - limit bias place) % room) ::
      digits bias (place + 36) ((n - limit bias place) / room)
  termination_by n
  decreasing_by
    have := limit_pos bias place
    have := Nat.div_le_self (n - limit bias place) (36 - limit bias place)
    omega

/-- Divides a number until it is small; `bias` grows by a place with each step. -/
def scale (n bias : Nat) : Nat × Nat :=
  if 455 < n then scale (n / 35) (bias + 36) else (n, bias)
  termination_by n
  decreasing_by exact Nat.div_lt_self (by omega) (by omega)

/-- The bias after a number, which fits the next to its size. -/
def nextBias (n count : Nat) (first : Bool) : Nat :=
  let n := if first then n / 700 else n / 2
  let (n, bias) := scale (n + n / count) 0
  bias + 36 * n / (n + 38)

/-- What is written, and the distance from there. -/
structure Progress where
  written : List Char
  distance : Nat
  bias : Nat
  /-- How many characters have been written. -/
  count : Nat

/-- Passes a character of the text on the way for the characters equal to `c`. -/
def pass (plain : Nat) (c : Char) (p : Progress) (d : Char) : Progress :=
  if d < c then { p with distance := p.distance + 1 }
  else if d = c then ⟨p.written ++ digits p.bias 36 p.distance, 0,
    nextBias p.distance (p.count + 1) (p.count = plain), p.count + 1⟩
  else p

/-- Writes characters, given in ascending order; `next` is the number after the one before. -/
def writeAll (plain : Nat) (text : List Char) (next : Nat) (p : Progress) : List Char → List Char
  | [] => p.written
  | c :: rest =>
    let p := { p with distance := p.distance + (c.toNat - next) * (p.count + 1) }
    let p := text.foldl (pass plain c) p
    writeAll plain text (c.toNat + 1) { p with distance := p.distance + 1 } rest

/-- A text in letters, digits and hyphens alone. The characters of ASCII come first; behind a hyphen
follow the others in ascending order, each as the number of places and characters that it lies behind the
one before. -/
def encode (text : List Char) : List Char :=
  let plain := text.filter fun c => c.toNat < 128
  let others := (text.filter fun c => 128 ≤ c.toNat).eraseDups.mergeSort fun a b => decide (a ≤ b)
  plain ++ (if plain.isEmpty then [] else ['-']) ++
    writeAll plain.length text 128 ⟨[], 0, 72, plain.length⟩ others

end TableServer.Punycode
