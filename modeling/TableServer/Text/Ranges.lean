namespace TableServer

/-- Sets of characters given by closed intervals of code points, in ascending order. -/
abbrev Ranges := List (Nat × Nat)

def Ranges.holds (table : Ranges) (c : Char) : Bool :=
  table.any fun (first, last) => first ≤ c.toNat && c.toNat ≤ last

end TableServer
