import TableServer.Store.Template.Fault

namespace TableServer.Template

/-- A field of a template. It has a path, and may have a conversion and a layout. -/
structure Field where
  path : List Char
  conversion : Option Char
  layout : List Char
  deriving DecidableEq, Repr

/-- The path of a field, and what follows it from its end mark on. Marks inside brackets are no end. -/
def splitPath (inBrackets : Bool) : List Char → List Char × List Char
  | [] => ([], [])
  | c :: rest =>
    if !inBrackets && (c = '\x7b' || c = '\x7d' || c = ':' || c = '!') then ([], c :: rest)
    else
      let (path, after) := splitPath (if inBrackets then c != ']' else c = '[') rest
      (c :: path, after)

/-- The layout of a field up to the brace that closes the field; `depth` counts the braces open inside. -/
def splitLayout (depth : Nat) : List Char → Option (List Char × List Char)
  | [] => none
  | c :: rest =>
    if c = '\x7d' then
      match depth with
      | 0 => some ([], rest)
      | depth + 1 => (splitLayout depth rest).map fun (layout, after) => (c :: layout, after)
    else
      let depth := if c = '\x7b' then depth + 1 else depth
      (splitLayout depth rest).map fun (layout, after) => (c :: layout, after)

def withLayout (path : List Char) (conversion : Option Char) (cs : List Char) :
    Except Fault (Field × List Char) :=
  match splitLayout 0 cs with
  | some (layout, after) => .ok (⟨path, conversion, layout⟩, after)
  | none => .error .openLayout

/-- Reads a field whose opening brace has been read, and gives what follows its closing brace. -/
def readField (cs : List Char) : Except Fault (Field × List Char) :=
  match splitPath false cs with
  | (path, '\x7d' :: after) => .ok (⟨path, none, []⟩, after)
  | (_, '\x7b' :: _) => .error .openingInName
  | (path, ':' :: rest) => withLayout path none rest
  | (_, ['!']) => .error .missingConversion
  | (path, '!' :: c :: '\x7d' :: after) => .ok (⟨path, some c, []⟩, after)
  | (path, '!' :: c :: ':' :: rest) => withLayout path (some c) rest
  | (_, ['!', _]) => .error .openLayout
  | (_, '!' :: _ :: _) => .error .afterConversion
  | (_, _) => .error .openField

/-- What follows the parts of a field is no longer than the text that they are read from, so that reading
a template comes to an end. -/
theorem splitPath_length (inBrackets : Bool) (cs : List Char) :
    (splitPath inBrackets cs).2.length ≤ cs.length := by
  induction cs generalizing inBrackets with
  | nil => exact Nat.le_refl _
  | cons c rest ih =>
    unfold splitPath
    split
    · exact Nat.le_refl _
    · exact Nat.le_succ_of_le (ih _)

theorem splitLayout_length {depth : Nat} {cs layout after : List Char}
    (h : splitLayout depth cs = some (layout, after)) : after.length ≤ cs.length := by
  induction cs generalizing depth layout with
  | nil => simp [splitLayout] at h
  | cons c rest ih =>
    unfold splitLayout at h
    split at h
    · cases depth with
      | zero =>
        simp only [Option.some.injEq, Prod.mk.injEq] at h
        exact h.2 ▸ Nat.le_succ _
      | succ depth =>
        obtain ⟨⟨layout', after'⟩, hs, he⟩ := Option.map_eq_some_iff.1 h
        cases he
        exact Nat.le_succ_of_le (ih hs)
    · obtain ⟨⟨layout', after'⟩, hs, he⟩ := Option.map_eq_some_iff.1 h
      cases he
      exact Nat.le_succ_of_le (ih hs)

theorem withLayout_length {path : List Char} {conversion : Option Char} {cs after : List Char}
    {f : Field} (h : withLayout path conversion cs = .ok (f, after)) : after.length ≤ cs.length := by
  unfold withLayout at h
  split at h
  · next layout after' hs =>
    cases h
    exact splitLayout_length hs
  · cases h

theorem readField_length {cs after : List Char} {f : Field} (h : readField cs = .ok (f, after)) :
    after.length ≤ cs.length := by
  have hp := splitPath_length false cs
  unfold readField at h
  split at h <;> simp_all
  · omega
  · have := withLayout_length h
    omega
  · omega
  · have := withLayout_length h
    omega

/-- A part of a template: a character as it stands, or a field. -/
inductive Part
  | char (c : Char)
  | field (f : Field)
  deriving DecidableEq, Repr

/-- The parts of a template in order; a fault ends them. -/
def parts (cs : List Char) : List (Except Fault Part) :=
  match cs with
  | [] => []
  | c :: rest =>
    if c = '\x7b' then
      match rest with
      | [] => [.error .openingAlone]
      | d :: after =>
        if d = '\x7b' then .ok (.char '\x7b') :: parts after
        else match _ : readField (d :: after) with
          | .ok (f, after') => .ok (.field f) :: parts after'
          | .error fault => [.error fault]
    else if c = '\x7d' then
      match rest with
      | d :: after => if d = '\x7d' then .ok (.char '\x7d') :: parts after else [.error .closingAlone]
      | [] => [.error .closingAlone]
    else .ok (.char c) :: parts rest
  termination_by cs.length
  decreasing_by
  · simp only [List.length_cons]; omega
  · rename_i h
    have := readField_length h
    simp only [List.length_cons] at this ⊢
    omega
  · simp only [List.length_cons]; omega
  · simp only [List.length_cons]; omega

end TableServer.Template
