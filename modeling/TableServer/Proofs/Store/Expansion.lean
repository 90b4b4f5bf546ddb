import Mathlib.Data.List.Basic
import TableServer.Proofs.Store.Fields
import TableServer.Proofs.Store.Naming
import TableServer.Server.Settings

namespace TableServer

section

variable {α β ε : Type} {f g : α → Except ε β} {xs : List α}

theorem mapM_eq_error (h : ∃ x ∈ xs, ∃ e, f x = .error e) : ∃ e, xs.mapM f = .error e := by
  induction xs with
  | nil => simp at h
  | cons x xs ih =>
    rw [List.mapM_cons]
    cases hx : f x with
    | error e => exact ⟨e, rfl⟩
    | ok y =>
      obtain ⟨x', hmem, e, he⟩ := h
      obtain rfl | hmem := List.mem_cons.mp hmem
      · rw [hx] at he
        contradiction
      · obtain ⟨e', he'⟩ := ih ⟨x', hmem, e, he⟩
        exact ⟨e', by rw [he']; rfl⟩

theorem mapM_cons_eq_ok {x : α} {zs : List β} (h : (x :: xs).mapM f = .ok zs) :
    ∃ y ys, f x = .ok y ∧ xs.mapM f = .ok ys ∧ zs = y :: ys := by
  rw [List.mapM_cons] at h
  cases hx : f x with
  | error e =>
    rw [hx] at h
    cases h
  | ok y =>
    cases hxs : xs.mapM f with
    | error e =>
      rw [hx, hxs] at h
      cases h
    | ok ys =>
      rw [hx, hxs] at h
      cases h
      exact ⟨y, ys, rfl, rfl, rfl⟩

theorem exists_mapM_eq_ok (h : ∀ x ∈ xs, ∃ y, f x = .ok y) : ∃ ys, xs.mapM f = .ok ys := by
  induction xs with
  | nil => exact ⟨[], rfl⟩
  | cons x xs ih =>
    obtain ⟨y, hy⟩ := h x List.mem_cons_self
    obtain ⟨ys, hys⟩ := ih fun x' hx' => h x' (List.mem_cons_of_mem x hx')
    exact ⟨y :: ys, by rw [List.mapM_cons, hy, hys]; rfl⟩

theorem mem_mapM_iff {ys : List β} (h : xs.mapM f = .ok ys) (y : β) : y ∈ ys ↔ ∃ x ∈ xs, f x = .ok y := by
  induction xs generalizing ys with
  | nil =>
    cases h
    simp
  | cons x xs ih =>
    obtain ⟨y', ys', hx, hxs, rfl⟩ := mapM_cons_eq_ok h
    rw [List.mem_cons, ih hxs]
    simp [hx, eq_comm]

theorem exists_of_mapM_eq_ok {ys : List β} (h : xs.mapM f = .ok ys) : ∀ x ∈ xs, ∃ y ∈ ys, f x = .ok y := by
  induction xs generalizing ys with
  | nil => simp
  | cons x xs ih =>
    obtain ⟨y, ys', hx, hxs, rfl⟩ := mapM_cons_eq_ok h
    intro x' hx'
    obtain rfl | hx' := List.mem_cons.mp hx'
    · exact ⟨y, List.mem_cons_self, hx⟩
    · obtain ⟨y', hy', hfy'⟩ := ih hxs x' hx'
      exact ⟨y', List.mem_cons_of_mem y hy', hfy'⟩

theorem mapM_congr (h : ∀ x ∈ xs, f x = g x) : xs.mapM f = xs.mapM g := by
  induction xs with
  | nil => rfl
  | cons x xs ih =>
    rw [List.mapM_cons, List.mapM_cons, h x List.mem_cons_self, ih fun x' hx' => h x' (List.mem_cons_of_mem x hx')]

end

namespace Template

variable {cs path layout after : List Char} {f : Field} {c : Char}

/-- Nothing of a text is lost where it is split, here and at a layout, so that what is found in a part stands in the
pattern. -/
theorem eq_of_splitPath (inBrackets : Bool) (cs : List Char) :
    cs = (splitPath inBrackets cs).1 ++ (splitPath inBrackets cs).2 := by
  induction cs generalizing inBrackets with
  | nil => rfl
  | cons c rest ih =>
    unfold splitPath
    split
    · rfl
    · exact congrArg (c :: ·) (ih _)

theorem eq_of_splitLayout {depth : Nat} (h : splitLayout depth cs = some (layout, after)) :
    cs = layout ++ '\x7d' :: after := by
  induction cs generalizing depth layout with
  | nil => simp [splitLayout] at h
  | cons c rest ih =>
    unfold splitLayout at h
    split at h
    · next hc =>
      cases depth with
      | zero =>
        cases h
        simp [hc]
      | succ depth =>
        obtain ⟨⟨layout', after'⟩, hrest, he⟩ := Option.map_eq_some_iff.mp h
        cases he
        rw [ih hrest]
        rfl
    · obtain ⟨⟨layout', after'⟩, hrest, he⟩ := Option.map_eq_some_iff.mp h
      cases he
      rw [ih hrest]
      rfl

theorem splitLayout_of_withLayout {conversion : Option Char} (h : withLayout path conversion cs = .ok (f, after)) :
    ∃ layout, splitLayout 0 cs = some (layout, after) ∧ ⟨path, conversion, layout⟩ = f := by
  unfold withLayout at h
  split at h
  · next layout after' hsplit =>
    cases h
    exact ⟨layout, hsplit, rfl⟩
  · cases h

/-- A field ends at its path and conversion, or with a layout behind them. -/
theorem readField_cases (h : readField cs = .ok (f, after)) :
    ∃ front, (∀ c ∈ front, c ∈ f.path ∨ f.conversion = some c ∨ c = '!') ∧
      (cs = front ++ '\x7d' :: after ∧ f.layout = [] ∨
        ∃ rest, cs = front ++ ':' :: rest ∧ splitLayout 0 rest = some (f.layout, after)) := by
  have hcs := eq_of_splitPath false cs
  unfold readField at h
  split at h
  · next path after' hsplit =>
    cases h
    rw [hsplit] at hcs
    exact ⟨path, fun c hc => .inl hc, .inl ⟨hcs, rfl⟩⟩
  · cases h
  · next path rest hsplit =>
    obtain ⟨layout, hlayout, rfl⟩ := splitLayout_of_withLayout h
    rw [hsplit] at hcs
    exact ⟨path, fun c hc => .inl hc, .inr ⟨rest, hcs, hlayout⟩⟩
  · cases h
  · next path c after' hsplit =>
    cases h
    rw [hsplit] at hcs
    refine ⟨path ++ ['!', c], fun d hd => ?_, .inl ⟨by simpa using hcs, rfl⟩⟩
    simp only [List.mem_append, List.mem_cons, List.not_mem_nil, or_false] at hd
    grind
  · next path c rest hsplit =>
    obtain ⟨layout, hlayout, rfl⟩ := splitLayout_of_withLayout h
    rw [hsplit] at hcs
    refine ⟨path ++ ['!', c], fun d hd => ?_, .inr ⟨rest, by simpa using hcs, hlayout⟩⟩
    simp only [List.mem_append, List.mem_cons, List.not_mem_nil, or_false] at hd
    grind
  · cases h
  · cases h
  · cases h

/-- The layout is in the text of a field, and so is what follows. -/
theorem mem_of_readField (h : readField cs = .ok (f, after)) : (∀ c ∈ f.layout, c ∈ cs) ∧ ∀ c ∈ after, c ∈ cs := by
  obtain ⟨front, _, ⟨rfl, hlayout⟩ | ⟨rest, rfl, hlayout⟩⟩ := readField_cases h
  · simp +contextual [hlayout]
  · rw [eq_of_splitLayout hlayout]
    simp +contextual

/-- The fields of a pattern. -/
def fields (template : List Char) : List Field :=
  (parts template).filterMap fun
    | .ok (.field f) => some f
    | _ => none

theorem mem_fields {template : List Char} : f ∈ fields template ↔ .ok (.field f) ∈ parts template := by
  unfold fields
  rw [List.mem_filterMap]
  constructor
  · rintro ⟨part, hpart, hf⟩
    split at hf
    · cases hf
      exact hpart
    · cases hf
  · intro h
    exact ⟨_, h, rfl⟩

/-- The characters that a part of a pattern may put into names by itself. -/
def Part.written : Part → List Char
  | char c => [c]
  | field f => f.layout

theorem eq_or_mem_of_char {part : Part} {d : Char} {rest : List (Except Fault Part)}
    (h : .ok part ∈ .ok (.char d) :: rest) (hc : c ∈ part.written) : c = d ∨ .ok part ∈ rest := by
  obtain h | h := List.mem_cons.mp h
  · cases h
    exact .inl (List.mem_singleton.mp hc)
  · exact .inr h

/-- What a part puts into names by itself is written in the pattern. -/
theorem mem_of_mem_written {part : Part} (h : .ok part ∈ parts cs) (hc : c ∈ part.written) : c ∈ cs := by
  fun_induction parts cs with
  | case1 => simp at h
  | case2 => simp at h
  | case3 rest ih =>
    obtain rfl | h := eq_or_mem_of_char h hc
    · simp
    · simp [ih h]
  | case4 d rest _ f after hread ih =>
    obtain ⟨hlayout, hafter⟩ := mem_of_readField hread
    obtain h | h := List.mem_cons.mp h
    · cases h
      exact List.mem_cons_of_mem _ (hlayout c hc)
    · exact List.mem_cons_of_mem _ (hafter c (ih h))
  | case5 => simp at h
  | case6 after _ ih =>
    obtain rfl | h := eq_or_mem_of_char h hc
    · simp
    · simp [ih h]
  | case7 => simp at h
  | case8 => simp at h
  | case9 d rest _ _ ih =>
    obtain rfl | h := eq_or_mem_of_char h hc
    · simp
    · simp [ih h]

open Settings in
/-- The text of a field starts with a brace, or occurs behind the first character. -/
theorem occursIn_cons (h : occursIn tableField (c :: cs) = true) :
    (c = '\x7b' ∧ ∃ rest, cs = tableName ++ '\x7d' :: rest) ∨ occursIn tableField cs = true := by
  rw [occursIn, Bool.or_eq_true] at h
  obtain h | h := h
  · obtain ⟨rest, hrest⟩ := List.isPrefixOf_iff_prefix.mp h
    obtain ⟨rfl, rfl⟩ := List.cons.inj hrest
    exact .inl ⟨rfl, rest, rfl⟩
  · exact .inr h

open Settings in
/-- Text without braces can be passed over in looking for the text of a field. -/
theorem occursIn_append {text rest : List Char} (hno : '\x7b' ∉ text) (h : occursIn tableField (text ++ rest) = true) :
    occursIn tableField rest = true := by
  induction text with
  | nil => exact h
  | cons c text ih =>
    simp only [List.mem_cons, not_or] at hno
    obtain ⟨rfl, _⟩ | h := occursIn_cons h
    · exact absurd rfl hno.1
    · exact ih hno.2 h

theorem readField_tableName (rest : List Char) :
    readField (tableName ++ '\x7d' :: rest) = .ok (⟨tableName, none, []⟩, rest) := rfl

/-- A field is opened by a brace. -/
theorem opening_mem_of_mem_fields (h : f ∈ fields cs) : '\x7b' ∈ cs := by
  rw [mem_fields] at h
  fun_induction parts cs with
  | case1 => simp at h
  | case2 => simp at h
  | case3 => simp
  | case4 => simp
  | case5 => simp at h
  | case6 after _ ih => simp [ih (by simpa using h)]
  | case7 => simp at h
  | case8 => simp at h
  | case9 d rest _ _ ih => simp [ih (by simpa using h)]

open Settings in
theorem occursIn_iff {text : List Char} : occursIn text cs = true ↔ text <:+: cs := by
  induction cs with
  | nil => simp [occursIn]
  | cons c cs ih => rw [occursIn, Bool.or_eq_true, List.isPrefixOf_iff_prefix, ih, List.infix_cons_iff]

theorem mem_of_splitLayout_succ {depth : Nat} (h : splitLayout (depth + 1) cs = some (layout, after)) :
    '\x7d' ∈ layout := by
  induction cs generalizing depth layout with
  | nil => simp [splitLayout] at h
  | cons c rest ih =>
    unfold splitLayout at h
    split at h
    case isTrue hc =>
      obtain ⟨_, _, he⟩ := Option.map_eq_some_iff.mp h
      cases he
      exact hc ▸ List.mem_cons_self
    case isFalse =>
      obtain ⟨⟨layout', _⟩, hrest, he⟩ := Option.map_eq_some_iff.mp h
      cases he
      split at hrest
      · exact List.mem_cons_of_mem c (ih hrest)
      · exact List.mem_cons_of_mem c (ih hrest)

/-- A brace that is opened in a layout is closed in it. -/
theorem closing_mem_of_splitLayout {depth : Nat} {before behind : List Char}
    (h : splitLayout depth cs = some (before ++ '\x7b' :: behind, after)) : '\x7d' ∈ behind := by
  induction cs generalizing depth before with
  | nil => simp [splitLayout] at h
  | cons c rest ih =>
    unfold splitLayout at h
    split at h
    case isTrue hc =>
      cases depth with
      | zero => simp at h
      | succ depth =>
        obtain ⟨⟨layout', _⟩, hrest, he⟩ := Option.map_eq_some_iff.mp h
        obtain ⟨hlayout, rfl⟩ := Prod.mk.inj he
        obtain ⟨rfl, hopening⟩ | ⟨before, rfl, rfl⟩ := List.cons_eq_append_iff.mp hlayout
        · rw [hc] at hopening
          exact absurd (List.cons.inj hopening).1 (by decide)
        · exact ih hrest
    case isFalse =>
      obtain ⟨⟨layout', _⟩, hrest, he⟩ := Option.map_eq_some_iff.mp h
      obtain ⟨hlayout, rfl⟩ := Prod.mk.inj he
      obtain ⟨rfl, hopening⟩ | ⟨before, rfl, rfl⟩ := List.cons_eq_append_iff.mp hlayout
      · obtain ⟨rfl, rfl⟩ := List.cons.inj hopening
        rw [if_pos rfl] at hrest
        exact mem_of_splitLayout_succ hrest
      · exact ih hrest

open Settings in
/-- The text of a field does not go beyond the layout that it starts in. -/
theorem occursIn_of_splitLayout {rest : List Char} (h : splitLayout 0 rest = some (layout, after))
    (hlayout : occursIn tableField layout = false) (hoccurs : occursIn tableField rest = true) :
    occursIn tableField after = true := by
  rw [eq_of_splitLayout h] at hoccurs
  have hsuffix : ∀ before behind, layout = before ++ behind →
      occursIn tableField (behind ++ '\x7d' :: after) = true → occursIn tableField after = true := by
    intro before behind
    induction behind generalizing before with
    | nil => exact fun _ => @occursIn_append ['\x7d'] after (by decide)
    | cons c behind ih =>
      intro he hoccurs
      obtain ⟨rfl, rest', hstart⟩ | hoccurs := occursIn_cons hoccurs
      · have hclosing := closing_mem_of_splitLayout (he ▸ h)
        obtain ⟨front, back, rfl, hfront⟩ := List.eq_append_cons_of_mem hclosing
        change (front ++ '\x7d' :: back) ++ '\x7d' :: after = _ at hstart
        rw [List.append_assoc, List.cons_append] at hstart
        -- Both sides go on to their first closing brace alike.
        have hrun : ∀ d ∈ front, decide (d ≠ '\x7d') = true := by
          intro d hd
          refine decide_eq_true ?_
          rintro rfl
          exact hfront hd
        have hname := congrArg (List.takeWhile (fun d => decide (d ≠ '\x7d'))) hstart
        rw [takeWhile_run hrun (by simp), takeWhile_run (by simp [tableName]) (by simp)] at hname
        have hinfix : tableField <:+: layout := ⟨before, back, by rw [he, hname]; simp [tableField, tableName]⟩
        rw [occursIn_iff.mpr hinfix] at hlayout
        contradiction
      · exact ih (before ++ [c]) (by rw [he, List.append_assoc]; rfl) hoccurs
  exact hsuffix [] layout rfl hoccurs

open Settings in
/-- A field that the text of a field does not start in, neither in its path nor in its layout. -/
structure Field.IsBare (f : Field) : Prop where
  path : '\x7b' ∉ f.path
  conversion : f.conversion ≠ some '\x7b'
  layout : occursIn tableField f.layout = false

open Settings in
theorem occursIn_of_readField (h : readField cs = .ok (f, after)) (hbare : f.IsBare)
    (hoccurs : occursIn tableField cs = true) : occursIn tableField after = true := by
  obtain ⟨front, hfront, hcs⟩ := readField_cases h
  have hno : '\x7b' ∉ front := by
    intro hmem
    obtain hpath | hconversion | hmark := hfront _ hmem
    · exact hbare.path hpath
    · exact hbare.conversion hconversion
    · exact absurd hmark (by decide)
  obtain ⟨rfl, _⟩ | ⟨rest, rfl, hlayout⟩ := hcs
  · rw [List.append_cons] at hoccurs
    exact occursIn_append (by simpa using hno) hoccurs
  · rw [List.append_cons] at hoccurs
    exact occursIn_of_splitLayout hlayout hbare.layout (occursIn_append (by simpa using hno) hoccurs)

open Settings in
/-- The text of a field in a pattern is a field, or stands there as a text for a brace in it, where it is not in the layout
of another field. -/
theorem part_of_occursIn
    (hparts : ∀ part ∈ parts cs, (∃ c, part = .ok (.char c)) ∨ ∃ f, part = .ok (.field f) ∧ f.IsBare)
    (h : occursIn tableField cs = true) :
    .ok (.char '\x7b') ∈ parts cs ∨ .ok (.field ⟨tableName, none, []⟩) ∈ parts cs := by
  fun_induction parts cs with
  | case1 => exact absurd h (by decide)
  | case2 => simp at hparts
  | case3 => simp
  | case4 d rest hd f after hread ih =>
    simp only [List.forall_mem_cons] at hparts
    obtain ⟨hfield, hrest⟩ := hparts
    obtain ⟨_, hc⟩ | ⟨f', hf, hbare⟩ := hfield
    · cases hc
    cases hf
    obtain ⟨_, rest', hstart⟩ | h := occursIn_cons h
    · -- The text starts here, and is the text of this field.
      rw [hstart, readField_tableName] at hread
      cases hread
      simp
    · exact (ih hrest (occursIn_of_readField hread hbare h)).imp (List.mem_cons_of_mem _) (List.mem_cons_of_mem _)
  | case5 => simp at hparts
  | case6 after _ ih =>
    simp only [List.forall_mem_cons] at hparts
    have hno : '\x7b' ∉ ['\x7d', '\x7d'] := by decide
    exact (ih hparts.2 (occursIn_append hno h)).imp (List.mem_cons_of_mem _) (List.mem_cons_of_mem _)
  | case7 => simp at hparts
  | case8 => simp at hparts
  | case9 d rest hopening _ ih =>
    simp only [List.forall_mem_cons] at hparts
    have hno : '\x7b' ∉ [d] := by simpa using Ne.symm hopening
    exact (ih hparts.2 (occursIn_append hno h)).imp (List.mem_cons_of_mem _) (List.mem_cons_of_mem _)

variable {template name other : List Char}

/-- The piece that a part of a pattern makes of a name, where fields have `depth` levels of layouts to them. -/
def piece (name : List Char) (depth : Nat) : Except Fault Part → Except Fault (List Char)
  | .error fault => .error fault
  | .ok (.char c) => .ok [c]
  | .ok (.field f) => do
    let s ← convert f.conversion (← lookup name f.path)
    let layout ← if f.layout.contains '\x7b' then expandTo name depth f.layout else .ok f.layout
    layOut layout s

/-- A template is expanded part by part, and the pieces are put together. -/
theorem expandTo_eq (name : List Char) (depth : Nat) (template : List Char) :
    expandTo name (depth + 1) template = ((parts template).mapM (piece name depth)).map List.flatten := by
  rw [expandTo, mapM_congr (g := piece name depth)]
  · cases (parts template).mapM (piece name depth) <;> rfl
  · intro part _
    obtain fault | (c | f) := part <;> rfl

/-- What is made of a template is put together from what its parts have come to. -/
theorem expandTo_eq_ok_iff {depth : Nat} {shown : List Char} : expandTo name (depth + 1) template = .ok shown ↔
    ∃ pieces, (parts template).mapM (piece name depth) = .ok pieces ∧ pieces.flatten = shown := by
  rw [expandTo_eq, map_ok]

/-- What a field that stands for the name has come to: the name converted, in the layout or in what is made of it. -/
theorem piece_eq_ok {depth : Nat} {shown : List Char} (hpath : f.path = tableName)
    (h : piece name depth (.ok (.field f)) = .ok shown) :
    ∃ s layout, convert f.conversion (.text name) = .ok s ∧
      (layout = f.layout ∨ expandTo name depth f.layout = .ok layout) ∧ layOut layout s = .ok shown := by
  have hlookup : lookup name tableName = .ok (.text name) := rfl
  rw [piece, hpath, hlookup] at h
  obtain ⟨_, hname, h⟩ := bind_ok.mp h
  cases hname
  obtain ⟨s, hconvert, h⟩ := bind_ok.mp h
  dsimp only at h
  split at h
  · obtain ⟨layout, hlayout, h⟩ := bind_ok.mp h
    exact ⟨s, layout, hconvert, .inr hlayout, h⟩
  · exact ⟨s, f.layout, hconvert, .inl rfl, h⟩

theorem mem_toDigits_sixteen {n : Nat} (h : c ∈ Nat.toDigits 16 n) : ∃ d < 16, c = Nat.digitChar d := by
  induction n using Nat.strongRecOn with
  | ind n ih =>
    by_cases hn : n < 16
    · rw [Nat.toDigits_of_lt_base hn] at h
      exact ⟨n, hn, List.mem_singleton.mp h⟩
    · rw [Nat.toDigits_of_base_le (by decide) (by omega), List.mem_append, List.mem_singleton] at h
      obtain h | h := h
      · exact ih (n / 16) (by omega) h
      · exact ⟨n % 16, by omega, h⟩

theorem slash_not_mem_hexadecimal (width n : Nat) : '/' ∉ hexadecimal width n := by
  intro h
  obtain h | h := List.mem_append.mp h
  · exact absurd (List.eq_of_mem_replicate h) (by decide)
  · obtain ⟨d, hd, hslash⟩ := mem_toDigits_sixteen h
    have hall : ∀ d < 16, '/' ≠ Nat.digitChar d := by decide
    exact hall d hd hslash

/-- No escape has a slash in it. -/
theorem slash_not_mem_literalChar (keep : Char → Bool) {quote : Char} (hc : c ≠ '/') :
    '/' ∉ literalChar keep quote c := by
  unfold literalChar
  split
  · simp [Ne.symm hc]
  split
  · decide
  split
  · decide
  split
  · decide
  split
  · simp [Ne.symm hc]
  · unfold numericEscape
    split
    · simp [slash_not_mem_hexadecimal]
    split
    · simp [slash_not_mem_hexadecimal]
    · simp [slash_not_mem_hexadecimal]

theorem slash_not_mem_literalWith (keep : Char → Bool) (h : '/' ∉ name) :
    '/' ∉ (literalWith keep (String.ofList name)).toList := by
  have hquote : literalQuote name ≠ '/' := by
    unfold literalQuote
    split <;> decide
  have hchars : '/' ∉ name.flatMap (literalChar keep (literalQuote name)) := by
    intro hmem
    obtain ⟨d, hd, hslash⟩ := List.mem_flatMap.mp hmem
    exact slash_not_mem_literalChar keep (by rintro rfl; exact h hd) hslash
  simp [literalWith, Ne.symm hquote, hchars]

/-- A name in quotes or without them has a slash only if it has one itself. -/
theorem slash_not_mem_convert {conversion : Option Char} {s : Subject} (h : convert conversion (.text name) = .ok s)
    (hname : '/' ∉ name) : ∃ cs, s = .text cs ∧ '/' ∉ cs := by
  unfold convert at h
  cases conversion with
  | none =>
    cases h
    exact ⟨name, rfl, hname⟩
  | some c =>
    dsimp only at h
    split at h
    · cases h
      exact ⟨name, rfl, hname⟩
    split at h
    · cases h
      exact ⟨name, rfl, hname⟩
    split at h
    · cases h
      exact ⟨_, rfl, slash_not_mem_literalWith _ hname⟩
    split at h
    · cases h
      exact ⟨_, rfl, slash_not_mem_literalWith _ hname⟩
    · cases h

/-- A layout adds its filling and nothing else. -/
theorem slash_not_mem_layOut {cs shown : List Char} (h : layOut layout (.text cs) = .ok shown)
    (hlayout : '/' ∉ layout) (hcs : '/' ∉ cs) : '/' ∉ shown := by
  unfold layOut at h
  split at h
  · cases h
    exact hcs
  · dsimp only at h
    obtain ⟨l, hread, h⟩ := bind_ok.mp h
    obtain ⟨_, _, h⟩ := bind_ok.mp h
    cases h
    intro hmem
    obtain hfill | hmem := Layout.mem_text hmem
    · obtain hfill' | hfill' | hfill' := fill_of_readLayout hread
      · exact absurd (hfill.trans hfill') (by decide)
      · exact absurd (hfill.trans hfill') (by decide)
      · exact hlayout (hfill ▸ hfill')
    · exact hcs hmem

/-- A template whose fields stand for the name alone, and in whose layouts they do so again. What stands in it as a
text comes into names of files as it is. -/
def OnlyTable : Nat → List Char → Prop
  | 0, _ => True
  | depth + 1, template => ∀ f ∈ fields template, f.path = tableName ∧ OnlyTable depth f.layout

/-- No slash comes into a name of a file that is not written in the pattern. -/
theorem slash_not_mem_expandTo {depth : Nat} {shown : List Char} (honly : OnlyTable depth template)
    (hslash : '/' ∉ template) (hname : '/' ∉ name) (h : expandTo name depth template = .ok shown) : '/' ∉ shown := by
  induction depth generalizing template shown with
  | zero => cases h
  | succ depth ih =>
    obtain ⟨pieces, hpieces, rfl⟩ := expandTo_eq_ok_iff.mp h
    intro hmem
    obtain ⟨text, htext, hmem⟩ := List.mem_flatten.mp hmem
    obtain ⟨part, hpart, hpiece⟩ := (mem_mapM_iff hpieces text).mp htext
    obtain fault | (c | f) := part
    · cases hpiece
    · cases hpiece
      exact hslash (mem_of_mem_written hpart hmem)
    · obtain ⟨hpath, hinner⟩ := honly f (mem_fields.mpr hpart)
      have hlayout : '/' ∉ f.layout := fun h => hslash (mem_of_mem_written hpart h)
      obtain ⟨s, layout, hconvert, hfilled, hshown⟩ := piece_eq_ok hpath hpiece
      obtain ⟨cs, rfl, hcs⟩ := slash_not_mem_convert hconvert hname
      refine slash_not_mem_layOut hshown ?_ hcs hmem
      obtain rfl | hfilled := hfilled
      · exact hlayout
      · exact ih hinner hlayout hfilled

/-- What is made of a name shows a character that is no dot, if the text of a field is in the pattern, and in no layout. -/
theorem exists_mem_expandTo {depth : Nat} {shown : List Char} (honly : OnlyTable (depth + 1) template)
    (hlayouts : ∀ f ∈ fields template, Settings.occursIn Settings.tableField f.layout = false)
    (hfield : Settings.occursIn Settings.tableField template = true) (hname : ∃ c ∈ name, c ≠ '.')
    (h : expandTo name (depth + 1) template = .ok shown) : ∃ c ∈ shown, c ≠ '.' := by
  obtain ⟨pieces, hpieces, rfl⟩ := expandTo_eq_ok_iff.mp h
  have hpiece : ∀ part ∈ parts template, ∃ text ∈ pieces, piece name depth part = .ok text :=
    exists_of_mapM_eq_ok hpieces
  have hparts : ∀ part ∈ parts template,
      (∃ c, part = .ok (.char c)) ∨ ∃ f, part = .ok (.field f) ∧ f.IsBare := by
    intro part hpart
    obtain ⟨text, _, hshown⟩ := hpiece part hpart
    obtain fault | (c | f) := part
    · cases hshown
    · exact .inl ⟨c, rfl⟩
    · have hf := mem_fields.mpr hpart
      obtain ⟨hpath, _⟩ := honly f hf
      obtain ⟨s, _, hconvert, _⟩ := piece_eq_ok hpath hshown
      have hknown := (Field.convert_eq_ok hconvert).1
      refine .inr ⟨f, rfl, by rw [hpath]; decide, ?_, hlayouts f hf⟩
      intro hconversion
      rw [hconversion] at hknown
      exact absurd hknown (by decide)
  obtain hpart | hpart := part_of_occursIn hparts hfield
  · obtain ⟨text, htext, hshown⟩ := hpiece _ hpart
    cases hshown
    exact ⟨'\x7b', List.mem_flatten.mpr ⟨_, htext, List.mem_singleton_self _⟩, by decide⟩
  · obtain ⟨text, htext, hshown⟩ := hpiece _ hpart
    have hwhole : piece name depth (.ok (.field ⟨tableName, none, []⟩)) = .ok name := rfl
    obtain rfl := Except.ok.inj (hwhole.symm.trans hshown)
    obtain ⟨c, hc, hdot⟩ := hname
    exact ⟨c, List.mem_flatten.mpr ⟨_, htext, hc⟩, hdot⟩

end Template

/-- A text without a slash leads from a directory to something in it, or nowhere. -/
theorem Path.join_of_slash_not_mem (p : Path) {name : String} (hslash : '/' ∉ name.toList) :
    p.join (ofString name) = if isName name then p.child name else p := by
  rw [ofString_of_slash_not_mem hslash]
  split
  case isTrue hname =>
    rw [List.filter_cons_of_pos hname]
    rfl
  case isFalse hname =>
    rw [List.filter_cons_of_neg hname]
    simp [join]

theorem Path.isName_of_mem {cs : List Char} {c : Char} (hc : c ∈ cs) (hdot : c ≠ '.') :
    isName (String.ofList cs) = true ∧ String.ofList cs ≠ ".." := by
  have hne : ∀ name : String, (∀ d ∈ name.toList, d = '.') → String.ofList cs ≠ name := by
    rintro _ hdots rfl
    exact hdot (hdots c (by simpa using hc))
  have hempty : String.ofList cs ≠ "" := hne _ (by simp)
  have hsingle : String.ofList cs ≠ "." := hne _ (by simp)
  exact ⟨by simp [isName, hempty, hsingle], hne _ (by simp)⟩

namespace FileStore

open Template

variable {s : FileStore} {table : String} {shown : List Char}

theorem exists_mem_safeName (h : safeName table ≠ "") : ∃ c ∈ (safeName table).toList, c ≠ '.' := by
  rw [safeName, String.toList_ofList]
  obtain ⟨c, hc⟩ := List.exists_mem_of_ne_nil (table.toList.filter isSafe) fun hnil => h (by rw [safeName, hnil])
  exact ⟨c, hc, isSafe_ne (List.mem_filter.mp hc).2 isSafe_dot⟩

theorem not_mem_safeName {c : Char} (h : isSafe c = false) : c ∉ (safeName table).toList := by
  rw [safeName, String.toList_ofList, List.mem_filter, h]
  simp

/-- What a pattern makes of a safe name is the name of something in the data directory, or is none. -/
theorem path_of_expandTo (honly : OnlyTable 2 s.pattern.toList) (hslash : '/' ∉ s.pattern.toList)
    (hsafe : safeName table ≠ "") (h : expandTo (safeName table).toList 2 s.pattern.toList = .ok shown) :
    s.path table = .ok (if Path.isName (String.ofList shown) then s.directory.child (String.ofList shown)
      else s.directory) := by
  have hshown : '/' ∉ (String.ofList shown).toList := by
    rw [String.toList_ofList]
    exact slash_not_mem_expandTo honly hslash (not_mem_safeName isSafe_slash) h
  rw [path, if_neg hsafe, expand, h]
  dsimp only [Except.map]
  rw [Path.join_of_slash_not_mem _ hshown]

end FileStore

end TableServer
