import Mathlib.Data.List.DropRight
import TableServer.Proofs.Statement.Written

namespace TableServer

open Grammar

section

variable {p : Char → Bool} {c : Char}

theorem dropWhile_append_cons (before : List Char) (hc : p c = false) (tail : List Char) :
    (before ++ c :: tail).dropWhile p = before.dropWhile p ++ c :: tail := by
  rw [List.dropWhile_append, List.dropWhile_cons_of_neg (by simp [hc])]
  split
  case isTrue he => rw [List.isEmpty_iff.mp he, List.nil_append]
  case isFalse => rfl

theorem rdropWhile_append_cons (before : List Char) (hc : p c = false) (tail : List Char) :
    (before ++ c :: tail).rdropWhile p = before ++ c :: tail.rdropWhile p := by
  have hreverse : (before ++ c :: tail).reverse = tail.reverse ++ c :: before.reverse := by simp
  rw [List.rdropWhile, hreverse, dropWhile_append_cons _ hc]
  simp [List.rdropWhile]

theorem rdropWhile_append_of_forall {tail : List Char} (before : List Char) (h : ∀ d ∈ tail, p d = true) :
    (before ++ tail).rdropWhile p = before.rdropWhile p := by
  rw [List.rdropWhile, List.reverse_append, List.dropWhile_append_of_pos fun d hd => h d (List.mem_reverse.mp hd)]
  rfl

/-- A character that is not trimmed keeps all that stands between it and another, so that both ends can be looked at
alone. -/
theorem trimBoth_append_cons (before : List Char) (hc : p c = false) (tail : List Char) :
    trimBoth p (before ++ c :: tail) = before.dropWhile p ++ c :: tail.rdropWhile p := by
  change ((before ++ c :: tail).dropWhile p).rdropWhile p = _
  rw [dropWhile_append_cons before hc, rdropWhile_append_cons _ hc]

theorem trimBoth_eq_nil {cs : List Char} (h : ∀ d ∈ cs, p d = true) : trimBoth p cs = [] := by
  rw [trimBoth, List.dropWhile_eq_nil_iff.mpr h]
  rfl

/-- A text in which something stays has a last character that does. -/
theorem forall_or_append_cons (p : Char → Bool) (cs : List Char) : (∀ d ∈ cs, p d = true) ∨
    ∃ before c, cs = before ++ c :: cs.rtakeWhile p ∧ p c = false := by
  by_cases hne : cs.rdropWhile p = []
  · exact .inl (List.rdropWhile_eq_nil_iff.mp hne)
  · refine .inr ⟨(cs.rdropWhile p).dropLast, (cs.rdropWhile p).getLast hne, ?_, ?_⟩
    · rw [List.append_cons, List.dropLast_append_getLast, List.rdropWhile_append_rtakeWhile]
    · simpa using List.rdropWhile_last_not p cs hne

theorem trimBoth_append_of_forall {tail : List Char} (before : List Char) (h : ∀ d ∈ tail, p d = true) :
    trimBoth p (before ++ tail) = trimBoth p before := by
  rcases forall_or_append_cons p before with hbefore | ⟨front, c, he, hc⟩
  · rw [trimBoth_eq_nil hbefore, trimBoth_eq_nil]
    intro d hd
    exact (List.mem_append.mp hd).elim (hbefore d) (h d)
  · rw [he, List.append_assoc, List.cons_append, trimBoth_append_cons _ hc, trimBoth_append_cons _ hc,
      rdropWhile_append_of_forall _ h]

end

def isNul (c : Char) : Bool := c = '\x00'

/-- Characters that can stand around a statement without belonging to it. Blanks are ignored on either side of it, and
behind it NUL characters are as well where they stand in one run. -/
def isFiller (c : Char) : Bool := isBlank c || isNul c

/-- Characters of which all are fillers. -/
def Fillers (cs : List Char) : Prop := ∀ c ∈ cs, isFiller c = true

/-- NUL characters in one run at most, which may have blanks on both sides. -/
def OneRun (tail : List Char) : Prop :=
  ∃ before nuls after, tail = before ++ nuls ++ after ∧ Gap before ∧ (∀ c ∈ nuls, isNul c = true) ∧ Gap after

/-- What cleaning leaves of the characters before a statement. -/
def leftBefore (before : List Char) : List Char :=
  ((before.dropWhile isBlank).dropWhile isNul).dropWhile isBlank

/-- What cleaning leaves of the characters behind a statement. -/
def leftBehind (tail : List Char) : List Char :=
  ((tail.rdropWhile isBlank).rdropWhile isNul).rdropWhile isBlank

section

variable {c : Char} {cs before tail : List Char}

theorem isFiller_iff : isFiller c = true ↔ isBlank c = true ∨ c = '\x00' := by
  simp [isFiller, isNul]

theorem isFiller_eq_false_iff : isFiller c = false ↔ isBlank c = false ∧ isNul c = false := by
  simp [isFiller]

theorem not_isBlank_of_isNul (h : isNul c = true) : isBlank c = false := by
  rw [of_decide_eq_true h]
  decide

theorem Grammar.Gap.fillers (h : Gap cs) : Fillers cs := fun c hc => isFiller_iff.mpr (.inl (h c hc))

theorem Fillers.append (h : Fillers cs) (h' : Fillers tail) : Fillers (cs ++ tail) :=
  fun c hc => (List.mem_append.mp hc).elim (h c) (h' c)

theorem leftBehind_isFront (tail : List Char) : leftBehind tail <+: tail :=
  (List.rdropWhile_prefix isBlank _).trans
    ((List.rdropWhile_prefix isNul _).trans (List.rdropWhile_prefix isBlank tail))

/-- Nothing stays of NUL characters in one run, and of them alone. -/
theorem leftBehind_eq_nil_iff : leftBehind tail = [] ↔ OneRun tail := by
  constructor
  · intro h
    refine ⟨(tail.rdropWhile isBlank).rdropWhile isNul, (tail.rdropWhile isBlank).rtakeWhile isNul,
      tail.rtakeWhile isBlank, ?_, List.rdropWhile_eq_nil_iff.mp h, fun c => List.mem_rtakeWhile_imp,
      fun c => List.mem_rtakeWhile_imp⟩
    rw [List.rdropWhile_append_rtakeWhile, List.rdropWhile_append_rtakeWhile]
  · rintro ⟨before, nuls, after, rfl, hbefore, hnuls, hafter⟩
    have hblank : before.rdropWhile isBlank = [] := List.rdropWhile_eq_nil_iff.mpr hbefore
    rw [leftBehind, rdropWhile_append_of_forall _ hafter]
    rcases List.eq_nil_or_concat' nuls with rfl | ⟨nuls, c, rfl⟩
    · rw [List.append_nil, hblank]
      rfl
    -- The run ends in no blank, and before it there is nothing else.
    · have hc : isBlank c = false := not_isBlank_of_isNul (hnuls c (by simp))
      rw [← List.append_assoc, rdropWhile_append_cons _ hc, List.rdropWhile_nil, List.append_assoc,
        rdropWhile_append_of_forall before hnuls]
      exact List.rdropWhile_eq_nil_iff.mpr fun d hd => hbefore d (List.rdropWhile_prefix _ _ |>.subset hd)

/-- What stays of fillers ends in a NUL character. -/
theorem getLast?_leftBehind (htail : Fillers tail) (hne : leftBehind tail ≠ []) :
    (leftBehind tail).getLast? = some '\x00' := by
  have hlast : ¬ isBlank ((leftBehind tail).getLast hne) = true := List.rdropWhile_last_not isBlank _ hne
  have hfiller := htail _ ((leftBehind_isFront tail).subset (List.getLast_mem hne))
  rw [List.getLast?_eq_getLast_of_ne_nil hne, (isFiller_iff.mp hfiller).resolve_left hlast]

theorem OneRun.of_append (h : OneRun (cs ++ tail)) : OneRun cs := by
  obtain ⟨before, nuls, after, he, hbefore, hnuls, hafter⟩ := h
  -- Where the first part ends: in the blanks before the run, in the run, or in the blanks behind it.
  rcases List.append_eq_append_iff.mp he with ⟨more, hfront, -⟩ | ⟨more, rfl, hmore⟩
  · rcases List.append_eq_append_iff.mp hfront with ⟨part, rfl, hpart⟩ | ⟨part, rfl, -⟩
    · exact ⟨before, part, [], by simp, hbefore, fun c hc => hnuls c (by simp [hpart, hc]), gap_nil⟩
    · exact ⟨cs, [], [], by simp, fun c hc => hbefore c (by simp [hc]), by simp, gap_nil⟩
  · exact ⟨before, nuls, more, rfl, hbefore, hnuls, fun c hc => hafter c (by simp [hmore, hc])⟩

/-- A statement is cleaned in front of its first character that is no filler and behind its last, and nothing between
them is touched. -/
theorem cleanChars_append_cons (before : List Char) (hc : isFiller c = false) (tail : List Char) :
    cleanChars (before ++ c :: tail) = leftBefore before ++ c :: leftBehind tail := by
  obtain ⟨hblank, hnul⟩ := isFiller_eq_false_iff.mp hc
  change trimBoth isBlank (trimBoth isNul (trimBoth isBlank _)) = _
  rw [trimBoth_append_cons _ hblank, trimBoth_append_cons _ hnul, trimBoth_append_cons _ hblank]
  rfl

theorem cleanChars_gap_append {gap : List Char} (hg : Gap gap) (cs : List Char) :
    cleanChars (gap ++ cs) = cleanChars cs := by
  rw [cleanChars, trimBoth_gap_append hg]
  rfl

theorem cleanChars_append_gap {gap : List Char} (hg : Gap gap) (cs : List Char) :
    cleanChars (cs ++ gap) = cleanChars cs := by
  rw [cleanChars, trimBoth_append_of_forall cs hg]
  rfl

theorem cleanChars_of_oneRun (h : OneRun cs) : cleanChars cs = [] := by
  obtain ⟨before, nuls, after, rfl, hbefore, hnuls, hafter⟩ := h
  have htrim : trimBoth isBlank nuls = nuls :=
    trimBoth_eq_self (fun c hc => not_isBlank_of_isNul (hnuls c (List.mem_of_head? hc)))
      fun c hc => not_isBlank_of_isNul (hnuls c (List.mem_of_getLast? hc))
  change trimBoth isBlank (trimBoth isNul (trimBoth isBlank _)) = _
  rw [trimBoth_append_of_forall _ hafter, trimBoth_gap_append hbefore, htrim, trimBoth_eq_nil hnuls]
  rfl

/-- A text is nothing but fillers, or else fillers behind it change only what is left behind its last other character. -/
theorem cleanChars_cases (cs : List Char) : Fillers cs ∨
    ∃ before c, isFiller c = false ∧ cs = before ++ c :: cs.rtakeWhile isFiller ∧
      ∀ fillers, cleanChars (cs ++ fillers) =
        leftBefore before ++ c :: leftBehind (cs.rtakeWhile isFiller ++ fillers) := by
  rcases forall_or_append_cons isFiller cs with h | ⟨before, c, he, hc⟩
  · exact .inl h
  · refine .inr ⟨before, c, hc, he, fun fillers => ?_⟩
    conv_lhs => rw [he, List.append_assoc, List.cons_append, cleanChars_append_cons before hc]

theorem exists_trimBoth (p : Char → Bool) (cs : List Char) : ∃ front back,
    cs = front ++ trimBoth p cs ++ back ∧ (∀ d ∈ front, p d = true) ∧ ∀ d ∈ back, p d = true := by
  refine ⟨cs.takeWhile p, (cs.dropWhile p).rtakeWhile p, ?_, fun d => List.mem_takeWhile_imp,
    fun d => List.mem_rtakeWhile_imp⟩
  change cs = cs.takeWhile p ++ (cs.dropWhile p).rdropWhile p ++ _
  rw [List.append_assoc, List.rdropWhile_append_rtakeWhile, List.takeWhile_append_dropWhile]

/-- Cleaning takes fillers from both ends and nothing else. -/
theorem exists_cleanChars (cs : List Char) :
    ∃ front back, cs = front ++ cleanChars cs ++ back ∧ Fillers front ∧ Fillers back := by
  obtain ⟨front, back, houter, hfront, hback⟩ := exists_trimBoth isBlank cs
  obtain ⟨front', back', hnul, hfront', hback'⟩ := exists_trimBoth isNul (trimBoth isBlank cs)
  obtain ⟨front'', back'', hinner, hfront'', hback''⟩ :=
    exists_trimBoth isBlank (trimBoth isNul (trimBoth isBlank cs))
  have hnuls : ∀ {ds : List Char}, (∀ d ∈ ds, isNul d = true) → Fillers ds :=
    fun h d hd => isFiller_iff.mpr (.inr (of_decide_eq_true (h d hd)))
  refine ⟨front ++ front' ++ front'', back'' ++ back' ++ back, ?_,
    ((Gap.fillers hfront).append (hnuls hfront')).append (Gap.fillers hfront''),
    ((Gap.fillers hback'').append (hnuls hback')).append (Gap.fillers hback)⟩
  conv_lhs => rw [houter, hnul, hinner]
  simp only [List.append_assoc]
  rfl

theorem fillers_cleanChars_iff : Fillers (cleanChars cs) ↔ Fillers cs := by
  obtain ⟨front, back, he, hfront, hback⟩ := exists_cleanChars cs
  constructor
  · intro h
    rw [he]
    exact (hfront.append h).append hback
  · intro h c hc
    exact h c (by rw [he]; simp [hc])

theorem quote_of_after {s : Scan} (hs : ∀ q, s = .inside q → Lexeme.isQuote q = true) (cs : List Char) :
    ∀ q, s.after cs = .inside q → Lexeme.isQuote q = true := by
  induction cs generalizing s with
  | nil => exact hs
  | cons c cs ih =>
    refine @ih (s.next c) fun q hq => ?_
    cases s with
    | inside quote =>
      rw [Scan.next] at hq
      split at hq
      · cases hq
      · exact hs q hq
    | outside opens =>
      rw [Scan.next] at hq
      split at hq
      · cases hq
      · split at hq
        case isTrue hopen =>
          cases hq
          exact (Lexeme.isQuote_iff c).mpr hopen.2
        case isFalse => cases hq

theorem isFiller_of_isQuote (h : Lexeme.isQuote c = true) : isFiller c = false := by
  rcases (Lexeme.isQuote_iff c).mp h with rfl | rfl <;> decide

theorem after_fillers (opens : Bool) (h : Fillers cs) : ∃ opens', (Scan.outside opens).after cs = .outside opens' ∧
    (opens = false → opens' = false) := by
  induction cs generalizing opens with
  | nil => exact ⟨opens, rfl, id⟩
  | cons c cs ih =>
    have hcs : Fillers cs := fun d hd => h d (.tail _ hd)
    rcases isFiller_iff.mp (h c List.mem_cons_self) with hc | rfl
    · obtain ⟨opens', he, ho⟩ := ih opens hcs
      refine ⟨opens', ?_, ho⟩
      rw [← he, Scan.after, List.foldl_cons, Scan.next_blank opens hc]
      rfl
    · obtain ⟨opens', he, ho⟩ := ih false hcs
      refine ⟨opens', ?_, fun _ => ho rfl⟩
      rw [← he, Scan.after, List.foldl_cons, Scan.next_mark (by decide) fun _ => by decide]
      rfl

/-- Fillers on either side open and close no region. -/
theorem closed_fillers_iff {front back : List Char} (hfront : Fillers front) (hback : Fillers back) :
    Closed (front ++ cs ++ back) ↔ Closed cs := by
  obtain ⟨_, hstart, ho⟩ := after_fillers false hfront
  rw [ho rfl] at hstart
  unfold Closed
  rw [Scan.after_append, Scan.after_append, hstart]
  have hquote := quote_of_after (s := .outside false) (fun _ hq => by cases hq) cs
  generalize (Scan.outside false).after cs = s at hquote
  cases s with
  | outside opens =>
    obtain ⟨_, hend, -⟩ := after_fillers opens hback
    rw [hend]
    rfl
  | inside quote =>
    have hnot : quote ∉ back := by
      intro hmem
      have := hback quote hmem
      rw [isFiller_of_isQuote (hquote quote rfl)] at this
      contradiction
    rw [Scan.after_inside hnot]

/-- Cleaning does not change whether a quote is left open. -/
theorem closed_cleanChars : Closed (cleanChars cs) ↔ Closed cs := by
  obtain ⟨front, back, he, hfront, hback⟩ := exists_cleanChars cs
  conv_rhs => rw [he, closed_fillers_iff hfront hback]

theorem Fillers.closed (h : Fillers cs) : Closed cs := by
  rw [← List.append_nil cs, ← List.append_nil cs, closed_fillers_iff h fun _ hc => by cases hc]
  rfl

theorem isFiller_of_isWordChar (h : Lexeme.isWordChar c = true) : isFiller c = false := by
  refine isFiller_eq_false_iff.mpr ⟨Lexeme.not_isBlank_of_isWordChar h, decide_eq_false ?_⟩
  rintro rfl
  contradiction

/-- A text with an end behind its last character that is no filler. -/
def Ended (cs : List Char) : Prop := ∃ front c rest, cs = front ++ c :: rest ∧ isFiller c = false ∧ IsEnd rest

theorem ended_of_isWord {word rest : List Char} (front : List Char) (h : IsWord word) (hend : IsEnd rest) :
    Ended (front ++ word ++ rest) := by
  obtain ⟨hne, hletters⟩ := isWord_iff.mp h
  obtain ⟨word, c, rfl⟩ := (List.eq_nil_or_concat' word).resolve_left hne
  exact ⟨front ++ word, c, rest, by simp, isFiller_of_isWordChar (hletters c (by simp)), hend⟩

/-- An insertion ends in a closing parenthesis, with an end behind it. -/
theorem ended_of_isInsert {table : String} {columns values : List String} (h : IsInsert cs table columns values) :
    Ended cs := by
  obtain ⟨_, first, second, front, rest, _, ⟨inner, rfl, -⟩, rfl, hend⟩ := h.parts
  exact ⟨_, ')', rest, by rw [← List.append_assoc, List.append_assoc _ [')'] rest]; rfl, by decide, hend⟩

/-- What is not rejected as unsupported is ended. -/
theorem ended_of_parseChars {limit : Nat} (hopen : parseChars limit cs ≠ .error .openQuote)
    (hform : parseChars limit cs ≠ .error .unsupported) : Ended cs := by
  match h : parseChars limit cs with
  | .ok (.selectAll table) =>
    obtain ⟨rest, hselect, hend⟩ := parseChars_selectAll_iff.mp h
    obtain ⟨htable, front, rfl⟩ := hselect.parts
    exact ended_of_isWord front htable hend
  | .ok (.selectById table id) =>
    obtain ⟨n, -, hselect⟩ := parseChars_selectById_iff.mp h
    obtain ⟨_, front, digits, rest, rfl, hid, hend⟩ := hselect.parts
    have hdigits : IsWord digits := ⟨hid.1, fun c hc => .inl (by simp [Char.isAlphanum, hid.2.1 c hc])⟩
    exact ended_of_isWord front hdigits hend
  | .ok (.insert i) => exact ended_of_isInsert (parseChars_insert_iff.mp h)
  | .error .countMismatch =>
    obtain ⟨_, _, _, hi, -⟩ := parseChars_countMismatch_iff.mp h
    exact ended_of_isInsert hi
  | .error .openQuote => exact (hopen h).elim
  | .error .unsupported => exact (hform h).elim

theorem Ended.not_fillers (h : Ended cs) : ¬ Fillers cs := by
  obtain ⟨front, c, rest, rfl, hc, -⟩ := h
  intro hfill
  have := hfill c (by simp)
  rw [hc] at this
  contradiction

/-- With a semicolon or without one there are only blanks behind the last character that is no filler. -/
theorem Ended.exists_gap (h : Ended cs) : ∃ front c gap, cs = front ++ c :: gap ∧ isFiller c = false ∧ Gap gap := by
  obtain ⟨front, c, rest, rfl, hc, hgap | ⟨before, after, rfl, -, hafter⟩⟩ := h
  · exact ⟨front, c, rest, rfl, hc, hgap⟩
  · exact ⟨front ++ c :: before, ';', after, by simp, by decide, hafter⟩

/-- A NUL character at the end belongs to no end of a statement, so that a text which has one there is no command. -/
theorem Ended.getLast?_ne (h : Ended cs) : cs.getLast? ≠ some '\x00' := by
  obtain ⟨front, c, gap, rfl, hc, hgap⟩ := h.exists_gap
  intro hlast
  rcases List.eq_nil_or_concat' gap with rfl | ⟨gap, d, rfl⟩
  · rw [List.getLast?_concat] at hlast
    cases hlast
    contradiction
  · rw [← List.cons_append, ← List.append_assoc, List.getLast?_concat] at hlast
    cases hlast
    have := hgap '\x00' (by simp)
    contradiction

/-- Why a text is no command that is not ended. -/
theorem rejected_of_not_ended (limit : Nat) (h : ¬ Ended cs) : ∃ r, parseChars limit cs = .error r ∧
    (r = .openQuote ∧ ¬ Closed cs ∨ r = .unsupported ∧ Closed cs) := by
  by_cases hopen : parseChars limit cs = .error .openQuote
  · exact ⟨.openQuote, hopen, .inl ⟨rfl, parseChars_eq_openQuote_iff.mp hopen⟩⟩
  · refine ⟨.unsupported, ?_, .inr ⟨rfl, ?_⟩⟩
    · by_contra hform
      exact h (ended_of_parseChars hopen hform)
    · by_contra hclosed
      exact hopen (parseChars_eq_openQuote_iff.mpr hclosed)

end

section

variable {p : Char → Bool} {cs : List Char}

theorem head?_trimBoth : ∀ d ∈ (trimBoth p cs).head?, p d = false := by
  intro d hd
  have hpart : trimBoth p cs <+: cs.dropWhile p := List.rdropWhile_prefix p _
  obtain ⟨rest, hrest⟩ := hpart
  refine head?_dropWhile_not p cs d ?_
  rw [← hrest, List.head?_append, Option.mem_def.mp hd, Option.some_or]
  rfl

theorem getLast?_trimBoth : ∀ d ∈ (trimBoth p cs).getLast?, p d = false := by
  intro d hd
  rw [trimBoth, List.getLast?_reverse] at hd
  exact head?_dropWhile_not p _ d hd

theorem trimBoth_eq_self_iff :
    trimBoth p cs = cs ↔ (∀ c ∈ cs.head?, p c = false) ∧ ∀ c ∈ cs.getLast?, p c = false := by
  refine ⟨fun h => ?_, fun h => trimBoth_eq_self h.1 h.2⟩
  rw [← h]
  exact ⟨head?_trimBoth, getLast?_trimBoth⟩

theorem length_trimBoth_le (p : Char → Bool) (cs : List Char) : (trimBoth p cs).length ≤ cs.length := by
  obtain ⟨front, back, he, -⟩ := exists_trimBoth p cs
  conv_rhs => rw [he]
  simp only [List.length_append]
  omega

theorem trimBoth_eq_self_of_length (h : cs.length ≤ (trimBoth p cs).length) : trimBoth p cs = cs := by
  obtain ⟨front, back, he, -⟩ := exists_trimBoth p cs
  have hlength := congrArg List.length he
  simp only [List.length_append] at hlength
  have hfront : front = [] := List.eq_nil_of_length_eq_zero (by omega)
  have hback : back = [] := List.eq_nil_of_length_eq_zero (by omega)
  conv_rhs => rw [he, hfront, hback, List.nil_append, List.append_nil]

theorem not_isNul_iff {c : Option Char} : (∀ d ∈ c, isNul d = false) ↔ c ≠ some '\x00' := by
  constructor
  · rintro h rfl
    exact Bool.noConfusion (h '\x00' rfl)
  · rintro h d rfl
    exact decide_eq_false fun hd => h (congrArg some hd)

/-- A clean text is cleaned no further unless a NUL character stands at an end of it. -/
theorem cleanChars_cleanChars_iff : cleanChars (cleanChars cs) = cleanChars cs ↔
    (cleanChars cs).head? ≠ some '\x00' ∧ (cleanChars cs).getLast? ≠ some '\x00' := by
  have hblank : trimBoth isBlank (cleanChars cs) = cleanChars cs :=
    trimBoth_eq_self head?_trimBoth getLast?_trimBoth
  rw [← not_isNul_iff, ← not_isNul_iff, ← trimBoth_eq_self_iff]
  change trimBoth isBlank (trimBoth isNul (trimBoth isBlank (cleanChars cs))) = _ ↔ _
  rw [hblank]
  constructor
  · intro h
    refine trimBoth_eq_self_of_length ?_
    conv_lhs => rw [← h]
    exact length_trimBoth_le _ _
  · intro h
    rw [h, hblank]

end

/-- What a client is told of a text: its command, or what is wrong with which statement. -/
def outcome (limit : Nat) (text : String) : Except (String × String) Command :=
  (parse limit text).mapError fun r => (r.message, cleanStatement text)

section

variable {limit : Nat} {text text' : String}

theorem outcome_congr (h : cleanChars text.toList = cleanChars text'.toList) :
    outcome limit text = outcome limit text' := by
  rw [outcome, outcome, parse, parse, cleanStatement, cleanStatement, h]

/-- A text that is not ended is rejected, and told with all that cleaning has left of it. -/
theorem outcome_of_not_ended (limit : Nat) (h : ¬ Ended (cleanChars text.toList)) :
    ∃ r : Rejection, outcome limit text = .error (r.message, cleanStatement text) ∧
      (r = .openQuote ∧ ¬ Closed text.toList ∨ r = .unsupported ∧ Closed text.toList) := by
  obtain ⟨r, hr, hwhy⟩ := rejected_of_not_ended limit h
  refine ⟨r, ?_, by rwa [closed_cleanChars] at hwhy⟩
  rw [outcome, parse, hr]
  rfl

/-- Of a rejected text the outcome tells the statement. -/
theorem cleanChars_eq_of_outcome (h : outcome limit text = outcome limit text')
    (hended : ¬ Ended (cleanChars text.toList)) : cleanChars text.toList = cleanChars text'.toList := by
  obtain ⟨r, hr, -⟩ := outcome_of_not_ended limit hended
  rw [hr, outcome] at h
  cases hparse : parse limit text' with
  | ok c =>
    rw [hparse] at h
    cases h
  | error r' =>
    rw [hparse] at h
    have h : Except.error (r.message, cleanStatement text) = Except.error (r'.message, cleanStatement text') := h
    rw [Except.error.injEq, Prod.mk.injEq] at h
    exact String.ofList_injective h.2

end

/-- The characters behind the last one of a text that is no filler. -/
def fillersBehind (text : String) : List Char := text.toList.rtakeWhile isFiller

section

variable {limit : Nat} {gap text fillers : String}

theorem cleanChars_padded (hgap : Gap gap.toList) :
    cleanChars (gap ++ text ++ fillers).toList = cleanChars (text.toList ++ fillers.toList) := by
  rw [String.toList_append, String.toList_append, List.append_assoc, cleanChars_gap_append hgap]

theorem fillers_fillersBehind (text : String) : Fillers (fillersBehind text) :=
  fun _ => List.mem_rtakeWhile_imp

/-- Behind a text with a character that is no filler, what stays is what stays of the fillers alone. -/
theorem getLast?_cleanChars_iff (htext : ¬ Fillers text.toList) (hfillers : Fillers fillers.toList) :
    (cleanChars (text.toList ++ fillers.toList)).getLast? = some '\x00' ↔
      ¬ OneRun (fillersBehind text ++ fillers.toList) := by
  obtain ⟨before, c, hc, -, hclean⟩ := (cleanChars_cases text.toList).resolve_left htext
  rw [hclean, List.getLast?_append, ← leftBehind_eq_nil_iff]
  constructor
  · intro hlast hnil
    rw [← fillersBehind, hnil] at hlast
    cases hlast
    contradiction
  · intro hne
    have hlast := getLast?_leftBehind ((fillers_fillersBehind text).append hfillers) hne
    rw [List.getLast?_cons, ← fillersBehind, hlast]
    rfl

/-- One run behind a statement is cleaned away, along with the fillers that the text has brought. -/
theorem cleanChars_append_of_oneRun (h : OneRun (fillersBehind text ++ fillers.toList)) :
    cleanChars (text.toList ++ fillers.toList) = cleanChars text.toList := by
  rcases cleanChars_cases text.toList with htext | ⟨before, c, hc, -, hclean⟩
  · have hall : fillersBehind text = text.toList := List.rtakeWhile_eq_self_iff.mpr htext
    rw [hall] at h
    rw [cleanChars_of_oneRun h, cleanChars_of_oneRun h.of_append]
  · have hself := hclean []
    rw [List.append_nil, List.append_nil] at hself
    rw [hclean, hself, ← fillersBehind, leftBehind_eq_nil_iff.mpr h, leftBehind_eq_nil_iff.mpr h.of_append]

end

/-- What comes of a text with blanks before it and fillers behind it. -/
structure Padding (limit : Nat) (gap text fillers : String) : Prop where
  /-- The outcome is the one of the text alone exactly where the same statement stays. -/
  same : outcome limit (gap ++ text ++ fillers) = outcome limit text ↔
    cleanStatement (text ++ fillers) = cleanStatement text
  /-- Blanks behind the text are ignored. -/
  blanks : Gap fillers.toList → outcome limit (gap ++ text ++ fillers) = outcome limit text
  /-- So are NUL characters in one run, the fillers that the text has counted with them. -/
  oneRun : OneRun (fillersBehind text ++ fillers.toList) →
    outcome limit (gap ++ text ++ fillers) = outcome limit text
  /-- With more runs the statement ends in a NUL character, and is rejected whatever the text. -/
  moreRuns : ¬ OneRun (fillersBehind text ++ fillers.toList) → ¬ Fillers text.toList →
    (cleanChars (gap ++ text ++ fillers).toList).getLast? = some '\x00' ∧
    ∃ r : Rejection, outcome limit (gap ++ text ++ fillers) =
        .error (r.message, cleanStatement (gap ++ text ++ fillers)) ∧
      (r = .openQuote ∧ ¬ Closed text.toList ∨ r = .unsupported ∧ Closed text.toList)
  /-- A text of fillers is no command. -/
  nothing : Fillers text.toList → outcome limit (gap ++ text ++ fillers) =
    .error (Rejection.unsupported.message, cleanStatement (text ++ fillers))
  /-- No blank is left at an end of a statement. -/
  ends : (∀ c ∈ (cleanChars text.toList).head?, isBlank c = false) ∧
    ∀ c ∈ (cleanChars text.toList).getLast?, isBlank c = false
  /-- A statement is cleaned no further unless a NUL character is left at an end of it. -/
  twice : cleanStatement (cleanStatement text) = cleanStatement text ↔
    (cleanChars text.toList).head? ≠ some '\x00' ∧ (cleanChars text.toList).getLast? ≠ some '\x00'

/-- Blanks before a text and fillers behind it change its outcome just where a second run of NUL characters keeps
cleaning from taking them all. Of more runs something stays, and what stays is no end of a statement. -/
theorem outcome_padded (limit : Nat) {gap text fillers : String} (hgap : Gap gap.toList)
    (hfillers : Fillers fillers.toList) : Padding limit gap text fillers := by
  have hcongr : cleanChars (text.toList ++ fillers.toList) = cleanChars text.toList →
      outcome limit (gap ++ text ++ fillers) = outcome limit text :=
    fun h => outcome_congr ((cleanChars_padded hgap).trans h)
  constructor
  case same =>
    rw [cleanStatement, cleanStatement, String.ofList_inj, String.toList_append]
    refine ⟨fun h => ?_, hcongr⟩
    by_cases hended : Ended (cleanChars text.toList)
    · by_cases hended' : Ended (cleanChars (text.toList ++ fillers.toList))
      · have htext : ¬ Fillers text.toList := fun h => hended.not_fillers (fillers_cleanChars_iff.mpr h)
        exact cleanChars_append_of_oneRun
          (not_not.mp (mt (getLast?_cleanChars_iff htext hfillers).mpr hended'.getLast?_ne))
      · rw [← cleanChars_padded hgap] at hended' ⊢
        exact cleanChars_eq_of_outcome h hended'
    · rw [← cleanChars_padded hgap]
      exact (cleanChars_eq_of_outcome h.symm hended).symm
  case blanks => exact fun h => hcongr (cleanChars_append_gap h _)
  case oneRun => exact fun h => hcongr (cleanChars_append_of_oneRun h)
  case moreRuns =>
    intro hruns htext
    have hlast : (cleanChars (gap ++ text ++ fillers).toList).getLast? = some '\x00' := by
      rw [cleanChars_padded hgap]
      exact (getLast?_cleanChars_iff htext hfillers).mpr hruns
    obtain ⟨r, hr, hwhy⟩ := outcome_of_not_ended limit fun h => h.getLast?_ne hlast
    rw [String.toList_append, String.toList_append, closed_fillers_iff hgap.fillers hfillers] at hwhy
    exact ⟨hlast, r, hr, hwhy⟩
  case nothing =>
    intro htext
    have hall : Fillers (cleanChars (gap ++ text ++ fillers).toList) := by
      rw [cleanChars_padded hgap, fillers_cleanChars_iff]
      exact htext.append hfillers
    obtain ⟨r, hr, ⟨-, hopen⟩ | ⟨rfl, -⟩⟩ := outcome_of_not_ended limit fun h => h.not_fillers hall
    · exact (hopen (closed_cleanChars.mp hall.closed)).elim
    · rw [hr, cleanStatement, cleanStatement, cleanChars_padded hgap, String.toList_append]
  case ends => exact ⟨head?_trimBoth, getLast?_trimBoth⟩
  case twice =>
    rw [← cleanChars_cleanChars_iff, cleanStatement, cleanStatement, String.toList_ofList, String.ofList_inj]

/-- A line break and a terminator change nothing. -/
theorem outcome_padded_terminator : Gap " ".toList ∧ Fillers "\n\x00".toList ∧
    outcome 4300 (" " ++ "SELECT * FROM t" ++ "\n\x00") = outcome 4300 "SELECT * FROM t" := by
  have hgap : Gap " ".toList := gap_space
  have hfillers : Fillers "\n\x00".toList := List.all_eq_true.mp (by decide)
  refine ⟨hgap, hfillers, (outcome_padded 4300 hgap hfillers).oneRun ⟨['\n'], ['\x00'], [], by decide, ?_, ?_, gap_nil⟩⟩
  · exact List.all_eq_true.mp (by decide)
  · exact List.all_eq_true.mp (by decide)

/-- With a blank between two terminators the second of them is ignored, and the first is left at the end of a statement
that is no command. -/
theorem terminators_rejected : Fillers "\x00 \x00".toList ∧
    outcome 4300 "SELECT * FROM t" = .ok (.selectAll "t") ∧
    outcome 4300 ("SELECT * FROM t" ++ "\x00 \x00") = .error ("unsupported command", "SELECT * FROM t\x00") ∧
    cleanStatement (cleanStatement ("SELECT * FROM t" ++ "\x00 \x00")) ≠
      cleanStatement ("SELECT * FROM t" ++ "\x00 \x00") := by
  exact ⟨List.all_eq_true.mp (by decide), by decide +kernel, by decide +kernel, by decide +kernel⟩

end TableServer
