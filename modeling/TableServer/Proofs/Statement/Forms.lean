import TableServer.Proofs.Statement.Spelling

namespace TableServer.Grammar
open Lexeme

/-- A lexeme behind a gap, with `rest` behind it. -/
def Next (opens : Bool) (text : List Char) (l : Lexeme) (rest : List Char) : Prop :=
  ∃ gap, text = gap ++ l.text ++ rest ∧ Gap gap ∧ l.isBlank = false ∧ l.Fits opens rest

/-- What the parser looks at once it has skipped blanks is the lexeme behind a gap. -/
theorem skipBlanks_eq_cons_iff {opens : Bool} {text : List Char} {l : Lexeme} {ls : List Lexeme} :
    (∃ all, lexemes opens text = some all ∧ Statement.skipBlanks all = l :: ls) ↔
      ∃ rest, Next opens text l rest ∧ lexemes (l.opensAfter opens) rest = some ls := by
  constructor
  · rintro ⟨all, hall, hskip⟩
    have hkept := lexemes_skipBlanks hall
    rw [hskip] at hkept
    obtain ⟨rest, he, hf, hls⟩ := lexemes_cons_iff.mp hkept
    refine ⟨rest, ⟨text.takeWhile TableServer.isBlank, ?_, ?_, ?_, hf⟩, hls⟩
    · rw [List.append_assoc, ← he, List.takeWhile_append_dropWhile]
    · exact fun c hc => List.all_eq_true.mp List.all_takeWhile c hc
    · exact head?_dropWhile_not Lexeme.isBlank all l (congrArg List.head? hskip)
  · rintro ⟨rest, ⟨gap, rfl, hg, hb, hf⟩, hls⟩
    have hl : lexemes opens (l.text ++ rest) = some (l :: ls) := by
      rw [lexemes_of_fits hf, hls, Option.map_some]
    have hskip : Statement.skipBlanks (l :: ls) = l :: ls := by
      rw [Statement.skipBlanks, List.dropWhile_cons_of_neg (by simp [hb])]
    cases gap with
    | nil => exact ⟨_, hl, hskip⟩
    | cons c gap =>
      have hhead : ∀ d ∈ (l.text ++ rest).head?, TableServer.isBlank d = false := by
        have hs := (shows_of_fits hf).1
        rw [Shows, if_neg (by simp [hb])] at hs
        obtain ⟨d, tail, hd, hdb⟩ := hs
        simp [hd, hdb]
      refine ⟨.blank (c :: gap) :: l :: ls, ?_, ?_⟩
      · rw [List.append_assoc, lexemes_blank (by simp) hg hhead, hl, Option.map_some]
      · rw [Statement.skipBlanks, List.dropWhile_cons_of_pos rfl]
        exact hskip

theorem skipBlanks_eq_nil_iff {opens : Bool} {text : List Char} :
    (∃ all, lexemes opens text = some all ∧ Statement.skipBlanks all = []) ↔ Gap text := by
  constructor
  · rintro ⟨all, hall, hskip⟩
    have hkept := lexemes_skipBlanks hall
    rw [hskip, lexemes_eq_nil_iff] at hkept
    have htext := List.takeWhile_append_dropWhile (p := TableServer.isBlank) (l := text)
    rw [hkept, List.append_nil] at htext
    exact fun c hc => List.all_eq_true.mp List.all_takeWhile c (htext ▸ hc)
  · intro hg
    cases text with
    | nil => exact ⟨[], lexemes_nil opens, rfl⟩
    | cons c text =>
      have h := @lexemes_blank opens _ [] (by simp) hg (by simp)
      rw [List.append_nil, lexemes_nil, Option.map_some] at h
      exact ⟨_, h, rfl⟩

theorem filter_skipBlanks (ls : List Lexeme) :
    (Statement.skipBlanks ls).filter isSolid = ls.filter isSolid := by
  induction ls with
  | nil => rfl
  | cons l ls ih =>
    cases hb : l.isBlank with
    | true => simpa [Statement.skipBlanks, hb, isSolid] using ih
    | false => simp [Statement.skipBlanks, hb]

/-- A text as lexemes with gaps between them. -/
def Spelled : Bool → List Char → List Lexeme → Prop
  | _, text, [] => Gap text
  | opens, text, l :: ls => ∃ rest, Next opens text l rest ∧ Spelled (l.opensAfter opens) rest ls

/-- The lexemes of a text without the blank ones are those that it spells, with gaps as they come. -/
theorem filter_eq_iff_spelled {opens : Bool} {text : List Char} {ks : List Lexeme} :
    (∃ all, lexemes opens text = some all ∧ all.filter isSolid = ks) ↔ Spelled opens text ks := by
  induction ks generalizing opens text with
  | nil =>
    rw [Spelled, ← skipBlanks_eq_nil_iff]
    refine exists_congr fun all => and_congr_right fun _ => ?_
    rw [← filter_skipBlanks]
    constructor
    · intro h
      cases hs : Statement.skipBlanks all with
      | nil => rfl
      | cons l ls =>
        have hb := head?_dropWhile_not Lexeme.isBlank all l (congrArg List.head? hs)
        rw [hs, List.filter_cons, if_pos (by simp [isSolid, hb])] at h
        contradiction
    · intro h
      rw [h, List.filter_nil]
  | cons l ks ih =>
    rw [Spelled]
    constructor
    · rintro ⟨all, hall, hfilter⟩
      rw [← filter_skipBlanks] at hfilter
      cases hs : Statement.skipBlanks all with
      | nil => simp [hs] at hfilter
      | cons k ls =>
        obtain ⟨rest, hn, hls⟩ := skipBlanks_eq_cons_iff.mp ⟨all, hall, hs⟩
        obtain ⟨gap, -, -, hb, -⟩ := id hn
        rw [hs, List.filter_cons, if_pos (by simp [isSolid, hb])] at hfilter
        cases hfilter
        exact ⟨rest, hn, ih.mp ⟨ls, hls, rfl⟩⟩
    · rintro ⟨rest, hn, hsp⟩
      obtain ⟨ls, hls, hfilter⟩ := ih.mpr hsp
      obtain ⟨all, hall, hs⟩ := skipBlanks_eq_cons_iff.mpr ⟨rest, hn, hls⟩
      obtain ⟨gap, -, -, hb, -⟩ := hn
      refine ⟨all, hall, ?_⟩
      rw [← filter_skipBlanks, hs, List.filter_cons, if_pos (by simp [isSolid, hb]), hfilter]

theorem isWord_iff {text : List Char} :
    IsWord text ↔ text ≠ [] ∧ ∀ c ∈ text, isWordChar c = true := by
  simp [IsWord, isWordChar]

/-- No word goes on into `text`. -/
def Stops (text : List Char) : Prop := ∀ c ∈ text.head?, isWordChar c = false

theorem stops_gap_append {gap text : List Char} (hg : Gap gap) (ht : Stops text) :
    Stops (gap ++ text) := by
  cases gap with
  | nil => exact ht
  | cons c gap =>
    intro d hd
    cases hd
    have hc := hg c List.mem_cons_self
    cases hw : isWordChar c with
    | false => rfl
    | true => simp [not_isBlank_of_isWordChar hw] at hc

theorem stops_gap {gap text : List Char} (hg : Gap gap) (hne : gap ≠ []) : Stops (gap ++ text) := by
  obtain ⟨c, gap, rfl⟩ := List.exists_cons_of_ne_nil hne
  intro d hd
  cases hd
  exact @stops_gap_append _ [] hg (by simp [Stops]) c rfl

/-- Between two words there has to be a blank. -/
theorem gap_ne_nil {gap word rest : List Char} (hw : IsWord word)
    (hs : Stops (gap ++ word ++ rest)) : gap ≠ [] := by
  rintro rfl
  obtain ⟨hne, hall⟩ := isWord_iff.mp hw
  obtain ⟨c, word, rfl⟩ := List.exists_cons_of_ne_nil hne
  have := hs c rfl
  simp [hall c List.mem_cons_self] at this

theorem next_word_iff {opens : Bool} {text word rest : List Char} :
    Next opens text (.word word) rest ↔
      ∃ gap, text = gap ++ word ++ rest ∧ Gap gap ∧ IsWord word ∧ Stops rest := by
  refine exists_congr fun gap => and_congr_right fun _ => and_congr_right fun _ => ?_
  rw [isWord_iff, and_assoc]
  exact ⟨fun h => h.2, fun h => ⟨rfl, h⟩⟩

theorem next_mark_iff {opens : Bool} {text rest : List Char} {c : Char}
    (hb : TableServer.isBlank c = false) (hw : isWordChar c = false) (hq : isQuote c = false) :
    Next opens text (.mark c) rest ↔ ∃ gap, text = gap ++ c :: rest ∧ Gap gap := by
  constructor
  · rintro ⟨gap, rfl, hg, -, -⟩
    exact ⟨gap, by simp [Lexeme.text], hg⟩
  · rintro ⟨gap, rfl, hg⟩
    exact ⟨gap, by simp [Lexeme.text], hg, rfl, hb, hw, fun _ => hq⟩

theorem isKeyword_iff {keyword : String} {letters : List Char} :
    Statement.isKeyword keyword letters = true ↔ Spells keyword letters := by
  simp [Statement.isKeyword, Spells]

/-- No other character becomes part of a word in capitals, so that keywords are words. -/
theorem isWordChar_of_toUpper {c : Char} (h : isWordChar c.toUpper = true) : isWordChar c = true := by
  delta Char.toUpper at h
  split at h
  case isTrue hc =>
    rw [isWordChar_iff]
    simp only [UInt32.le_iff_toNat_le] at hc
    change 97 ≤ c.toNat ∧ c.toNat ≤ 122 at hc
    omega
  case isFalse => exact h

theorem Spells.isWord {keyword : String} {text : List Char} (h : Spells keyword text)
    (hk : keyword.toList ≠ [] ∧ keyword.toList.all isWordChar = true := by decide) :
    IsWord text := by
  rw [isWord_iff]
  rw [Spells] at h
  rw [← h] at hk
  refine ⟨fun he => hk.1 (by simp [he]), fun c hc => ?_⟩
  exact isWordChar_of_toUpper (List.all_eq_true.mp hk.2 _ (List.mem_map.mpr ⟨c, hc, rfl⟩))

/-- Nothing but blanks in front of the closing parenthesis is read as a single item of blanks. -/
theorem items?_of_closing {ls after : List Lexeme}
    (h : Statement.skipBlanks ls = .mark ')' :: after) :
    Statement.items? ls = some ([ls.takeWhile Lexeme.isBlank], after) := by
  induction ls with
  | nil => contradiction
  | cons l ls ih =>
    cases hb : l.isBlank with
    | false =>
      rw [Statement.skipBlanks, List.dropWhile_cons_of_neg (by simp [hb])] at h
      cases h
      rfl
    | true =>
      rw [Statement.skipBlanks, List.dropWhile_cons_of_pos hb] at h
      have hl : l ≠ .mark ')' ∧ l ≠ .mark ',' := by
        constructor <;> rintro rfl <;> contradiction
      rw [Statement.items?, if_neg hl.1, ih h, List.takeWhile_cons_of_pos hb]
      simp only [if_neg hl.2]

/-- Blanks before a closing parenthesis make an empty list. -/
theorem head?_closing_of_gap {inner rest : List Char} {ls : List Lexeme}
    (hls : lexemes true (inner ++ ')' :: rest) = some ls) (hg : Gap inner) :
    (Statement.skipBlanks ls).head? = some (.mark ')') := by
  have h := lexemes_skipBlanks hls
  rw [List.dropWhile_append_of_pos hg, List.dropWhile_cons_of_neg (by decide), lexemes_break rfl] at h
  obtain ⟨_, -, he⟩ := Option.map_eq_some_iff.mp h
  rw [← he]
  rfl

theorem gap_of_head?_closing {inner rest : List Char} {ls after : List Lexeme} {items : List (List Lexeme)}
    (hls : lexemes true (inner ++ ')' :: rest) = some ls) (hi : Statement.items? ls = some (items, after))
    (ha : lexemes false rest = some after) (hhead : (Statement.skipBlanks ls).head? = some (.mark ')')) :
    Gap inner := by
  obtain ⟨after', hskip⟩ : ∃ after', Statement.skipBlanks ls = .mark ')' :: after' := by
    cases hskip : Statement.skipBlanks ls with
    | nil => simp [hskip] at hhead
    | cons l after' =>
      rw [hskip] at hhead
      cases hhead
      exact ⟨after', rfl⟩
  have hafter := items?_of_closing hskip
  rw [hi] at hafter
  cases hafter
  obtain ⟨rest', hn, ha'⟩ := skipBlanks_eq_cons_iff.mp ⟨ls, hls, hskip⟩
  obtain ⟨gap, he, hg⟩ := (next_mark_iff (by decide) (by decide) (by decide)).mp hn
  have hrest : rest = rest' := (text_of_lexemes ha).symm.trans (text_of_lexemes ha')
  rw [hrest] at he
  exact List.append_cancel_right he ▸ hg

/-- The lists that are read from lexemes are those of the grammar, which tells them by their characters. -/
theorem list?_eq_some_iff {text : List Char} {values : List String} {after : List Lexeme} :
    (∃ ls, lexemes false text = some ls ∧ Statement.list? ls = some (values, after)) ↔
      ∃ gap list rest, text = gap ++ list ++ rest ∧ Gap gap ∧ IsList list values ∧
        lexemes false rest = some after := by
  constructor
  · rintro ⟨ls, hls, hlist⟩
    rw [Statement.list?] at hlist
    split at hlist
    case h_2 => contradiction
    case h_1 inside hs =>
      obtain ⟨text', hn, hinside⟩ := skipBlanks_eq_cons_iff.mp ⟨ls, hls, hs⟩
      obtain ⟨gap, rfl, hg⟩ := (next_mark_iff (by decide) (by decide) (by decide)).mp hn
      split at hlist
      case isTrue => contradiction
      case isFalse hhead =>
        obtain ⟨⟨items, after'⟩, hi, he⟩ := Option.bind_eq_some_iff.mp hlist
        cases he
        obtain ⟨inner, rest, rfl, hc, ha⟩ := cut_of_items? hinside hi
        refine ⟨gap, '(' :: inner ++ [')'], rest, by simp, hg, ⟨inner, rfl, ?_, items_of_cut hc⟩, ha⟩
        exact fun hgi => hhead (head?_closing_of_gap hinside hgi)
  · rintro ⟨gap, list, rest, rfl, hg, ⟨inner, rfl, hne, hitems⟩, ha⟩
    obtain ⟨items, hc, rfl⟩ := hitems.cut
    obtain ⟨ls, hls, hi⟩ := hc.items? ha
    have hn : Next false (gap ++ '(' :: inner ++ [')'] ++ rest) (.mark '(') (inner ++ ')' :: rest) :=
      (next_mark_iff (by decide) (by decide) (by decide)).mpr ⟨gap, by simp, hg⟩
    obtain ⟨all, hall, hs⟩ := skipBlanks_eq_cons_iff.mpr ⟨_, hn, hls⟩
    have hhead : (Statement.skipBlanks ls).head? ≠ some (.mark ')') := fun hh =>
      hne (gap_of_head?_closing hls hi ha hh)
    refine ⟨all, by simpa using hall, ?_⟩
    rw [Statement.list?, hs]
    simp only [if_neg hhead, hi, Option.bind_eq_bind, Option.bind_some]

end TableServer.Grammar
