import TableServer.Proofs.Text.Runs
import TableServer.Statement.Lexeme

namespace TableServer

namespace Lexeme

/-- The characters of words by their numbers, as other classes are told, so that the classes can be kept apart. -/
theorem isWordChar_iff (c : Char) : isWordChar c = true ↔
    (48 ≤ c.toNat ∧ c.toNat ≤ 57) ∨ (65 ≤ c.toNat ∧ c.toNat ≤ 90) ∨
      (97 ≤ c.toNat ∧ c.toNat ≤ 122) ∨ c.toNat = 95 := by
  have hu : c = '_' ↔ c.toNat = 95 := by
    rw [← Char.toNat_inj]
    rfl
  delta isWordChar Char.isAlphanum Char.isAlpha Char.isUpper Char.isLower Char.isDigit
  simp only [Bool.or_eq_true, Bool.and_eq_true, decide_eq_true_eq, UInt32.le_iff_toNat_le, ge_iff_le, hu]
  change ((((65 ≤ c.toNat ∧ c.toNat ≤ 90) ∨ (97 ≤ c.toNat ∧ c.toNat ≤ 122)) ∨
    (48 ≤ c.toNat ∧ c.toNat ≤ 57)) ∨ c.toNat = 95) ↔ _
  omega

theorem isBlank_iff (c : Char) : TableServer.isBlank c = true ↔
    ∃ r ∈ blankRanges, r.1 ≤ c.toNat ∧ c.toNat ≤ r.2 := by
  simp [TableServer.isBlank, Ranges.holds, Prod.exists]

theorem not_isBlank_of_isWordChar {c : Char} (h : isWordChar c = true) :
    TableServer.isBlank c = false := by
  rw [← Bool.not_eq_true, isBlank_iff]
  rw [isWordChar_iff] at h
  rintro ⟨r, hr, hlo, hhi⟩
  simp only [blankRanges, List.mem_cons, List.not_mem_nil, or_false] at hr
  rcases hr with rfl | rfl | rfl | rfl | rfl | rfl | rfl | rfl | rfl | rfl <;>
    simp only at hlo hhi <;> omega

theorem isQuote_iff (c : Char) : isQuote c = true ↔ c = '\'' ∨ c = '"' := by
  simp [isQuote]

theorem not_isBlank_of_isQuote {c : Char} (h : isQuote c = true) : TableServer.isBlank c = false := by
  rcases (isQuote_iff c).mp h with rfl | rfl <;> decide

theorem not_isWordChar_of_isQuote {c : Char} (h : isQuote c = true) : isWordChar c = false := by
  rcases (isQuote_iff c).mp h with rfl | rfl <;> decide

/-- Whether a list item starts behind a lexeme. -/
def opensAfter (opens : Bool) : Lexeme → Bool
  | blank _ => opens
  | word _ => false
  | quoted _ _ => false
  | mark c => opensItem c

/-- What a lexeme has to be like in front of `rest`. A run goes on as far as it can, and a quote is a mark
only where no list item starts. -/
def Fits (opens : Bool) (rest : List Char) : Lexeme → Prop
  | blank run =>
    run ≠ [] ∧ (∀ c ∈ run, TableServer.isBlank c = true) ∧
      ∀ c ∈ rest.head?, TableServer.isBlank c = false
  | word letters =>
    letters ≠ [] ∧ (∀ c ∈ letters, isWordChar c = true) ∧ ∀ c ∈ rest.head?, isWordChar c = false
  | quoted quote inner => opens = true ∧ isQuote quote = true ∧ quote ∉ inner
  | mark c =>
    TableServer.isBlank c = false ∧ isWordChar c = false ∧ (opens = true → isQuote c = false)

theorem Fits.text_ne_nil {opens : Bool} {rest : List Char} {l : Lexeme} (h : l.Fits opens rest) :
    l.text ≠ [] := by
  cases l with
  | blank run => exact h.1
  | word letters => exact h.1
  | quoted quote inner => simp [text]
  | mark c => simp [text]

/-- What stands behind a lexeme is shorter, so that a text can be gone through from the front. -/
theorem Fits.length_lt {opens : Bool} {rest : List Char} {l : Lexeme} (h : l.Fits opens rest) :
    rest.length < (l.text ++ rest).length := by
  have hpos := List.length_pos_iff.mpr h.text_ne_nil
  rw [List.length_append]
  omega

end Lexeme

open Lexeme

theorem lexemes_nil (opens : Bool) : lexemes opens [] = some [] := by
  rw [lexemes]

theorem lexemes_blank {opens : Bool} {run rest : List Char} (hne : run ≠ [])
    (hrun : ∀ c ∈ run, TableServer.isBlank c = true)
    (hrest : ∀ c ∈ rest.head?, TableServer.isBlank c = false) :
    lexemes opens (run ++ rest) = (lexemes opens rest).map (.blank run :: ·) := by
  cases run with
  | nil => contradiction
  | cons c run =>
    have hc := hrun c List.mem_cons_self
    have hrun' : ∀ d ∈ run, TableServer.isBlank d = true := fun d hd => hrun d (.tail _ hd)
    rw [List.cons_append, lexemes, if_pos hc, dropWhile_run hrun' hrest, takeWhile_run hrun' hrest]
    cases lexemes opens rest <;> rfl

theorem lexemes_word {opens : Bool} {letters rest : List Char} (hne : letters ≠ [])
    (hrun : ∀ c ∈ letters, isWordChar c = true)
    (hrest : ∀ c ∈ rest.head?, isWordChar c = false) :
    lexemes opens (letters ++ rest) = (lexemes false rest).map (.word letters :: ·) := by
  cases letters with
  | nil => contradiction
  | cons c letters =>
    have hc := hrun c List.mem_cons_self
    have hrun' : ∀ d ∈ letters, isWordChar d = true := fun d hd => hrun d (.tail _ hd)
    rw [List.cons_append, lexemes, if_neg (by simp [not_isBlank_of_isWordChar hc]), if_pos hc,
      dropWhile_run hrun' hrest, takeWhile_run hrun' hrest]
    cases lexemes false rest <;> rfl

theorem lexemes_quoted {quote : Char} {inner rest : List Char} (hq : isQuote quote = true)
    (hi : quote ∉ inner) :
    lexemes true (quote :: inner ++ quote :: rest) =
      (lexemes false rest).map (.quoted quote inner :: ·) := by
  have hinner : ∀ c ∈ inner, decide (c ≠ quote) = true := by
    intro c hc
    simp only [decide_eq_true_eq]
    rintro rfl
    exact hi hc
  have hstop : ∀ c ∈ (quote :: rest).head?, decide (c ≠ quote) = false := by simp
  have hheld : (inner ++ quote :: rest).contains quote = true := by simp
  rw [List.cons_append, lexemes, if_neg (by simp [not_isBlank_of_isQuote hq]),
    if_neg (by simp [not_isWordChar_of_isQuote hq]), if_pos (by simp [hq]), if_pos hheld,
    dropWhile_run hinner hstop, takeWhile_run hinner hstop]
  simp only [List.drop_succ_cons, List.drop_zero]
  cases lexemes false rest <;> rfl

/-- Any other character is a lexeme of its own. So is a quote where no item may start. -/
theorem lexemes_mark {opens : Bool} {c : Char} {rest : List Char}
    (hb : TableServer.isBlank c = false) (hw : isWordChar c = false)
    (hq : opens = true → isQuote c = false) :
    lexemes opens (c :: rest) = (lexemes (opensItem c) rest).map (.mark c :: ·) := by
  have hquote : ¬ (opens && isQuote c) = true := by
    cases opens <;> simp_all
  rw [lexemes, if_neg (by simp [hb]), if_neg (by simp [hw]), if_neg hquote]
  cases lexemes (opensItem c) rest <;> rfl

/-- A quote that opens an item and has no fellow behind it is the only thing that has no lexemes. -/
theorem lexemes_open {quote : Char} {rest : List Char} (hq : isQuote quote = true)
    (hr : quote ∉ rest) : lexemes true (quote :: rest) = none := by
  rw [lexemes, if_neg (by simp [not_isBlank_of_isQuote hq]),
    if_neg (by simp [not_isWordChar_of_isQuote hq]), if_pos (by simp [hq]), if_neg (by simpa using hr)]

theorem lexemes_of_fits {opens : Bool} {l : Lexeme} {rest : List Char} (h : l.Fits opens rest) :
    lexemes opens (l.text ++ rest) = (lexemes (l.opensAfter opens) rest).map (l :: ·) := by
  cases l with
  | blank run => exact lexemes_blank h.1 h.2.1 h.2.2
  | word letters => exact lexemes_word h.1 h.2.1 h.2.2
  | quoted quote inner =>
    obtain ⟨rfl, hq, hi⟩ := h
    simpa [text, opensAfter] using @lexemes_quoted _ _ rest hq hi
  | mark c => exact lexemes_mark h.1 h.2.1 h.2.2

/-- What stands at the front of a text: a lexeme that fits, unless a quote is left open there. -/
theorem front_cases (opens : Bool) (text : List Char) :
    text = [] ∨ (∃ (l : Lexeme) (rest : List Char), text = l.text ++ rest ∧ l.Fits opens rest) ∨
      (opens = true ∧ ∃ quote rest, text = quote :: rest ∧ isQuote quote = true ∧ quote ∉ rest) := by
  cases text with
  | nil => exact .inl rfl
  | cons c rest =>
    right
    by_cases hb : TableServer.isBlank c = true
    · refine .inl ⟨.blank (c :: rest.takeWhile TableServer.isBlank),
        rest.dropWhile TableServer.isBlank, ?_, by simp, ?_, head?_dropWhile_not _ _⟩
      · simp [Lexeme.text]
      · intro d hd
        rcases List.mem_cons.mp hd with rfl | hd
        · exact hb
        · exact List.all_eq_true.mp List.all_takeWhile d hd
    · by_cases hw : isWordChar c = true
      · refine .inl ⟨.word (c :: rest.takeWhile isWordChar), rest.dropWhile isWordChar, ?_, by simp, ?_,
          head?_dropWhile_not _ _⟩
        · simp [Lexeme.text]
        · intro d hd
          rcases List.mem_cons.mp hd with rfl | hd
          · exact hw
          · exact List.all_eq_true.mp List.all_takeWhile d hd
      · simp only [Bool.not_eq_true] at hb hw
        by_cases hq : opens = true ∧ isQuote c = true
        · by_cases hr : c ∈ rest
          · obtain ⟨inner, after, rfl, hi⟩ := List.eq_append_cons_of_mem hr
            exact .inl ⟨.quoted c inner, after, by simp [Lexeme.text], hq.1, hq.2, hi⟩
          · exact .inr ⟨hq.1, c, rest, rfl, hq.2, hr⟩
        · refine .inl ⟨.mark c, rest, rfl, hb, hw, ?_⟩
          intro ho
          simpa [ho] using hq

/-- The first lexeme of a text is the one that fits in front of the rest, and the others are those of the rest.
Whatever is shown of the lexemes of a text goes along this. -/
theorem lexemes_cons_iff {opens : Bool} {text : List Char} {l : Lexeme} {ls : List Lexeme} :
    lexemes opens text = some (l :: ls) ↔
      ∃ rest, text = l.text ++ rest ∧ l.Fits opens rest ∧
        lexemes (l.opensAfter opens) rest = some ls := by
  constructor
  · intro h
    rcases front_cases opens text with rfl | ⟨l', rest, rfl, hf⟩ | ⟨rfl, quote, rest, rfl, hq, hr⟩
    · simp [lexemes_nil] at h
    · rw [lexemes_of_fits hf] at h
      obtain ⟨ls', hls, he⟩ := Option.map_eq_some_iff.mp h
      cases he
      exact ⟨rest, rfl, hf, hls⟩
    · simp [lexemes_open hq hr] at h
  · rintro ⟨rest, rfl, hf, hls⟩
    simp [lexemes_of_fits hf, hls]

theorem lexemes_eq_nil_iff {opens : Bool} {text : List Char} :
    lexemes opens text = some [] ↔ text = [] := by
  constructor
  · intro h
    rcases front_cases opens text with rfl | ⟨l, rest, rfl, hf⟩ | ⟨rfl, quote, rest, rfl, hq, hr⟩
    · rfl
    · simp [lexemes_of_fits hf] at h
    · simp [lexemes_open hq hr] at h
  · rintro rfl
    exact lexemes_nil opens

/-- Written out in order, the lexemes of a text are the text. -/
theorem text_of_lexemes {opens : Bool} {text : List Char} {ls : List Lexeme}
    (h : lexemes opens text = some ls) : ls.flatMap Lexeme.text = text := by
  induction ls generalizing opens text with
  | nil => simp [lexemes_eq_nil_iff.mp h]
  | cons l ls ih =>
    obtain ⟨rest, rfl, -, hls⟩ := lexemes_cons_iff.mp h
    rw [List.flatMap_cons, ih hls]

end TableServer
