import TableServer.Proofs.Statement.Grammar
import TableServer.Proofs.Statement.Lexemes

namespace TableServer.Grammar
open Lexeme

namespace Scan

theorem after_append (s : Scan) (xs ys : List Char) : s.after (xs ++ ys) = (s.after xs).after ys :=
  List.foldl_append

theorem next_blank (opens : Bool) {c : Char} (h : TableServer.isBlank c = true) :
    (outside opens).next c = outside opens := by
  simp [next, h]

theorem next_mark {opens : Bool} {c : Char} (hb : TableServer.isBlank c = false)
    (hq : opens = true → isQuote c = false) :
    (outside opens).next c = outside (opensItem c) := by
  have hn : ¬ (opens = true ∧ (c = '\'' ∨ c = '"')) := by
    rintro ⟨ho, hc⟩
    rw [← isQuote_iff, hq ho] at hc
    contradiction
  simp [next, hb, hn, opensItem]

theorem next_word (opens : Bool) {c : Char} (h : isWordChar c = true) :
    (outside opens).next c = outside false := by
  have hq : isQuote c = false := by
    cases hq : isQuote c with
    | false => rfl
    | true => simp [not_isWordChar_of_isQuote hq] at h
  rw [next_mark (not_isBlank_of_isWordChar h) (fun _ => hq)]
  have ho : opensItem c = false := by
    cases ho : opensItem c with
    | false => rfl
    | true =>
      simp only [opensItem, Bool.or_eq_true, decide_eq_true_eq] at ho
      rcases ho with rfl | rfl <;> contradiction
  rw [ho]

theorem next_quote {quote : Char} (h : isQuote quote = true) :
    (outside true).next quote = inside quote := by
  have hq := (isQuote_iff quote).mp h
  simp [next, not_isBlank_of_isQuote h, hq]

/-- A region goes on until its own quote comes again, past quotes of the other kind. -/
theorem after_inside {quote : Char} {inner : List Char} (h : quote ∉ inner) :
    (inside quote).after inner = inside quote := by
  induction inner with
  | nil => rfl
  | cons c inner ih =>
    have hc : c ≠ quote := fun he => h (he ▸ List.mem_cons_self)
    change ((inside quote).next c).after inner = _
    rw [next, if_neg hc]
    exact ih (fun hm => h (.tail _ hm))

theorem after_blanks (opens : Bool) {run : List Char} (h : Gap run) :
    (outside opens).after run = outside opens := by
  induction run with
  | nil => rfl
  | cons c run ih =>
    change ((outside opens).next c).after run = _
    rw [next_blank opens (h c List.mem_cons_self)]
    exact ih (fun d hd => h d (.tail _ hd))

theorem after_word (opens : Bool) {letters : List Char} (hne : letters ≠ [])
    (h : ∀ c ∈ letters, isWordChar c = true) : (outside opens).after letters = outside false := by
  induction letters generalizing opens with
  | nil => contradiction
  | cons c letters ih =>
    change ((outside opens).next c).after letters = _
    rw [next_word opens (h c List.mem_cons_self)]
    cases letters with
    | nil => rfl
    | cons d letters => exact ih false (by simp) (fun e he => h e (.tail _ he))

/-- A lexeme leaves a scan outside of regions, and knowing what the lexeme knows. -/
theorem after_text {opens : Bool} {l : Lexeme} {rest : List Char} (h : l.Fits opens rest) :
    (outside opens).after l.text = outside (l.opensAfter opens) := by
  cases l with
  | blank run => exact after_blanks opens h.2.1
  | word letters => exact after_word opens h.1 h.2.1
  | quoted quote inner =>
    obtain ⟨rfl, hq, hi⟩ := h
    change ((outside true).next quote).after (inner ++ [quote]) = _
    rw [next_quote hq, after_append, after_inside hi]
    simp [after, next, opensAfter]
  | mark c => exact next_mark h.1 h.2.2

end Scan

/-- A text has lexemes just if the scan of its characters does not end in a quoted region. -/
theorem lexemes_isSome_iff (opens : Bool) (text : List Char) :
    (lexemes opens text).isSome = true ↔ ((Scan.outside opens).after text).isOutside = true := by
  rcases front_cases opens text with rfl | ⟨l, rest, rfl, hf⟩ | ⟨rfl, quote, rest, rfl, hq, hr⟩
  · simp [lexemes_nil, Scan.after, Scan.isOutside]
  · have hshorter := hf.length_lt
    rw [lexemes_of_fits hf, Scan.after_append, Scan.after_text hf, Option.isSome_map]
    exact lexemes_isSome_iff (l.opensAfter opens) rest
  · have hs : (Scan.outside true).after (quote :: rest) = .inside quote := by
      change ((Scan.outside true).next quote).after rest = _
      rw [Scan.next_quote hq, Scan.after_inside hr]
    simp [lexemes_open hq hr, hs, Scan.isOutside]
termination_by text.length

theorem lexemes_eq_none_iff (text : List Char) : lexemes false text = none ↔ ¬ Closed text := by
  rw [Closed, ← lexemes_isSome_iff, Bool.not_eq_true, Option.isSome_eq_false_iff, Option.isNone_iff_eq_none]

theorem unbroken_append (s : Scan) (xs ys : List Char) :
    Unbroken s (xs ++ ys) ↔ Unbroken s xs ∧ Unbroken (s.after xs) ys := by
  induction xs generalizing s with
  | nil => simp [Unbroken, Scan.after]
  | cons c xs ih =>
    change (_ ∧ Unbroken (s.next c) (xs ++ ys)) ↔ (_ ∧ Unbroken (s.next c) xs) ∧ _
    rw [ih, and_assoc]
    rfl

theorem unbroken_inside {quote : Char} {inner : List Char} (h : quote ∉ inner) :
    Unbroken (.inside quote) inner := by
  induction inner with
  | nil => trivial
  | cons c inner ih =>
    have hc : c ≠ quote := fun he => h (he ▸ List.mem_cons_self)
    refine ⟨by simp [Scan.isOutside], ?_⟩
    rw [Scan.next, if_neg hc]
    exact ih (fun hm => h (.tail _ hm))

/-- Marks that end an item. -/
def isBreak (c : Char) : Bool := c = ',' || c = ')'

theorem unbroken_run {opens : Bool} {run : List Char} (h : ∀ c ∈ run, isBreak c = false)
    (ho : ∀ opens c, c ∈ run → ((Scan.outside opens).next c).isOutside = true) :
    Unbroken (.outside opens) run := by
  induction run generalizing opens with
  | nil => trivial
  | cons c run ih =>
    have hc := h c List.mem_cons_self
    have hn := ho opens c List.mem_cons_self
    refine ⟨fun _ => by simpa [isBreak] using hc, ?_⟩
    cases hs : (Scan.outside opens).next c with
    | inside quote => simp [hs, Scan.isOutside] at hn
    | outside opens' =>
      exact ih (fun d hd => h d (.tail _ hd)) (fun opens d hd => ho opens d (.tail _ hd))

/-- A class without the comma and the parenthesis has no break. -/
theorem not_isBreak {p : Char → Bool} (hcomma : p ',' = false) (hclosing : p ')' = false) {c : Char}
    (h : p c = true) : isBreak c = false := by
  cases hb : isBreak c with
  | false => rfl
  | true =>
    simp only [isBreak, Bool.or_eq_true, decide_eq_true_eq] at hb
    rcases hb with rfl | rfl
    · exact absurd h (by simp [hcomma])
    · exact absurd h (by simp [hclosing])

theorem not_isBreak_of_isWordChar {c : Char} (h : isWordChar c = true) : isBreak c = false := not_isBreak rfl rfl h

theorem not_isBreak_of_isBlank {c : Char} (h : TableServer.isBlank c = true) : isBreak c = false :=
  not_isBreak rfl rfl h

/-- Only a mark can break a list, never a lexeme of another kind. -/
def Breaks : Lexeme → Prop
  | .mark c => isBreak c = true
  | _ => False

/-- A lexeme breaks a list just if it is a comma or a closing parenthesis outside of regions. -/
theorem unbroken_text {opens : Bool} {l : Lexeme} {rest : List Char} (h : l.Fits opens rest) :
    Unbroken (.outside opens) l.text ↔ ¬ Breaks l := by
  cases l with
  | blank run =>
    simp only [Breaks, not_false_eq_true, iff_true]
    exact unbroken_run (fun c hc => not_isBreak_of_isBlank (h.2.1 c hc))
      (fun o c hc => by simp [Scan.next_blank o (h.2.1 c hc), Scan.isOutside])
  | word letters =>
    simp only [Breaks, not_false_eq_true, iff_true]
    exact unbroken_run (fun c hc => not_isBreak_of_isWordChar (h.2.1 c hc))
      (fun o c hc => by simp [Scan.next_word o (h.2.1 c hc), Scan.isOutside])
  | quoted quote inner =>
    obtain ⟨rfl, hq, hi⟩ := h
    simp only [Breaks, not_false_eq_true, iff_true]
    have hqb : quote ≠ ',' ∧ quote ≠ ')' := by
      rcases (isQuote_iff quote).mp hq with rfl | rfl <;> decide
    refine ⟨fun _ => hqb, ?_⟩
    rw [Scan.next_quote hq]
    refine (unbroken_append _ inner [quote]).mpr ?_
    rw [Scan.after_inside hi]
    exact ⟨unbroken_inside hi, by simp [Scan.isOutside], trivial⟩
  | mark c => simp [Lexeme.text, Unbroken, Scan.isOutside, Breaks, isBreak]

end TableServer.Grammar
