import TableServer.Proofs.Statement.Regions

namespace TableServer.Grammar
open Lexeme

theorem not_isBlank_of_isBreak {c : Char} (h : isBreak c = true) : TableServer.isBlank c = false := by
  cases hb : TableServer.isBlank c with
  | false => rfl
  | true => simp [not_isBreak_of_isBlank hb] at h

theorem not_isWordChar_of_isBreak {c : Char} (h : isBreak c = true) : isWordChar c = false := by
  cases hw : isWordChar c with
  | false => rfl
  | true => simp [not_isBreak_of_isWordChar hw] at h

theorem not_isQuote_of_isBreak {c : Char} (h : isBreak c = true) : isQuote c = false := by
  simp only [isBreak, Bool.or_eq_true, decide_eq_true_eq] at h
  rcases h with rfl | rfl <;> decide

/-- Whether a lexeme fits depends on the next character alone. -/
theorem fits_congr {opens : Bool} {rest rest' : List Char} {l : Lexeme}
    (h : rest.head? = rest'.head?) : l.Fits opens rest ↔ l.Fits opens rest' := by
  cases l <;> simp only [Fits, h]

/-- A mark that ends an item can be taken away: no run goes on into it, and no region. -/
theorem fits_before_break {opens : Bool} {raw rest : List Char} {c : Char} {l : Lexeme}
    (hc : isBreak c = true) : l.Fits opens (raw ++ c :: rest) ↔ l.Fits opens raw := by
  cases raw with
  | cons d raw => exact fits_congr rfl
  | nil =>
    cases l <;> simp [Fits, not_isBlank_of_isBreak hc, not_isWordChar_of_isBreak hc]

theorem lexemes_break {opens : Bool} {c : Char} {rest : List Char} (hc : isBreak c = true) :
    lexemes opens (c :: rest) = (lexemes (opensItem c) rest).map (.mark c :: ·) :=
  lexemes_mark (not_isBlank_of_isBreak hc) (not_isWordChar_of_isBreak hc)
    (fun _ => not_isQuote_of_isBreak hc)

/-- An item is read on its own, whatever comes behind the mark that ends it. -/
theorem lexemes_item {opens : Bool} {raw : List Char} {c : Char} (hc : isBreak c = true)
    (hu : Unbroken (.outside opens) raw)
    (ho : ((Scan.outside opens).after raw).isOutside = true) (rest : List Char) :
    ∃ item, lexemes opens raw = some item ∧ (∀ l ∈ item, ¬ Breaks l) ∧
      lexemes opens (raw ++ c :: rest) =
        (lexemes (opensItem c) rest).map (fun ls => item ++ .mark c :: ls) := by
  rcases front_cases opens raw with rfl | ⟨l, raw, rfl, hf⟩ | ⟨rfl, quote, raw, rfl, hq, hr⟩
  · exact ⟨[], lexemes_nil opens, by simp, lexemes_break hc⟩
  · have hshorter := hf.length_lt
    rw [unbroken_append, Scan.after_text hf] at hu
    rw [Scan.after_append, Scan.after_text hf] at ho
    obtain ⟨item, hi, hb, he⟩ := lexemes_item hc hu.2 ho rest
    refine ⟨l :: item, ?_, ?_, ?_⟩
    · rw [lexemes_of_fits hf, hi, Option.map_some]
    · intro k hk
      rcases List.mem_cons.mp hk with rfl | hk
      · exact (unbroken_text hf).mp hu.1
      · exact hb k hk
    · rw [List.append_assoc, lexemes_of_fits ((fits_before_break hc).mpr hf), he, Option.map_map]
      rfl
  · change (((Scan.outside true).next quote).after raw).isOutside = true at ho
    rw [Scan.next_quote hq, Scan.after_inside hr] at ho
    contradiction
termination_by raw.length

theorem unbroken_of_lexemes {opens : Bool} {raw : List Char} {item : List Lexeme}
    (h : lexemes opens raw = some item) (hb : ∀ l ∈ item, ¬ Breaks l) :
    Unbroken (.outside opens) raw := by
  induction item generalizing opens raw with
  | nil => simp [lexemes_eq_nil_iff.mp h, Unbroken]
  | cons l item ih =>
    obtain ⟨raw, rfl, hf, hi⟩ := lexemes_cons_iff.mp h
    rw [unbroken_append, Scan.after_text hf]
    exact ⟨(unbroken_text hf).mpr (hb l List.mem_cons_self),
      ih hi (fun k hk => hb k (.tail _ hk))⟩

/-- The items of the grammar are the texts with lexemes that break no list. -/
theorem isItem_iff {raw : List Char} :
    IsItem raw ↔ ∃ item, lexemes true raw = some item ∧ ∀ l ∈ item, ¬ Breaks l := by
  constructor
  · rintro ⟨hu, ho⟩
    obtain ⟨item, hi, hb, -⟩ := lexemes_item (c := ',') rfl hu ho []
    exact ⟨item, hi, hb⟩
  · rintro ⟨item, hi, hb⟩
    refine ⟨unbroken_of_lexemes hi hb, ?_⟩
    rw [← lexemes_isSome_iff, hi]
    rfl

/-- Texts between commas with their lexemes; `opens` is for the first of them. -/
inductive Cut : Bool → List Char → List (List Lexeme) → Prop
  | last {opens : Bool} {raw : List Char} {item : List Lexeme} (hi : lexemes opens raw = some item)
    (hb : ∀ l ∈ item, ¬ Breaks l) : Cut opens raw [item]
  | more {opens : Bool} {raw rest : List Char} {item : List Lexeme} {items : List (List Lexeme)}
    (hi : lexemes opens raw = some item) (hb : ∀ l ∈ item, ¬ Breaks l) (h : Cut true rest items) :
    Cut opens (raw ++ ',' :: rest) (item :: items)

theorem Cut.cons {opens : Bool} {l : Lexeme} {inner rest : List Char} {item : List Lexeme}
    {items : List (List Lexeme)} (hf : l.Fits opens (inner ++ ')' :: rest)) (hl : ¬ Breaks l)
    (h : Cut (l.opensAfter opens) inner (item :: items)) :
    Cut opens (l.text ++ inner) ((l :: item) :: items) := by
  have hbreaks : ∀ item : List Lexeme, (∀ k ∈ item, ¬ Breaks k) → ∀ k ∈ l :: item, ¬ Breaks k := by
    intro item hb k hk
    rcases List.mem_cons.mp hk with rfl | hk
    · exact hl
    · exact hb k hk
  rw [fits_before_break rfl] at hf
  cases h with
  | last hi hb => exact .last (by rw [lexemes_of_fits hf, hi, Option.map_some]) (hbreaks _ hb)
  | more hi hb h =>
    rw [fits_before_break rfl] at hf
    rw [← List.append_assoc]
    exact .more (by rw [lexemes_of_fits hf, hi, Option.map_some]) (hbreaks _ hb) h

/-- The lexemes of an item are taken into the first one of the list, and nothing else changes. -/
theorem items?_item {item ls : List Lexeme} (hb : ∀ l ∈ item, ¬ Breaks l)
    {first : List Lexeme} {items : List (List Lexeme)} {after : List Lexeme}
    (h : Statement.items? ls = some (first :: items, after)) :
    Statement.items? (item ++ ls) = some ((item ++ first) :: items, after) := by
  induction item with
  | nil => simpa using h
  | cons l item ih =>
    have hl : l ≠ .mark ')' ∧ l ≠ .mark ',' := by
      have := hb l List.mem_cons_self
      constructor <;> rintro rfl <;> simp [Breaks, isBreak] at this
    rw [List.cons_append, Statement.items?, if_neg hl.1, ih (fun k hk => hb k (.tail _ hk))]
    simp only [if_neg hl.2, List.cons_append]

/-- Lists that are read end in a closing parenthesis, and their items are what stands between the commas in front of
it. -/
theorem cut_of_items? {opens : Bool} {text : List Char} {ls after : List Lexeme}
    {items : List (List Lexeme)} (h : lexemes opens text = some ls)
    (hi : Statement.items? ls = some (items, after)) :
    ∃ inner rest, text = inner ++ ')' :: rest ∧ Cut opens inner items ∧
      lexemes false rest = some after := by
  induction ls generalizing opens text items after with
  | nil => simp [Statement.items?] at hi
  | cons l ls ih =>
    obtain ⟨rest, rfl, hf, hls⟩ := lexemes_cons_iff.mp h
    rw [Statement.items?] at hi
    split at hi
    case isTrue hl =>
      subst hl
      cases hi
      exact ⟨[], rest, rfl, .last (lexemes_nil opens) (by simp), hls⟩
    case isFalse hl =>
      cases hr : Statement.items? ls with
      | none => simp [hr] at hi
      | some found =>
        obtain ⟨items', after'⟩ := found
        obtain ⟨inner, rest', rfl, hc, ha⟩ := ih hls hr
        simp only [hr] at hi
        split at hi
        case isTrue hcomma =>
          subst hcomma
          cases hi
          exact ⟨',' :: inner, rest', rfl, @Cut.more opens [] _ _ _ (lexemes_nil opens) (by simp) hc, ha⟩
        case isFalse hcomma =>
          cases items' with
          | nil => simp at hi
          | cons item items' =>
            cases hi
            have hb : ¬ Breaks l := by
              cases l with
              | mark c =>
                simp only [Breaks, isBreak, Bool.or_eq_true, decide_eq_true_eq]
                rintro (rfl | rfl) <;> contradiction
              | blank run => exact id
              | word letters => exact id
              | quoted quote inner => exact id
            exact ⟨l.text ++ inner, rest', (List.append_assoc ..).symm, .cons hf hb hc, ha⟩

/-- The other way round, texts between commas are the items that are read, up to the first closing parenthesis. -/
theorem Cut.items? {opens : Bool} {inner rest : List Char} {items : List (List Lexeme)}
    {after : List Lexeme} (h : Cut opens inner items) (ha : lexemes false rest = some after) :
    ∃ ls, lexemes opens (inner ++ ')' :: rest) = some ls ∧
      Statement.items? ls = some (items, after) := by
  have hscan : ∀ {opens raw} {item : List Lexeme}, lexemes opens raw = some item →
      ((Scan.outside opens).after raw).isOutside = true := by
    intro opens raw item hi
    rw [← lexemes_isSome_iff, hi]
    rfl
  induction h with
  | last hi hb =>
    obtain ⟨item, hi', -, he⟩ := lexemes_item (c := ')') rfl
      (unbroken_of_lexemes hi hb) (hscan hi) rest
    cases hi.symm.trans hi'
    have ha' : lexemes (opensItem ')') rest = some after := ha
    refine ⟨_, by rw [he, ha', Option.map_some], ?_⟩
    simpa using @items?_item _ (.mark ')' :: after) hb [] [] after (by simp [Statement.items?])
  | @more opens raw rest' item items hi hb h ih =>
    obtain ⟨ls, hls, hit⟩ := ih
    obtain ⟨item', hi', -, he⟩ := lexemes_item (c := ',') rfl
      (unbroken_of_lexemes hi hb) (hscan hi) (rest' ++ ')' :: rest)
    cases hi.symm.trans hi'
    have hls' : lexemes (opensItem ',') (rest' ++ ')' :: rest) = some ls := hls
    refine ⟨_, by rw [List.append_assoc, List.cons_append, he, hls', Option.map_some], ?_⟩
    simpa using @items?_item item (.mark ',' :: ls) hb [] items after (by simp [Statement.items?, hit])

end TableServer.Grammar
