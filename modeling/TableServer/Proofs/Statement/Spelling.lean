import TableServer.Proofs.Statement.Items

namespace TableServer.Grammar
open Lexeme

/-- A text for a lexeme that shows whether the lexeme is blank by its first character. -/
def Shows (f : Lexeme → List Char) (l : Lexeme) : Prop :=
  if l.isBlank then Gap (f l) else ∃ c rest, f l = c :: rest ∧ TableServer.isBlank c = false

/-- Blanks can be taken from a text just as well as from its lexemes. It is used from both ends, with the texts of
lexemes in reverse as well. -/
theorem flatMap_skipBlanks {f : Lexeme → List Char} {ls : List Lexeme} (h : ∀ l ∈ ls, Shows f l) :
    (Statement.skipBlanks ls).flatMap f = (ls.flatMap f).dropWhile TableServer.isBlank := by
  induction ls with
  | nil => rfl
  | cons l ls ih =>
    have hl := h l List.mem_cons_self
    have ih := ih (fun k hk => h k (.tail _ hk))
    rw [Shows] at hl
    split at hl
    case isTrue hb =>
      rw [Statement.skipBlanks, List.dropWhile_cons_of_pos hb, List.flatMap_cons,
        List.dropWhile_append_of_pos hl]
      exact ih
    case isFalse hb =>
      obtain ⟨c, rest, hc, hcb⟩ := hl
      rw [Statement.skipBlanks, List.dropWhile_cons_of_neg hb, List.flatMap_cons, hc,
        List.cons_append, List.dropWhile_cons_of_neg (by simp [hcb])]

theorem shows_of_fits {opens : Bool} {rest : List Char} {l : Lexeme} (h : l.Fits opens rest) :
    Shows Lexeme.text l ∧ Shows (fun l => l.text.reverse) l := by
  cases l with
  | blank run => exact ⟨h.2.1, fun c hc => h.2.1 c (List.mem_reverse.mp hc)⟩
  | word letters =>
    obtain ⟨hne, hw, -⟩ := h
    have hnb : ∀ c ∈ letters, TableServer.isBlank c = false :=
      fun c hc => not_isBlank_of_isWordChar (hw c hc)
    constructor
    · obtain ⟨c, rest, he⟩ := List.exists_cons_of_ne_nil hne
      exact ⟨c, rest, he, hnb c (he ▸ List.mem_cons_self)⟩
    · obtain ⟨c, rest, he⟩ := List.exists_cons_of_ne_nil (mt List.reverse_eq_nil_iff.mp hne)
      exact ⟨c, rest, he, hnb c (List.mem_reverse.mp (he ▸ List.mem_cons_self))⟩
  | quoted quote inner =>
    have hq := not_isBlank_of_isQuote h.2.1
    exact ⟨⟨quote, inner ++ [quote], rfl, hq⟩, ⟨quote, inner.reverse ++ [quote], by simp [Lexeme.text], hq⟩⟩
  | mark c => exact ⟨⟨c, [], rfl, h.1⟩, ⟨c, [], rfl, h.1⟩⟩

theorem fits_of_mem {opens : Bool} {text : List Char} {ls : List Lexeme}
    (h : lexemes opens text = some ls) : ∀ l ∈ ls, ∃ opens rest, l.Fits opens rest := by
  induction ls generalizing opens text with
  | nil => simp
  | cons l ls ih =>
    obtain ⟨rest, rfl, hf, hls⟩ := lexemes_cons_iff.mp h
    intro k hk
    rcases List.mem_cons.mp hk with rfl | hk
    · exact ⟨opens, rest, hf⟩
    · exact ih hls k hk

theorem shows_of_mem {opens : Bool} {text : List Char} {ls : List Lexeme}
    (h : lexemes opens text = some ls) :
    ∀ l ∈ ls, Shows Lexeme.text l ∧ Shows (fun l => l.text.reverse) l := by
  intro l hl
  obtain ⟨_, _, hf⟩ := fits_of_mem h l hl
  exact shows_of_fits hf

theorem skipBlanks_subset {ls : List Lexeme} : ∀ l ∈ Statement.skipBlanks ls, l ∈ ls :=
  fun _ hl => (List.dropWhile_suffix _).subset hl

/-- The lexemes of an item without the blanks around it. -/
def core (item : List Lexeme) : List Lexeme :=
  (Statement.skipBlanks (Statement.skipBlanks item).reverse).reverse

theorem flatMap_core {opens : Bool} {raw : List Char} {item : List Lexeme}
    (h : lexemes opens raw = some item) :
    (core item).flatMap Lexeme.text = trimBoth TableServer.isBlank raw := by
  have hs := shows_of_mem h
  have hleft : (Statement.skipBlanks item).flatMap Lexeme.text =
      raw.dropWhile TableServer.isBlank := by
    rw [flatMap_skipBlanks (fun l hl => (hs l hl).1), text_of_lexemes h]
  have hright := @flatMap_skipBlanks (fun l => l.text.reverse) (Statement.skipBlanks item).reverse
    (fun l hl => (hs l (skipBlanks_subset l (List.mem_reverse.mp hl))).2)
  have hrev : ∀ ls : List Lexeme,
      ls.flatMap (fun l => l.text.reverse) = (ls.reverse.flatMap Lexeme.text).reverse := by
    intro ls
    rw [List.reverse_flatMap, List.reverse_reverse]
    rfl
  rw [hrev, hrev, List.reverse_reverse, hleft] at hright
  rw [core, trimBoth, ← hright, List.reverse_reverse]

theorem lexemes_skipBlanks {opens : Bool} {text : List Char} {ls : List Lexeme}
    (h : lexemes opens text = some ls) :
    lexemes opens (text.dropWhile TableServer.isBlank) = some (Statement.skipBlanks ls) := by
  induction ls generalizing opens text with
  | nil =>
    rw [lexemes_eq_nil_iff.mp h]
    exact lexemes_nil opens
  | cons l ls ih =>
    obtain ⟨rest, rfl, hf, hls⟩ := lexemes_cons_iff.mp h
    have hl := (shows_of_fits hf).1
    rw [Shows] at hl
    split at hl
    case isTrue hb =>
      have ho : l.opensAfter opens = opens := by
        cases l <;> first | rfl | contradiction
      rw [List.dropWhile_append_of_pos hl, Statement.skipBlanks, List.dropWhile_cons_of_pos hb]
      exact ih (ho ▸ hls)
    case isFalse hb =>
      obtain ⟨c, tail, hc, hcb⟩ := hl
      have hstay : (l.text ++ rest).dropWhile TableServer.isBlank = l.text ++ rest := by
        rw [hc, List.cons_append, List.dropWhile_cons_of_neg (by simp [hcb])]
      rw [hstay, Statement.skipBlanks, List.dropWhile_cons_of_neg hb]
      exact h

theorem isBlank_of_gap {opens : Bool} {gap : List Char} {ls : List Lexeme} (hg : Gap gap)
    (h : lexemes opens gap = some ls) : ∀ l ∈ ls, l.isBlank = true := by
  intro l hl
  have hs := (shows_of_mem h l hl).1
  rw [Shows] at hs
  split at hs
  case isTrue hb => exact hb
  case isFalse hb =>
    obtain ⟨c, rest, hc, hcb⟩ := hs
    have hmem : c ∈ gap := by
      rw [← text_of_lexemes h]
      exact List.mem_flatMap.mpr ⟨l, hl, hc ▸ List.mem_cons_self⟩
    simp [hg c hmem] at hcb

theorem core_of_region {raw inner : List Char} {item : List Lexeme} {quote : Char}
    (h : lexemes true raw = some item) (hq : isQuote quote = true) (hi : quote ∉ inner)
    (ht : trimBoth TableServer.isBlank raw = quote :: inner ++ [quote]) :
    core item = [.quoted quote inner] := by
  let kept := raw.dropWhile TableServer.isBlank
  let gap := (kept.reverse.takeWhile TableServer.isBlank).reverse
  have hgap : Gap gap := fun c hc => List.all_eq_true.mp List.all_takeWhile c (List.mem_reverse.mp hc)
  have hkept : kept = quote :: inner ++ quote :: gap := by
    have hsplit : kept = trimBoth TableServer.isBlank raw ++ gap := by
      rw [trimBoth, ← List.reverse_append, List.takeWhile_append_dropWhile, List.reverse_reverse]
    rw [hsplit, ht]
    simp
  have hls := lexemes_skipBlanks h
  change lexemes true kept = _ at hls
  rw [hkept, lexemes_quoted hq hi] at hls
  obtain ⟨ls, hgl, he⟩ := Option.map_eq_some_iff.mp hls
  have hblank := isBlank_of_gap hgap hgl
  rw [core, ← he, List.reverse_cons, Statement.skipBlanks,
    List.dropWhile_append_of_pos (fun l hl => hblank l (List.mem_reverse.mp hl))]
  rfl

theorem stands_itemText {raw : List Char} {item : List Lexeme} (h : lexemes true raw = some item) :
    Stands (trimBoth TableServer.isBlank raw) (Statement.itemText item) := by
  have hc := flatMap_core h
  unfold Statement.itemText
  dsimp only
  split
  case h_1 quote inner hcore =>
    change core item = _ at hcore
    have hm : Lexeme.quoted quote inner ∈ item := by
      have : Lexeme.quoted quote inner ∈ core item := hcore ▸ List.mem_cons_self
      exact skipBlanks_subset _ (List.mem_reverse.mp (skipBlanks_subset _ (List.mem_reverse.mp this)))
    obtain ⟨_, _, -, hq, hi⟩ := fits_of_mem h _ hm
    rw [← hc, hcore]
    simpa [Lexeme.text] using Stands.quoted ((isQuote_iff quote).mp hq) hi
  case h_2 hcore =>
    change Stands _ ((core item).flatMap Lexeme.text)
    rw [hc]
    refine .bare ?_
    intro quote inner hq hi he
    exact hcore quote inner (core_of_region h ((isQuote_iff quote).mpr hq) hi he)

/-- No text stands for two values: with quotes around it that belong together it is not bare. -/
theorem Stands.unique {text value value' : List Char} (h : Stands text value)
    (h' : Stands text value') : value = value' := by
  cases h with
  | quoted hq hi =>
    generalize ht : _ :: _ ++ [_] = text at h'
    cases h' with
    | quoted hq' hi' => simp_all
    | bare hb => exact (hb _ _ hq hi ht.symm).elim
  | bare hb =>
    cases h' with
    | quoted hq' hi' => exact (hb _ _ hq' hi' rfl).elim
    | bare _ => rfl

theorem items_of_cut {inner : List Char} {items : List (List Lexeme)} (h : Cut true inner items) :
    Items inner (items.map fun item => String.ofList (Statement.itemText item)) := by
  generalize ho : true = opens at h
  induction h with
  | last hi hb =>
    subst ho
    exact .last (isItem_iff.mpr ⟨_, hi, hb⟩) (stands_itemText hi)
  | more hi hb _ ih =>
    subst ho
    exact .more (isItem_iff.mpr ⟨_, hi, hb⟩) (stands_itemText hi) (ih rfl)

theorem Items.cut {inner : List Char} {values : List String} (h : Items inner values) :
    ∃ items, Cut true inner items ∧
      values = items.map fun item => String.ofList (Statement.itemText item) := by
  induction h with
  | last hr hv =>
    obtain ⟨item, hi, hb⟩ := isItem_iff.mp hr
    exact ⟨[item], .last hi hb, by rw [hv.unique (stands_itemText hi), List.map_singleton]⟩
  | more hr hv _ ih =>
    obtain ⟨item, hi, hb⟩ := isItem_iff.mp hr
    obtain ⟨items, hc, rfl⟩ := ih
    exact ⟨item :: items, .more hi hb hc, by rw [hv.unique (stands_itemText hi), List.map_cons]⟩

end TableServer.Grammar
