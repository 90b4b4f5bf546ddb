import Mathlib.Data.List.Chain
import TableServer.Proofs.Statement.Decision
import TableServer.Statement.Token

namespace TableServer

open Lexeme

namespace Token

/-- What stands in a text at the place of a token. -/
def span (text : List Char) (t : Token) : List Char := (text.take t.stop).drop t.start

/-- Whether a place is one of those that a token stands at. -/
def Holds (t : Token) (place : Nat) : Prop := t.start ≤ place ∧ place < t.stop

/-- Whether a list item starts behind a token. -/
def opensItem (t : Token) : Bool := t.kind = .opening || t.kind = .comma

/-- A token that stands in a text. -/
structure Stands (text : List Char) (t : Token) : Prop where
  nonempty : t.start < t.stop
  inside : t.stop ≤ text.length
  notFinish : t.kind ≠ .finish
  form : t.kind = .string ∨ (t.kind = .word ∧ ∀ c ∈ t.value, isWordChar c = true) ∨
    ∃ c, t.value = [c] ∧ t.kind = .ofMark c ∧ isBlank c = false ∧ isWordChar c = false
  bare : t.kind ≠ .string → t.value = t.span text
  quoted : t.kind = .string → ∃ quote, isQuote quote = true ∧ quote ∉ t.value ∧ t.span text = quote :: t.value ++ [quote]

/-- A token with the next one behind it. -/
structure Next (t u : Token) : Prop where
  apart : t.stop ≤ u.start
  string : u.kind = .string → t.opensItem = true
  other : t.opensItem = true → u.kind = .other → ∀ quote, isQuote quote = true → u.value ≠ [quote]
  words : t.kind = .word → u.kind = .word → t.stop < u.start

theorem ofMark_ne (c : Char) : TokenKind.ofMark c ≠ .string ∧ TokenKind.ofMark c ≠ .word ∧ TokenKind.ofMark c ≠ .finish := by
  unfold TokenKind.ofMark
  repeat' split
  all_goals decide

theorem ofMark_opens (c : Char) :
    (decide (TokenKind.ofMark c = .opening) || decide (TokenKind.ofMark c = .comma)) = Lexeme.opensItem c := by
  unfold TokenKind.ofMark Lexeme.opensItem
  repeat' split
  all_goals simp_all

variable {opens : Bool} {before rest : List Char} {l : Lexeme} {t : Token}

/-- A token that comes first behind a place; `opens` says whether a list item starts there. -/
structure Begins (opens : Bool) (place : Nat) (rest : List Char) (t : Token) : Prop where
  string : t.kind = .string → opens = true
  other : opens = true → t.kind = .other → ∀ quote, isQuote quote = true → t.value ≠ [quote]
  word : t.kind = .word → t.start = place → ∃ c ∈ rest.head?, isWordChar c = true

theorem place_of_token? {start : Nat} (h : l.token? start = some t) :
    t.start = start ∧ t.stop = start + l.text.length := by
  cases l <;> cases h <;> exact ⟨rfl, rfl⟩

theorem token?_eq_none_iff {start : Nat} : l.token? start = none ↔ ∃ run, l = .blank run := by
  cases l <;> simp [token?]

theorem span_of_token? (h : l.token? before.length = some t) : t.span (before ++ (l.text ++ rest)) = l.text := by
  obtain ⟨hstart, hstop⟩ := place_of_token? h
  rw [span, hstart, hstop, ← List.append_assoc, List.take_left' List.length_append, List.drop_left]

/-- A token stands in the text at the place of its lexeme, and has its characters, in quotes if it is a string. -/
theorem stands_of_token? (hfits : l.Fits opens rest) (h : l.token? before.length = some t) :
    t.Stands (before ++ (l.text ++ rest)) := by
  obtain ⟨hstart, hstop⟩ := place_of_token? h
  have hpos := List.length_pos_iff.mpr hfits.text_ne_nil
  have hless : t.start < t.stop := by omega
  have hinside : t.stop ≤ (before ++ (l.text ++ rest)).length := by
    simp only [List.length_append]
    omega
  have hspan : t.span (before ++ (l.text ++ rest)) = l.text := span_of_token? h
  cases l with
  | blank run => cases h
  | word letters =>
    cases h
    exact ⟨hless, hinside, nofun, .inr (.inl ⟨rfl, hfits.2.1⟩), fun _ => hspan.symm, nofun⟩
  | quoted quote inner =>
    cases h
    exact ⟨hless, hinside, nofun, .inl rfl, fun hbare => absurd rfl hbare,
      fun _ => ⟨quote, hfits.2.1, hfits.2.2, hspan⟩⟩
  | mark c =>
    cases h
    exact ⟨hless, hinside, (ofMark_ne c).2.2, .inr (.inr ⟨c, rfl, rfl, hfits.1, hfits.2.1⟩), fun _ => hspan.symm,
      fun hs => absurd hs (ofMark_ne c).1⟩

theorem opensItem_of_token? {start : Nat} (h : l.token? start = some t) (opens : Bool) :
    t.opensItem = l.opensAfter opens := by
  cases l <;> cases h
  · rfl
  · rfl
  · exact ofMark_opens _

theorem begins_of_token? (hfits : l.Fits opens rest) (h : l.token? before.length = some t) :
    Begins opens before.length (l.text ++ rest) t := by
  cases l with
  | blank run => cases h
  | word letters =>
    cases h
    refine ⟨nofun, fun _ => nofun, fun _ _ => ?_⟩
    cases letters with
    | nil => exact absurd rfl hfits.1
    | cons c letters => exact ⟨c, rfl, hfits.2.1 c List.mem_cons_self⟩
  | quoted quote inner =>
    cases h
    exact ⟨fun _ => hfits.1, fun _ => nofun, nofun⟩
  | mark c =>
    cases h
    refine ⟨fun hs => absurd hs (ofMark_ne c).1, fun hopens _ quote hquote he => ?_, fun hw => absurd hw (ofMark_ne c).2.1⟩
    obtain rfl : c = quote := by simpa using he
    rw [hfits.2.2 hopens] at hquote
    contradiction

/-- Tokens that stand behind `before`, where `rest` is the text from there on. -/
structure Lays (opens : Bool) (before rest : List Char) (ts : List Token) : Prop where
  stands : ∀ t ∈ ts, before.length ≤ t.start ∧ t.Stands (before ++ rest)
  apart : ts.Pairwise fun t u => t.stop ≤ u.start
  next : ts.IsChain Next
  begins : ∀ t ∈ ts.head?, Begins opens before.length rest t
  covers (place : Nat) (c : Char) : before.length ≤ place → (before ++ rest)[place]? = some c →
    isBlank c = false → ∃ t ∈ ts, t.Holds place

variable {ts : List Token}

theorem lays_nil (opens : Bool) (before : List Char) : Lays opens before [] [] where
  stands := by simp
  apart := .nil
  next := .nil
  begins := by simp
  covers place c hplace hc := by
    have hless := (List.getElem?_eq_some_iff.mp hc).1
    rw [List.append_nil] at hless
    omega

/-- A place either belongs to a lexeme or lies behind it. -/
theorem place_cases {text : List Char} {place : Nat} {c : Char} (hplace : before.length ≤ place)
    (hc : (before ++ (text ++ rest))[place]? = some c) :
    (place < before.length + text.length ∧ c ∈ text) ∨ (before ++ text).length ≤ place := by
  rcases Nat.lt_or_ge place (before.length + text.length) with hless | hge
  · refine .inl ⟨hless, ?_⟩
    rw [List.getElem?_append_right hplace, List.getElem?_append_left (by omega)] at hc
    exact List.mem_of_getElem? hc
  · exact .inr (by rwa [List.length_append])

theorem Lays.blank {run : List Char} (hfits : (Lexeme.blank run).Fits opens rest) (h : Lays opens (before ++ run) rest ts) :
    Lays opens before (run ++ rest) ts := by
  have hpos := List.length_pos_iff.mpr hfits.1
  have hbehind : ∀ t ∈ ts, before.length + run.length ≤ t.start := fun t ht => by
    simpa using (h.stands t ht).1
  refine ⟨fun t ht => ?_, h.apart, h.next, fun t ht => ?_, fun place c hplace hc hsolid => ?_⟩
  · refine ⟨Nat.le_trans (Nat.le_add_right _ _) (hbehind t ht), ?_⟩
    rw [← List.append_assoc]
    exact (h.stands t ht).2
  · have hbegins := h.begins t ht
    refine ⟨hbegins.string, hbegins.other, fun _ hstart => ?_⟩
    have hafter := hbehind t (List.mem_of_mem_head? ht)
    omega
  · rcases place_cases hplace hc with ⟨_, hmem⟩ | hafter
    · rw [hfits.2.1 c hmem] at hsolid
      contradiction
    · exact h.covers place c hafter (by rwa [List.append_assoc]) hsolid

/-- What comes behind a token. A word ends where no more letters follow, so that there is a blank in front of the next. -/
theorem Begins.next {u : Token} (hfits : l.Fits opens rest) (h : l.token? before.length = some t)
    (hbegins : Begins (l.opensAfter opens) (before ++ l.text).length rest u) (hafter : (before ++ l.text).length ≤ u.start) :
    Next t u := by
  have hstop : t.stop = (before ++ l.text).length := by rw [(place_of_token? h).2, List.length_append]
  have hopens := opensItem_of_token? h opens
  refine ⟨by omega, fun hstring => ?_, fun hitem => ?_, fun hword hnext => ?_⟩
  · rw [hopens]
    exact hbegins.string hstring
  · rw [hopens] at hitem
    exact hbegins.other hitem
  · refine Nat.lt_of_le_of_ne (by omega) fun htouch => ?_
    obtain ⟨c, hc, hletter⟩ := hbegins.word hnext (by omega)
    cases l with
    | word letters =>
      rw [hfits.2.2 c hc] at hletter
      contradiction
    | mark d =>
      cases h
      exact (ofMark_ne d).2.1 hword
    | blank run => cases h
    | quoted quote inner =>
      cases h
      contradiction

theorem Lays.solid (hfits : l.Fits opens rest) (htoken : l.token? before.length = some t)
    (h : Lays (l.opensAfter opens) (before ++ l.text) rest ts) : Lays opens before (l.text ++ rest) (t :: ts) := by
  obtain ⟨hstart, hstop⟩ := place_of_token? htoken
  have hbehind : ∀ u ∈ ts, t.stop ≤ u.start := fun u hu => by
    rw [hstop, ← List.length_append]
    exact (h.stands u hu).1
  refine ⟨?_, List.pairwise_cons.mpr ⟨hbehind, h.apart⟩, ?_, ?_, fun place c hplace hc hsolid => ?_⟩
  · refine List.forall_mem_cons.mpr ⟨⟨Nat.le_of_eq hstart.symm, stands_of_token? hfits htoken⟩, fun u hu => ?_⟩
    rw [← List.append_assoc]
    exact ⟨by have := hbehind u hu; omega, (h.stands u hu).2⟩
  · refine List.isChain_cons.mpr ⟨fun u hu => ?_, h.next⟩
    exact (h.begins u hu).next hfits htoken (h.stands u (List.mem_of_mem_head? hu)).1
  · rintro u hu
    obtain rfl := Option.some.inj hu
    exact begins_of_token? hfits htoken
  · rcases place_cases hplace hc with ⟨hless, _⟩ | hafter
    · exact ⟨t, List.mem_cons_self, by omega, by omega⟩
    · obtain ⟨u, hu, hholds⟩ := h.covers place c hafter (by rwa [List.append_assoc]) hsolid
      exact ⟨u, List.mem_cons_of_mem t hu, hholds⟩

/-- The tokens of lexemes, without the one for the end. -/
def bodyOf (start : Nat) : List Lexeme → List Token
  | [] => []
  | l :: rest => (l.token? start).toList ++ bodyOf (start + l.text.length) rest

theorem ofLexemes_eq (start : Nat) (ls : List Lexeme) : ofLexemes start ls = bodyOf start ls ++
    [⟨.finish, [], start + (ls.flatMap Lexeme.text).length, start + (ls.flatMap Lexeme.text).length⟩] := by
  induction ls generalizing start with
  | nil => rfl
  | cons l rest ih => simp [ofLexemes, bodyOf, ih, Nat.add_assoc]

/-- The tokens of lexemes lie in a row that covers the text from where they start. This is the induction that all of
the clauses come from. -/
theorem lays_of_lexemes {ls : List Lexeme} (h : lexemes opens rest = some ls) :
    Lays opens before rest (bodyOf before.length ls) := by
  induction ls generalizing opens before rest with
  | nil =>
    obtain rfl := lexemes_eq_nil_iff.mp h
    exact lays_nil opens before
  | cons l ls ih =>
    obtain ⟨rest, rfl, hfits, hls⟩ := lexemes_cons_iff.mp h
    have hmore : Lays (l.opensAfter opens) (before ++ l.text) rest (bodyOf (before ++ l.text).length ls) := ih hls
    rw [List.length_append] at hmore
    rw [bodyOf]
    cases htoken : l.token? before.length with
    | some t => exact hmore.solid hfits htoken
    | none =>
      obtain ⟨run, rfl⟩ := token?_eq_none_iff.mp htoken
      exact hmore.blank hfits

end Token

namespace Lexeme

variable {opens : Bool} {rest : List Char} {l : Lexeme}

/-- Whether a list item starts behind lexemes. -/
def opensBehind (opens : Bool) (ls : List Lexeme) : Bool := ls.foldl (fun opens l => l.opensAfter opens) opens

theorem Fits.of_append {more : List Char} (h : l.Fits opens (rest ++ more)) : l.Fits opens rest := by
  have hhead : ∀ c ∈ rest.head?, c ∈ (rest ++ more).head? := fun c hc => by
    rw [List.head?_append, hc]
    rfl
  cases l with
  | blank run => exact ⟨h.1, h.2.1, fun c hc => h.2.2 c (hhead c hc)⟩
  | word letters => exact ⟨h.1, h.2.1, fun c hc => h.2.2 c (hhead c hc)⟩
  | quoted quote inner => exact h
  | mark c => exact h

/-- A quote goes on with no run. -/
theorem Fits.append_quote {quote : Char} (hquote : isQuote quote = true) (more : List Char) (h : l.Fits opens rest) :
    l.Fits opens (rest ++ quote :: more) := by
  have hhead : ∀ c ∈ (rest ++ quote :: more).head?, c ∈ rest.head? ∨ c = quote := fun c hc => by
    cases rest with
    | nil => exact .inr (Option.some.inj hc).symm
    | cons d rest => exact .inl hc
  cases l with
  | blank run =>
    refine ⟨h.1, h.2.1, fun c hc => ?_⟩
    rcases hhead c hc with hc | rfl
    · exact h.2.2 c hc
    · exact not_isBlank_of_isQuote hquote
  | word letters =>
    refine ⟨h.1, h.2.1, fun c hc => ?_⟩
    rcases hhead c hc with hc | rfl
    · exact h.2.2 c hc
    · exact not_isWordChar_of_isQuote hquote
  | quoted quote inner => exact h
  | mark c => exact h

end Lexeme

/-- A quote without a fellow behind it, at a place where a list item starts after the lexemes in front of it. -/
structure OpenAt (opens : Bool) (text before : List Char) (quote : Char) (rest : List Char) (ls : List Lexeme) : Prop where
  text_eq : text = before ++ quote :: rest
  quotes : isQuote quote = true
  alone : quote ∉ rest
  front : lexemes opens before = some ls
  opens : opensBehind opens ls = true

/-- Where a text has no lexemes, there is a quote that opens an item and is not closed. -/
theorem exists_openAt (opens : Bool) (text : List Char) (h : lexemes opens text = none) :
    ∃ before quote rest ls, OpenAt opens text before quote rest ls := by
  rcases front_cases opens text with rfl | ⟨l, rest, rfl, hfits⟩ | ⟨rfl, quote, rest, rfl, hquote, halone⟩
  · rw [lexemes_nil] at h
    contradiction
  · have hshorter := hfits.length_lt
    rw [lexemes_of_fits hfits, Option.map_eq_none_iff] at h
    obtain ⟨before, quote, rest, ls, rfl, hquote, halone, hls, hopens⟩ := exists_openAt (l.opensAfter opens) rest h
    refine ⟨l.text ++ before, quote, rest, l :: ls, (List.append_assoc _ _ _).symm, hquote, halone, ?_, hopens⟩
    exact lexemes_cons_iff.mpr ⟨before, rfl, hfits.of_append, hls⟩
  · exact ⟨[], quote, rest, [], rfl, hquote, halone, lexemes_nil true, rfl⟩
termination_by text.length

theorem OpenAt.lexemes_eq_none {opens : Bool} {text before rest : List Char} {quote : Char} {ls : List Lexeme}
    (h : OpenAt opens text before quote rest ls) : lexemes opens text = none := by
  obtain ⟨rfl, hquote, halone, hls, hopens⟩ := h
  induction ls generalizing opens before with
  | nil =>
    obtain rfl := lexemes_eq_nil_iff.mp hls
    obtain rfl : opens = true := hopens
    exact lexemes_open hquote halone
  | cons l ls ih =>
    obtain ⟨more, rfl, hfits, hmore⟩ := lexemes_cons_iff.mp hls
    rw [List.append_assoc, lexemes_of_fits (hfits.append_quote hquote rest), ih hmore hopens]
    rfl

namespace Token

theorem opensItem_getLast? (start : Nat) (opens : Bool) (ls : List Lexeme) :
    ((bodyOf start ls).getLast?.map opensItem).getD opens = opensBehind opens ls := by
  induction ls generalizing start opens with
  | nil => rfl
  | cons l ls ih =>
    have hmore := ih (start + l.text.length) (l.opensAfter opens)
    change _ = opensBehind (l.opensAfter opens) ls
    rw [← hmore, bodyOf]
    cases htoken : l.token? start with
    | none =>
      obtain ⟨run, rfl⟩ := token?_eq_none_iff.mp htoken
      rfl
    | some t =>
      rw [← opensItem_of_token? htoken opens]
      change ((t :: bodyOf (start + l.text.length) ls).getLast?.map opensItem).getD opens = _
      rw [List.getLast?_cons]
      cases (bodyOf (start + l.text.length) ls).getLast? <;> rfl

/-- The token behind all others. -/
def finish (text : List Char) : Token := ⟨.finish, [], text.length, text.length⟩

theorem tokens_eq {text : List Char} {ls : List Lexeme} (h : lexemes false text = some ls) :
    tokens text = some (bodyOf 0 ls ++ [finish text]) := by
  rw [tokens, h, Option.map_some, ofLexemes_eq, text_of_lexemes h, Nat.zero_add]
  rfl

theorem tokens_eq_none_iff {text : List Char} : tokens text = none ↔ lexemes false text = none :=
  Option.map_eq_none_iff

/-- Tokens that a text can be made from again, up to what blanks there are: they lie in a row, and between them are
blanks only, so that a part of the text that is cut out by places is what was written there. -/
structure Cover (text : List Char) (ts : List Token) : Prop where
  stands : ∀ t ∈ ts, t.Stands text
  apart : ts.Pairwise fun t u => t.stop ≤ u.start
  next : ts.IsChain Next
  first : ∀ t ∈ ts.head?, t.kind ≠ .string
  once (place : Nat) (c : Char) : text[place]? = some c → isBlank c = false → ∃! t, t ∈ ts ∧ t.Holds place
  gaps (place : Nat) (c : Char) : text[place]? = some c → (∀ t ∈ ts, ¬ t.Holds place) → isBlank c = true

/-- A text with a quote right behind an opening mark or a comma, and no other such quote further on. -/
def LeftOpen (text : List Char) : Prop :=
  ∃ before quote rest front last, text = before ++ quote :: rest ∧ isQuote quote = true ∧ quote ∉ rest ∧
    tokens before = some (front ++ [last, finish before]) ∧ last.opensItem = true

theorem eq_of_holds {ts : List Token} (hapart : ts.Pairwise fun t u => t.stop ≤ u.start) {place : Nat} {t u : Token}
    (ht : t ∈ ts) (hu : u ∈ ts) (htp : t.Holds place) (hup : u.Holds place) : t = u := by
  have hsame : ts.Pairwise fun t u => t.Holds place → u.Holds place → t = u := hapart.imp fun htu htp hup => by
    have := htp.2
    have := hup.1
    omega
  have : Std.Symm fun t u : Token => t.Holds place → u.Holds place → t = u := ⟨fun _ _ h hup htp => (h htp hup).symm⟩
  exact List.Pairwise.forall_of_forall (fun _ _ _ _ => rfl) hsame ht hu htp hup

theorem cover_of_lexemes {text : List Char} {ls : List Lexeme} (h : lexemes false text = some ls) :
    Cover text (bodyOf 0 ls) := by
  have hlays : Lays false [] text (bodyOf 0 ls) := lays_of_lexemes h
  have hcovers := fun place c => hlays.covers place c (Nat.zero_le place)
  refine ⟨fun t ht => (hlays.stands t ht).2, hlays.apart, hlays.next, fun t ht hstring => ?_,
    fun place c hc hsolid => ?_, fun place c hc hnone => ?_⟩
  · cases (hlays.begins t ht).string hstring
  · obtain ⟨t, ht, hholds⟩ := hcovers place c hc hsolid
    exact ⟨t, ⟨ht, hholds⟩, fun u hu => eq_of_holds hlays.apart hu.1 ht hu.2 hholds⟩
  · by_contra hsolid
    obtain ⟨t, ht, hholds⟩ := hcovers place c hc (by simpa using hsolid)
    exact hnone t ht hholds

/-- An open quote is told by tokens as it is told by lexemes: the last token in front of it opens an item. -/
theorem leftOpen_iff {text : List Char} : LeftOpen text ↔ lexemes false text = none := by
  constructor
  · rintro ⟨before, quote, rest, front, last, htext, hquote, halone, hbefore, hlast⟩
    cases hls : lexemes false before with
    | none =>
      rw [tokens_eq_none_iff.mpr hls] at hbefore
      contradiction
    | some ls =>
      rw [tokens_eq hls, Option.some_inj] at hbefore
      have hbody : bodyOf 0 ls = front ++ [last] := by
        have hall : bodyOf 0 ls ++ [finish before] = (front ++ [last]) ++ [finish before] := by simpa using hbefore
        exact List.append_cancel_right hall
      have hopens := opensItem_getLast? 0 false ls
      rw [hbody, List.getLast?_concat, Option.map_some, Option.getD_some, hlast] at hopens
      exact OpenAt.lexemes_eq_none ⟨htext, hquote, halone, hls, hopens.symm⟩
  · intro h
    obtain ⟨before, quote, rest, ls, htext, hquote, halone, hls, hopens⟩ := exists_openAt false text h
    rw [← opensItem_getLast? 0 false ls] at hopens
    cases hlast : (bodyOf 0 ls).getLast? with
    | none =>
      rw [hlast] at hopens
      contradiction
    | some last =>
      rw [hlast] at hopens
      obtain ⟨front, hfront⟩ := List.getLast?_eq_some_iff.mp hlast
      refine ⟨before, quote, rest, front, last, htext, hquote, halone, ?_, hopens⟩
      rw [tokens_eq hls, hfront, List.append_assoc]
      rfl

/-- What is to be said of the tokens of a text. -/
structure Tokenized (text : List Char) : Prop where
  returned (ts : List Token) : tokens text = some ts → ∃ front, ts = front ++ [finish text] ∧ Cover text front
  failed : tokens text = none ↔ LeftOpen text
  rejected (limit : Nat) : parseChars limit text = .error .openQuote ↔ LeftOpen text

/-- The tokens of a text lie in a row in front of the one for the end, with nothing but blanks left between them. There
are none just where a scan comes to a quote that starts a list item and is not closed, which is what the rejection with
that message means. -/
theorem tokens_lossless (text : List Char) :
    Tokenized text ∧ Rejection.openQuote.message = "unterminated quoted value" := by
  refine ⟨⟨fun ts hts => ?_, ?_, fun limit => ?_⟩, rfl⟩
  · cases hls : lexemes false text with
    | none =>
      rw [tokens_eq_none_iff.mpr hls] at hts
      contradiction
    | some ls =>
      rw [tokens_eq hls, Option.some_inj] at hts
      exact ⟨bodyOf 0 ls, hts.symm, cover_of_lexemes hls⟩
  · rw [tokens_eq_none_iff, leftOpen_iff]
  · rw [leftOpen_iff, Grammar.lexemes_eq_none_iff, parseChars_eq_openQuote_iff]

end Token

end TableServer
