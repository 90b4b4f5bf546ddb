import TableServer.Proofs.Json.Limits

namespace TableServer.Json

open Text

section

variable {α β : Type} {cs ds tail rest : List Char}

/-- Refused for a character that cannot stand where it does, or for the end of the text. -/
def Malformed (read : Except Failure α) : Prop := ∃ complaint rest, read = .error (.malformed complaint rest)

theorem Malformed.bind {read : Except Failure α} (h : Malformed read) (f : α → Except Failure β) :
    Malformed (read >>= f) := by
  obtain ⟨complaint, rest, rfl⟩ := h
  exact ⟨complaint, rest, rfl⟩

/-- A reader that takes a text from the front of another, or finds that one malformed. -/
def Finds (reader : Reader α) (cs ds : List Char) : Prop :=
  Malformed (reader ds) ∨ ∃ a rest, reader ds = .ok (a, rest) ∧ ds = cs ++ rest

/-- A text that is taken as a whole or not at all, wherever it is cut off. Arrays, objects and strings are written so:
a reader finds a part of one malformed. -/
def Closed (reader : Reader α) (cs : List Char) : Prop := ∀ ds tail, ds <+: cs ++ tail → Finds reader cs ds

/-- A text that is taken as a whole, or as far as it goes. Every written value is: a part of a number may be a number,
but the reader of the array or object around it cannot go on from there. -/
structure Cuttable (reader : Reader α) (cs : List Char) : Prop where
  opens : ∃ c more, cs = c :: more ∧ isJsonBlank c = false ∧ c ≠ ']'
  cut : ∀ ds tail, EndsNumber tail → ds <+: cs ++ tail → Finds reader cs ds ∨ ∃ a, reader ds = .ok (a, [])

/-- A cut is inside the first part, or behind it. -/
theorem prefix_cases (h : ds <+: cs ++ tail) : ds <+: cs ∨ ∃ rest, ds = cs ++ rest ∧ rest <+: tail := by
  rcases List.prefix_or_prefix_of_prefix h (List.prefix_append cs tail) with hcut | ⟨rest, rfl⟩
  · exact .inl hcut
  · exact .inr ⟨rest, rfl, (List.prefix_append_right_inj cs).mp h⟩

theorem EndsNumber.of_prefix (h : EndsNumber tail) (hrest : rest <+: tail) : EndsNumber rest := by
  intro c hc
  obtain ⟨more, rfl⟩ := hrest
  exact h c (by rw [List.head?_append, hc, Option.some_or])

/-- Behind blanks that are cut off there is nothing, and else what is left of the text behind them. -/
theorem skipBlanks_of_prefix {blanks more : List Char} {c : Char} (hblanks : Blanks blanks)
    (hc : isJsonBlank c = false) (h : ds <+: blanks ++ c :: more) :
    skipBlanks ds <+: c :: more ∧ (skipBlanks ds = [] ∨ ds = blanks ++ skipBlanks ds) := by
  rcases prefix_cases h with hcut | ⟨rest, rfl, hrest⟩
  · rw [skipBlanks_all fun d hd => hblanks d (hcut.subset hd)]
    exact ⟨List.nil_prefix, .inl rfl⟩
  · rw [skipBlanks_append hblanks]
    rcases List.prefix_cons_iff.mp hrest with rfl | ⟨rest, rfl, _⟩
    · exact ⟨List.nil_prefix, .inl rfl⟩
    · rw [skipBlanks_cons hc]
      exact ⟨hrest, .inr rfl⟩

end

/-- What a string is read as does not depend on what comes behind it. -/
theorem stringBody_append {opening cs rest : List Char} {pieces : List Piece}
    (h : stringBody opening cs = .ok (pieces, rest)) (more : List Char) :
    stringBody opening (cs ++ more) = .ok (pieces, rest ++ more) := by
  fun_induction stringBody opening cs generalizing pieces rest with
  | case2 after =>
    obtain ⟨rfl, rfl⟩ := Prod.mk.inj (Except.ok.inj h)
    rw [List.cons_append, stringBody.eq_def]
    rfl
  | case4 a b c d unit e after hunit _ ih =>
    obtain ⟨⟨pieces', rest'⟩, hbody, h⟩ := bind_ok.mp h
    obtain ⟨rfl, rfl⟩ := Prod.mk.inj (Except.ok.inj h)
    have hmore : stringBody opening (e :: (after ++ more)) = _ := ih hbody
    rw [stringBody.eq_def]
    simp only [List.cons_append, hunit, Char.reduceEq, ↓reduceIte, hmore]
    rfl
  | case7 e after hescape d hd hquote ih =>
    obtain ⟨⟨pieces', rest'⟩, hbody, h⟩ := bind_ok.mp h
    obtain ⟨rfl, rfl⟩ := Prod.mk.inj (Except.ok.inj h)
    rw [stringBody.eq_def]
    simp only [List.cons_append, hescape, hd, Char.reduceEq, ↓reduceIte, ih hbody]
    rfl
  | case10 c after hquote hescape hplain ih =>
    obtain ⟨⟨pieces', rest'⟩, hbody, h⟩ := bind_ok.mp h
    obtain ⟨rfl, rfl⟩ := Prod.mk.inj (Except.ok.inj h)
    rw [stringBody.eq_def]
    simp only [List.cons_append, hquote, hescape, hplain, ↓reduceIte, ih hbody]
    rfl
  | _ => contradiction

/-- A string ends with its closing quote and not before. -/
theorem closed_string {ascii : Bool} (opening name : List Char) :
    Closed (string opening) (name.flatMap (spelling ascii) ++ ['"']) := by
  intro ds tail hds
  rw [List.append_assoc, List.singleton_append] at hds
  obtain ⟨more, hmore⟩ := hds
  cases hbody : stringBody opening ds with
  | error e =>
    obtain ⟨complaint, rest, rfl⟩ := stringBody_error hbody
    refine .inl ⟨complaint, rest, ?_⟩
    rw [string, hbody]
    rfl
  | ok read =>
    obtain ⟨pieces, rest⟩ := read
    have hwhole := stringBody_append hbody more
    rw [hmore, stringBody_flatMap_spelling] at hwhole
    obtain ⟨_, rfl⟩ := Prod.mk.inj (Except.ok.inj hwhole)
    refine .inr ⟨joinPieces pieces, rest, by rw [string, hbody]; rfl, ?_⟩
    refine List.append_cancel_right (hmore.trans ?_ : ds ++ more = _ ++ more)
    simp

variable {fuel depth : Nat} {ds : List Char}

theorem malformed_value_nil (fuel depth : Nat) : Malformed (value fuel depth []) := by
  cases depth <;> exact ⟨.value, [], rfl⟩

/-- A text that is read as a value is cuttable if whatever is left of it is malformed or read as a value. -/
theorem Reads.cuttable {item : Reader Value} {v : Value} {cs : List Char} (h : Reads item v cs)
    (hcut : ∀ ds, ds <+: cs → Malformed (item ds) ∨ ∃ u, item ds = .ok (u, [])) : Cuttable item cs := by
  obtain ⟨c, more, hcs, hblank, hc, _⟩ := h.opens
  refine ⟨⟨c, more, hcs, hblank, hc⟩, fun ds tail htail hds => ?_⟩
  rcases prefix_cases hds with hpart | ⟨rest, rfl, hrest⟩
  · rcases hcut ds hpart with hmalformed | htaken
    · exact .inl (.inl hmalformed)
    · exact .inr htaken
  · exact .inl (.inr ⟨v, rest, h.takes rest (htail.of_prefix hrest), rfl⟩)

/-- The first digits of a number are those of another one. -/
theorem prefix_toDigits {n : Nat} (h : ds <+: Nat.toDigits 10 n) : ds = [] ∨ ∃ m, ds = Nat.toDigits 10 m := by
  induction n using Nat.strongRecOn with
  | ind n ih =>
    by_cases hn : n < 10
    · rw [Nat.toDigits_of_lt_base hn] at h
      rcases List.prefix_cons_iff.mp h with rfl | ⟨t, rfl, ht⟩
      · exact .inl rfl
      · obtain rfl := List.prefix_nil.mp ht
        exact .inr ⟨n, (Nat.toDigits_of_lt_base hn).symm⟩
    · have hdigits := Nat.toDigits_of_base_le (b := 10) (by decide) (Nat.le_of_not_lt hn)
      rw [hdigits] at h
      rcases List.prefix_concat_iff.mp h with rfl | hless
      · exact .inr ⟨n, hdigits.symm⟩
      · exact ih (n / 10) (by omega) hless

theorem value_negative {n : Nat} (h : (Nat.toDigits 10 n).length ≤ digitLimit) (fuel depth : Nat) :
    value fuel depth ('-' :: Nat.toDigits 10 n) = .ok (.integer (-(n : Int)), []) := by
  obtain ⟨d, more, hd, hdigit⟩ := exists_cons_toDigits n
  have hnumber := number_negative h endsNumber_nil
  rw [List.append_nil] at hnumber
  rw [value_eq_scalar (by decide) (by decide) (by decide), scalar,
    words_find?_eq_none hdigit ⟨more, .inr (by rw [hd])⟩]
  exact hnumber

/-- A sign alone is no number, and of digits any part is one. -/
theorem cuttable_integer {n : Int} {cs : List Char} (h : writeInteger n = .ok (ofChars cs)) (fuel depth : Nat) :
    Cuttable (value fuel depth) cs := by
  refine (reads_integer h fuel depth).cuttable fun ds hds => ?_
  obtain ⟨hlimit, hcs⟩ := writeInteger_eq h
  obtain rfl := ofChars_inj hcs
  have hshort : ∀ {es}, es <+: Nat.toDigits 10 n.natAbs → es.length ≤ digitLimit :=
    fun hes => Nat.le_trans hes.length_le hlimit
  split at hds
  · rcases List.prefix_cons_iff.mp hds with rfl | ⟨es, rfl, hes⟩
    · exact .inl (malformed_value_nil fuel depth)
    · rcases prefix_toDigits hes with rfl | ⟨m, rfl⟩
      · refine .inl ⟨.value, ['-'], ?_⟩
        rw [value_eq_scalar (by decide) (by decide) (by decide)]
        rfl
      · exact .inr ⟨_, value_negative (hshort hes) fuel depth⟩
  · rcases prefix_toDigits hds with rfl | ⟨m, rfl⟩
    · exact .inl (malformed_value_nil fuel depth)
    · have hm : writeInteger (m : Int) = .ok (ofChars (Nat.toDigits 10 m)) := by
        unfold writeInteger
        exact if_neg (Nat.not_lt.mpr (hshort hds))
      have htakes := (reads_integer hm fuel depth).takes [] endsNumber_nil
      rw [List.append_nil] at htakes
      exact .inr ⟨_, htakes⟩

theorem number_letter {c : Char} (hdigit : c.isDigit = false) (hminus : c ≠ '-') (more : List Char) :
    Malformed (number (c :: more)) := by
  have hzero : c ≠ '0' := by
    rintro rfl
    contradiction
  refine ⟨.value, c :: more, ?_⟩
  unfold number
  split
  next negative unsigned hsign =>
  have hplain : unsigned = c :: more := by
    split at hsign
    · next heq => exact absurd (List.cons.inj heq).1 hminus
    · exact (Prod.mk.inj hsign).2.symm
  have hnone : wholePart (c :: more) = none := by
    unfold wholePart
    split
    · next heq => exact absurd (List.cons.inj heq).1 hzero
    · next heq =>
      rw [← (List.cons.inj heq).1, hdigit]
      rfl
    · contradiction
  rw [hplain, hnone]

/-- A part of a word is no word, and no number either. -/
theorem cuttable_word {c : Char} {more : List Char} {v : Value} (hreads : Reads (value fuel depth) v (c :: more))
    (hstart : StartsScalar c) (hdigit : c.isDigit = false) (hminus : c ≠ '-')
    (hwords : ∀ w ∈ words, w.1 <+: c :: more → w.1 = c :: more) : Cuttable (value fuel depth) (c :: more) := by
  refine hreads.cuttable fun ds hds => ?_
  obtain ⟨_, hc⟩ := hstart
  simp only [List.mem_cons, List.not_mem_nil, or_false, not_or] at hc
  rcases List.prefix_cons_iff.mp hds with rfl | ⟨es, rfl, hes⟩
  · exact .inl (malformed_value_nil fuel depth)
  · rw [value_eq_scalar hc.1 hc.2.1 hc.2.2.2.1]
    unfold scalar
    split
    · next word v' hfind =>
      have hfound : word <+: c :: es := by simpa using List.find?_some hfind
      obtain rfl : word = c :: more := hwords _ (List.mem_of_find?_eq_some hfind) (hfound.trans hds)
      rw [hfound.eq_of_length_le hds.length_le, List.drop_length]
      exact .inr ⟨v', rfl⟩
    · exact .inl (number_letter hdigit hminus es)

theorem cuttable_null (fuel depth : Nat) : Cuttable (value fuel depth) ['n', 'u', 'l', 'l'] :=
  cuttable_word (reads_null fuel depth) (by decide) rfl (by decide) (by simp [words, List.prefix_cons_iff])

theorem cuttable_true (fuel depth : Nat) : Cuttable (value fuel depth) ['t', 'r', 'u', 'e'] :=
  cuttable_word (reads_true fuel depth) (by decide) rfl (by decide) (by simp [words, List.prefix_cons_iff])

theorem cuttable_false (fuel depth : Nat) : Cuttable (value fuel depth) ['f', 'a', 'l', 's', 'e'] :=
  cuttable_word (reads_false fuel depth) (by decide) rfl (by decide) (by simp [words, List.prefix_cons_iff])

theorem Closed.cuttable {α : Type} {reader : Reader α} {c : Char} {more : List Char} (h : Closed reader (c :: more))
    (hblank : isJsonBlank c = false) (hc : c ≠ ']') : Cuttable reader (c :: more) :=
  ⟨⟨c, more, rfl, hblank, hc⟩, fun ds tail _ hds => .inl (h ds tail hds)⟩

theorem closed_value_string (ascii : Bool) (cs : List Char) (fuel depth : Nat) :
    Closed (value fuel depth) ('"' :: (cs.flatMap (spelling ascii) ++ ['"'])) := by
  intro ds tail hds
  rcases List.prefix_cons_iff.mp hds with rfl | ⟨body, rfl, hbody⟩
  · exact .inl (malformed_value_nil fuel depth)
  · unfold Finds
    rw [value]
    rcases closed_string ('"' :: body) cs body tail hbody with hmalformed | ⟨t, rest, htaken, rfl⟩
    · exact .inl (hmalformed.bind _)
    · rw [htaken]
      exact .inr ⟨.string t, rest, rfl, rfl⟩

theorem cuttable_leaf {layout : Layout} {v : Value} {level : Nat} {w : Text} (hleaf : IsLeaf v)
    (hv : Fits IsChars depth v) (hw : writeAt layout level v = .ok w) :
    ∃ cs, w = ofChars cs ∧ ∀ fuel, Cuttable (value fuel depth) cs := by
  cases v with
  | null =>
    obtain rfl := Except.ok.inj hw
    exact ⟨_, rfl, fun fuel => cuttable_null fuel depth⟩
  | boolean b =>
    obtain rfl := Except.ok.inj hw
    cases b with
    | true => exact ⟨_, rfl, fun fuel => cuttable_true fuel depth⟩
    | false => exact ⟨_, rfl, fun fuel => cuttable_false fuel depth⟩
  | integer n =>
    obtain ⟨_, rfl⟩ := writeInteger_eq hw
    exact ⟨_, rfl, fun fuel => cuttable_integer hw fuel depth⟩
  | real x =>
    rw [Fits] at hv
    exact hv.elim
  | string t =>
    obtain rfl := Except.ok.inj hw
    rw [Fits] at hv
    obtain ⟨cs, rfl⟩ := hv.exists_ofChars
    exact ⟨_, writeString_ofChars layout.ascii cs, fun fuel =>
      (closed_value_string layout.ascii cs fuel depth).cuttable rfl (by decide)⟩
  | array vs => exact hleaf.elim
  | object ms => exact hleaf.elim

section

variable {α : Type}

section

variable {closing : Char} {entry : Reader α} {a : α} {ds rest : List Char} (fuel : Nat)

theorem entries_refused (h : Malformed (entry ds)) : Malformed (entries closing entry (fuel + 1) ds) := h.bind _

/-- Where the text ends behind an entry there is neither a comma nor a bracket to go on with. -/
theorem entries_stopped (h : entry ds = .ok (a, rest)) (hrest : skipBlanks rest = []) :
    Malformed (entries closing entry (fuel + 1) ds) := by
  refine ⟨.comma, [], ?_⟩
  rw [entries, h]
  simp only [bind, Except.bind, hrest]

/-- A cut behind the first entry, or inside it. -/
theorem entries_cut {cs tail : List Char} (hfirst : Cuttable entry cs) (htail : EndsNumber tail) (hds : ds <+: cs ++ tail) :
    Malformed (entries closing entry (fuel + 1) ds) ∨ ∃ a rest, entry ds = .ok (a, rest) ∧ ds = cs ++ rest ∧ rest <+: tail := by
  rcases hfirst.cut ds tail htail hds with (hrefused | ⟨a, rest, hone, rfl⟩) | ⟨a, hone⟩
  · exact .inl (entries_refused fuel hrefused)
  · exact .inr ⟨a, rest, hone, rfl, (List.prefix_append_right_inj cs).mp hds⟩
  · exact .inl (entries_stopped fuel hone rfl)

end

/-- Entries are taken up to their closing bracket and not before, if every one of them is taken as far as it goes. -/
theorem closed_entries {closing : Char} (hblank : isJsonBlank closing = false) (hends : ∀ tail, EndsNumber (closing :: tail))
    (hcomma : closing ≠ ',') {entry : Reader α} {between last : List Char} (hbetween : Blanks between)
    (hlast : Blanks last) {cs : List Char} {css : List (List Char)} (hfirst : Cuttable entry cs)
    (hmore : ∀ ds ∈ css, Cuttable entry ds) (fuel : Nat) :
    Closed (entries closing entry fuel) (cs ++ (moreItems between css ++ (last ++ [closing]))) := by
  -- On the entries behind the first. A cut in one of them leaves either a malformed text, or nothing behind a part of it,
  -- where the reader misses a comma.
  induction css generalizing cs fuel with
  | nil =>
    intro ds tail hds
    cases fuel with
    | zero => exact .inl ⟨.value, ds, rfl⟩
    | succ fuel =>
      have hpart : ds <+: cs ++ (last ++ closing :: tail) := by simpa [moreItems] using hds
      rcases entries_cut fuel hfirst (hlast.endsNumber_append (hends tail)) hpart with hcut | ⟨a, rest, hone, rfl, hrest⟩
      · exact .inl hcut
      · obtain ⟨hafter, hthere⟩ := skipBlanks_of_prefix hlast hblank hrest
        rcases List.prefix_cons_iff.mp hafter with hnil | ⟨after, hclosed, _⟩
        · exact .inl (entries_stopped fuel hone hnil)
        · refine .inr ⟨[a], after, entries_closed fuel hone hclosed, ?_⟩
          rw [hclosed] at hthere
          rw [hthere.resolve_left (List.cons_ne_nil _ _)]
          simp [moreItems]
  | cons second css ih =>
    intro ds tail hds
    cases fuel with
    | zero => exact .inl ⟨.value, ds, rfl⟩
    | succ fuel =>
      obtain ⟨hsecond, hothers⟩ := List.forall_mem_cons.mp hmore
      have hclosed := ih hsecond hothers fuel
      obtain ⟨c, more, rfl, hc, _⟩ := hsecond.opens
      rw [moreItems_cons] at hds ⊢
      have hpart : ds <+: cs ++ ',' :: (between ++ c :: (more ++ (moreItems between css ++ (last ++ closing :: tail)))) := by
        simpa using hds
      rcases entries_cut fuel hfirst endsNumber_cons hpart with hcut | ⟨a, rest, hone, rfl, hrest⟩
      · exact .inl hcut
      · rcases List.prefix_cons_iff.mp hrest with rfl | ⟨after, rfl, hafter⟩
        · exact .inl (entries_stopped fuel hone rfl)
        · obtain ⟨hnext, hthere⟩ := skipBlanks_of_prefix hbetween hc hafter
          have hgoes := entries_comma fuel hcomma hone (skipBlanks_cons rfl)
          rcases hclosed (skipBlanks after) tail (by simpa using hnext) with hrefused | ⟨as, end_, htaken, hend⟩
          · exact .inl (hgoes ▸ hrefused.bind _)
          · refine .inr ⟨a :: as, end_, by rw [hgoes, htaken]; rfl, ?_⟩
            have hne : skipBlanks after ≠ [] := by simp [hend]
            rw [hthere.resolve_left hne, hend]
            simp

/-- A member whose value is taken as far as it goes is taken so itself. -/
theorem cuttable_member {item : Reader Value} {ascii : Bool} (name : List Char) {colon value : List Char}
    (hcolon : Blanks colon) (hvalue : Cuttable item value) :
    Cuttable (member item) ('"' :: name.flatMap (spelling ascii) ++ '"' :: ':' :: colon ++ value) := by
  refine ⟨⟨'"', _, rfl, rfl, by decide⟩, fun ds tail htail hds => ?_⟩
  simp only [List.cons_append, List.append_assoc] at hds
  rcases List.prefix_cons_iff.mp hds with rfl | ⟨body, rfl, hbody⟩
  · exact .inl (.inl ⟨.name, [], member_no_name (by simp)⟩)
  · have hquoted : body <+: (name.flatMap (spelling ascii) ++ ['"']) ++ ':' :: (colon ++ (value ++ tail)) := by
      simpa using hbody
    rcases closed_string ('"' :: body) name body _ hquoted with ⟨complaint, place, hrefused⟩ | ⟨t, rest, hname, rfl⟩
    · exact .inl (.inl ⟨complaint, place, member_error hrefused⟩)
    · rcases List.prefix_cons_iff.mp ((List.prefix_append_right_inj _).mp hquoted) with rfl | ⟨before, rfl, hbefore⟩
      · exact .inl (.inl ⟨.colon, [], member_no_colon hname (by simp [skipBlanks])⟩)
      · obtain ⟨c, more, rfl, hc, _⟩ := hvalue.opens
        obtain ⟨hnext, hthere⟩ := skipBlanks_of_prefix hcolon hc hbefore
        have hgoes : member item _ = _ := member_colon hname (skipBlanks_cons rfl)
        rcases hvalue.cut (skipBlanks before) tail htail hnext with
          (⟨complaint, place, hrefused⟩ | ⟨v, rest, hone, hrest⟩) | ⟨v, hone⟩
        · exact .inl (.inl ⟨complaint, place, by rw [hgoes, hrefused]; rfl⟩)
        · refine .inl (.inr ⟨(t, v), rest, by rw [hgoes, hone]; rfl, ?_⟩)
          have hne : skipBlanks before ≠ [] := by simp [hrest]
          rw [hthere.resolve_left hne, hrest]
          simp
        · exact .inr ⟨(t, v), by rw [hgoes, hone]; rfl⟩

end

section

variable {α : Type} {opening closing : Char} {list : Reader α} {build : α → Value}

/-- A value that opens with a bracket and has something inside. -/
def Brackets (fuel depth : Nat) (opening closing : Char) (list : Reader α) (build : α → Value) : Prop :=
  ∀ more, (skipBlanks more).head? ≠ some closing →
    value fuel depth (opening :: more) = list (skipBlanks more) >>= fun read => .ok (build read.1, read.2)

theorem brackets_array (fuel depth : Nat) :
    Brackets fuel (depth + 1) '[' ']' (entries ']' (value fuel depth) fuel) Value.array := by
  intro more hmore
  rw [value, array_eq, bracketed, if_neg hmore]

theorem brackets_object (fuel depth : Nat) : Brackets fuel (depth + 1) '\x7b' '\x7d'
    (entries '\x7d' (member (value fuel depth)) fuel) fun ms => .object (mergeMembers ms) := by
  intro more hmore
  rw [value, object_eq, bracketed, if_neg hmore]

/-- A cut behind the opening bracket leaves a part of the list, and blanks, which are not enough. -/
theorem closed_brackets {first body : List Char} {c : Char} (hvalue : Brackets fuel depth opening closing list build)
    (hfirst : Blanks first) (hblank : isJsonBlank c = false) (hc : c ≠ closing) (hlist : Closed list (c :: body)) :
    Closed (value fuel depth) (opening :: (first ++ c :: body)) := by
  intro ds tail hds
  rcases List.prefix_cons_iff.mp hds with rfl | ⟨more, rfl, hmore⟩
  · exact .inl (malformed_value_nil fuel depth)
  · obtain ⟨hnext, hthere⟩ := skipBlanks_of_prefix hfirst hblank (by simpa using hmore)
    have hopen : (skipBlanks more).head? ≠ some closing := by
      rcases List.prefix_cons_iff.mp hnext with hnil | ⟨_, hcons, _⟩
      · simp [hnil]
      · simp [hcons, hc]
    have hgoes := hvalue more hopen
    rcases hlist (skipBlanks more) tail hnext with hrefused | ⟨a, rest, htaken, hrest⟩
    · exact .inl (hgoes ▸ hrefused.bind _)
    · refine .inr ⟨build a, rest, by rw [hgoes, htaken]; rfl, ?_⟩
      have hne : skipBlanks more ≠ [] := by simp [hrest]
      rw [hthere.resolve_left hne, hrest]
      simp

/-- An empty pair of brackets. -/
theorem closed_empty {v : Value} (hvalue : Brackets fuel depth opening closing list build) (hlist : Malformed (list []))
    (hempty : ∀ rest, value fuel depth (opening :: closing :: rest) = .ok (v, rest)) :
    Closed (value fuel depth) [opening, closing] := by
  intro ds tail hds
  rcases List.prefix_cons_iff.mp hds with rfl | ⟨more, rfl, hmore⟩
  · exact .inl (malformed_value_nil fuel depth)
  · rcases List.prefix_cons_iff.mp hmore with rfl | ⟨rest, rfl, _⟩
    · exact .inl (hvalue [] (by simp [skipBlanks]) ▸ hlist.bind _)
    · exact .inr ⟨v, rest, hempty rest, rfl⟩

theorem malformed_entries_nil {α : Type} {closing : Char} {entry : Reader α} (h : Malformed (entry [])) (fuel : Nat) :
    Malformed (entries closing entry fuel []) := by
  cases fuel with
  | zero => exact ⟨.value, [], rfl⟩
  | succ fuel => exact entries_refused fuel h

end

/-- Items between brackets, and whatever blanks are around them, are taken as a whole or not at all. -/
theorem closed_bracketed {α : Type} {opening closing : Char} {entry : Reader α} {build : List α → Value} {fuel : Nat}
    (hvalue : Brackets fuel depth opening closing (entries closing entry fuel) build) (hbracket : closing = ']' ∨ closing = '\x7d')
    {first between last : List Char} (hfirst : Blanks first) (hbetween : Blanks between) (hlast : Blanks last)
    {cs : List Char} {css : List (List Char)} (hone : Cuttable entry cs) (hnot : cs.head? ≠ some closing)
    (hmore : ∀ ds ∈ css, Cuttable entry ds) :
    Closed (value fuel depth) (opening :: (first ++ (cs ++ (moreItems between css ++ (last ++ [closing]))))) := by
  have hlist : Closed (entries closing entry fuel) (cs ++ (moreItems between css ++ (last ++ [closing]))) := by
    rcases hbracket with rfl | rfl
    · exact closed_entries rfl (fun _ => endsNumber_cons) (by decide) hbetween hlast hone hmore fuel
    · exact closed_entries rfl (fun _ => endsNumber_cons) (by decide) hbetween hlast hone hmore fuel
  obtain ⟨c, more, rfl, hblank, _⟩ := hone.opens
  exact closed_brackets hvalue hfirst hblank (fun heq => hnot (congrArg some heq)) hlist

theorem forall_cuttable {α β : Type} {entry : Reader α} {P : β → List Char → Prop} {bs : List β} {css : List (List Char)}
    (h : List.Forall₂ P bs css) (hone : ∀ b cs, P b cs → Cuttable entry cs) : ∀ cs ∈ css, Cuttable entry cs := by
  induction h with
  | nil => exact fun cs hcs => absurd hcs List.not_mem_nil
  | cons hfirst _ ih => exact List.forall_mem_cons.mpr ⟨hone _ _ hfirst, ih⟩

/-- What is written for an array is taken as a whole or not at all, if its items are taken as far as they go. -/
theorem closed_array {layout : Layout} (hl : layout.Spaced) {level : Nat}
    (hone : ∀ {v : Value} {w : Text}, Fits IsChars depth v → writeAt layout (level + 1) v = .ok w →
      ∃ cs, w = ofChars cs ∧ ∀ fuel, Cuttable (value fuel depth) cs) {vs : List Value} {w : Text}
    (hvs : ∀ v ∈ vs, Fits IsChars depth v) (hw : writeAt layout level (.array vs) = .ok w) :
    ∃ more, w = ofChars ('[' :: more) ∧ ∀ fuel, Closed (value fuel (depth + 1)) ('[' :: more) := by
  obtain ⟨first, between, last, hfirst, hbetween, hlast, henclose⟩ := layout.enclose_ofChars hl level
  obtain ⟨ws, hws, rfl⟩ := writeAt_array_iff.mp hw
  obtain ⟨css, rfl, hcss⟩ := exists_items (P := fun _ cs => ∀ fuel, Cuttable (value fuel depth) cs) hone hvs
    (writeItems_eq_ok_iff.mp hws)
  cases hcss with
  | nil =>
    refine ⟨[']'], rfl, fun fuel => closed_empty (v := .array []) (brackets_array fuel depth) ?_ fun rest => ?_⟩
    · exact malformed_entries_nil (malformed_value_nil fuel depth) fuel
    · rw [value, array, skipBlanks_cons rfl]
      rfl
  | @cons v cs vs css hitem hmore =>
    refine ⟨_, henclose '[' ']' cs css, fun fuel => ?_⟩
    have hopens : cs.head? ≠ some ']' := by
      obtain ⟨c, more, rfl, _, hc⟩ := (hitem fuel).opens
      exact fun heq => hc (Option.some.inj heq)
    exact closed_bracketed (brackets_array fuel depth) (.inl rfl) hfirst hbetween hlast (hitem fuel) hopens
      (forall_cuttable hmore fun _ _ h => h fuel)

theorem closed_object {layout : Layout} (hl : layout.Spaced) {level : Nat}
    (hone : ∀ {v : Value} {w : Text}, Fits IsChars depth v → writeAt layout (level + 1) v = .ok w →
      ∃ cs, w = ofChars cs ∧ ∀ fuel, Cuttable (value fuel depth) cs) {ms : List (Text × Value)} {w : Text}
    (hms : ∀ m ∈ ms, m.1.IsChars ∧ Fits IsChars depth m.2) (hw : writeAt layout level (.object ms) = .ok w) :
    ∃ more, w = ofChars ('\x7b' :: more) ∧ ∀ fuel, Closed (value fuel (depth + 1)) ('\x7b' :: more) := by
  obtain ⟨first, between, last, hfirst, hbetween, hlast, henclose⟩ := layout.enclose_ofChars hl level
  obtain ⟨ws, hws, rfl⟩ := writeAt_object_iff.mp hw
  obtain ⟨css, rfl, hcss⟩ := exists_members (P := fun _ cs => ∀ fuel, Cuttable (value fuel depth) cs) hl hone hms
    (writeMembers_eq_ok_iff.mp hws)
  have hmember : ∀ fuel m cs, SpellsMember layout.ascii (fun _ cs => ∀ fuel, Cuttable (value fuel depth) cs) m cs →
      Cuttable (member (value fuel depth)) cs := by
    rintro fuel m cs ⟨name, colon, value, _, hcolon, hvalue, rfl⟩
    exact cuttable_member name hcolon (hvalue fuel)
  cases hcss with
  | nil =>
    refine ⟨['\x7d'], rfl, fun fuel => closed_empty (v := .object []) (brackets_object fuel depth) ?_ fun rest => ?_⟩
    · exact malformed_entries_nil ⟨.name, [], member_no_name (by simp)⟩ fuel
    · rw [value, object, skipBlanks_cons rfl]
      rfl
  | @cons m cs ms css hitem hmore =>
    refine ⟨_, henclose '\x7b' '\x7d' cs css, fun fuel => ?_⟩
    have hopens : cs.head? ≠ some '\x7d' := by
      obtain ⟨name, colon, value, _, _, _, rfl⟩ := hitem
      simp
    exact closed_bracketed (brackets_object fuel depth) (.inr rfl) hfirst hbetween hlast (hmember fuel m cs hitem) hopens
      (forall_cuttable hmore (hmember fuel))

/-- What is written for a value is taken as far as it goes. -/
theorem cuttable_writeAt {layout : Layout} (hl : layout.Spaced) {v : Value} {level : Nat} {w : Text}
    (hv : Fits IsChars depth v) (hw : writeAt layout level v = .ok w) :
    ∃ cs, w = ofChars cs ∧ ∀ fuel, Cuttable (value fuel depth) cs := by
  induction depth generalizing v level w with
  | zero =>
    have hleaf : IsLeaf v := by
      cases v with
      | array vs => exact hv.elim
      | object ms => exact hv.elim
      | _ => trivial
    exact cuttable_leaf hleaf hv hw
  | succ depth ih =>
    cases v with
    | array vs =>
      obtain ⟨more, hw, hclosed⟩ := closed_array hl (fun h hx => ih h hx) hv hw
      exact ⟨_, hw, fun fuel => (hclosed fuel).cuttable rfl (by decide)⟩
    | object ms =>
      obtain ⟨more, hw, hclosed⟩ := closed_object hl (fun h hx => ih h hx) hv.2 hw
      exact ⟨_, hw, fun fuel => (hclosed fuel).cuttable rfl (by decide)⟩
    | _ => exact cuttable_leaf (by exact trivial) hv hw

/-- What is written for an array or an object is taken as a whole or not at all. -/
theorem closed_writeAt {layout : Layout} (hl : layout.Spaced) {v : Value} (hleaf : ¬ IsLeaf v) {level : Nat} {w : Text}
    (hv : Fits IsChars (depth + 1) v) (hw : writeAt layout level v = .ok w) :
    ∃ c more, isOpening c = true ∧ w = ofChars (c :: more) ∧ ∀ fuel, Closed (value fuel (depth + 1)) (c :: more) := by
  cases v with
  | array vs =>
    obtain ⟨more, hw, hclosed⟩ := closed_array hl (fun h hx => cuttable_writeAt hl h hx) hv hw
    exact ⟨_, more, rfl, hw, hclosed⟩
  | object ms =>
    obtain ⟨more, hw, hclosed⟩ := closed_object hl (fun h hx => cuttable_writeAt hl h hx) hv.2 hw
    exact ⟨_, more, rfl, hw, hclosed⟩
  | _ => exact absurd trivial hleaf

/-- No part of a written array or object is read as anything. -/
theorem malformed_readWhole {c : Char} {more : List Char} (hblank : isJsonBlank c = false)
    (hclosed : Closed (value ds.length nestingLimit) (c :: more)) (hds : ds <+: c :: more) (hne : ds ≠ c :: more) :
    Malformed (readWhole ds) := by
  unfold readWhole
  split
  · exact ⟨.byteOrderMark, ds, rfl⟩
  · have hnil : Blanks [] := fun c hc => absurd hc List.not_mem_nil
    obtain ⟨hpart, hthere⟩ := skipBlanks_of_prefix hnil hblank hds
    rcases hclosed (skipBlanks ds) [] (by rwa [List.append_nil]) with hrefused | ⟨v, rest, _, hwhole⟩
    · exact hrefused.bind _
    · have hfilled : skipBlanks ds ≠ [] := by simp [hwhole]
      have hall : ds = c :: more ++ rest := (hthere.resolve_left hfilled).trans hwhole
      exact absurd (hds.eq_of_length_le (by simp [hall])) hne

/-- A part of a written array or object is malformed wherever it is cut off, so that a reader tells it from the whole.
-/
theorem read_of_cut {layout : Layout} (hl : layout.Spaced) {v : Value} (hleaf : ¬ IsLeaf v) {cs : List Char}
    (hv : Fits IsChars nestingLimit v) (hw : write layout v = .ok (ofChars cs)) (hds : ds <+: cs) (hne : ds ≠ cs) :
    ∃ complaint position, read ds = .error (.malformed complaint position) := by
  obtain ⟨c, more, hopening, hcs, hclosed⟩ := closed_writeAt hl hleaf hv hw
  obtain rfl := ofChars_inj hcs
  have hblank : isJsonBlank c = false := by
    simp only [isOpening, Bool.or_eq_true, decide_eq_true_eq] at hopening
    rcases hopening with rfl | rfl <;> rfl
  obtain ⟨complaint, rest, hrefused⟩ := malformed_readWhole hblank (hclosed ds.length) hds hne
  exact ⟨complaint, _, by rw [read, hrefused]; rfl⟩

end TableServer.Json
