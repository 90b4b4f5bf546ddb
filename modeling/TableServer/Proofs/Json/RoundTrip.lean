import TableServer.Proofs.Json.Entries
import TableServer.Proofs.Json.Values

namespace TableServer.Json

open Text

/-- A text that a reader takes for a value, whatever comes behind it. -/
structure Reads (item : Reader Value) (v : Value) (cs : List Char) : Prop where
  opens : ∃ c more, cs = c :: more ∧ isJsonBlank c = false ∧ c ≠ ']' ∧ c ≠ '\ufeff'
  takes : ∀ rest, EndsNumber rest → item (cs ++ rest) = .ok (v, rest)

theorem Reads.skipBlanks {item : Reader Value} {v : Value} {cs : List Char} (h : Reads item v cs)
    (rest : List Char) : skipBlanks (cs ++ rest) = cs ++ rest := by
  obtain ⟨c, more, rfl, hc, _⟩ := h.opens
  exact skipBlanks_cons hc

/-- A text that a reader takes for an entry, whatever comes behind it. -/
structure Takes {α : Type} (entry : Reader α) (a : α) (cs : List Char) : Prop where
  opens : ∃ c more, cs = c :: more ∧ isJsonBlank c = false
  takes : ∀ rest, EndsNumber rest → entry (cs ++ rest) = .ok (a, rest)

section

variable {α : Type} {entry : Reader α} {a : α} {as : List α} {cs : List Char} {css : List (List Char)}

theorem Takes.skipBlanks (h : Takes entry a cs) (rest : List Char) : Json.skipBlanks (cs ++ rest) = cs ++ rest := by
  obtain ⟨c, more, rfl, hc⟩ := h.opens
  exact skipBlanks_cons hc

/-- Entries that are taken one by one are taken in a row, with commas between them and a bracket behind. -/
theorem entered_of_takes (closing : Char) (hblank : isJsonBlank closing = false) (hends : ∀ tail, EndsNumber (closing :: tail))
    {between last : List Char} (hbetween : Blanks between) (hlast : Blanks last) (rest : List Char)
    (hfirst : Takes entry a cs) (hmore : List.Forall₂ (Takes entry) as css) :
    Entered closing entry (cs ++ (moreItems between css ++ (last ++ closing :: rest))) (a :: as) rest := by
  induction hmore generalizing a cs with
  | nil =>
    refine .last (hfirst.takes _ (hlast.endsNumber_append (hends rest))) ?_
    change Json.skipBlanks (last ++ closing :: rest) = _
    rw [skipBlanks_append hlast, skipBlanks_cons hblank]
  | @cons b ds as css hb _ ih =>
    rw [moreItems_cons, List.cons_append]
    refine .more (hfirst.takes _ endsNumber_cons) (skipBlanks_cons rfl) ?_
    simp only [List.append_assoc]
    rw [skipBlanks_append hbetween, hb.skipBlanks]
    exact ih hb

end

theorem Reads.taken {item : Reader Value} {v : Value} {cs : List Char} (h : Reads item v cs) : Takes item v cs := by
  obtain ⟨c, more, hcs, hc, _⟩ := h.opens
  exact ⟨⟨c, more, hcs, hc⟩, h.takes⟩

/-- A text that a reader takes for a member, whatever comes behind it. -/
structure ReadsMember (item : Reader Value) (m : Text × Value) (cs : List Char) : Prop where
  spelled : ∃ (ascii : Bool) (name colon value : List Char), m.1 = ofChars name ∧ Blanks colon ∧
    Reads item m.2 value ∧ cs = '"' :: name.flatMap (spelling ascii) ++ '"' :: ':' :: colon ++ value

theorem ReadsMember.taken {item : Reader Value} {m : Text × Value} {cs : List Char} (h : ReadsMember item m cs) :
    Takes (member item) m cs := by
  obtain ⟨ascii, name, colon, value, hname, hcolon, hvalue, rfl⟩ := h.spelled
  obtain ⟨n, v⟩ := m
  obtain rfl : n = ofChars name := hname
  refine ⟨⟨'"', _, rfl, rfl⟩, fun rest hrest => ?_⟩
  simp only [List.cons_append, List.append_assoc]
  rw [member_colon (string_spelling _ name _) (skipBlanks_cons rfl), skipBlanks_append hcolon, hvalue.skipBlanks,
    hvalue.takes rest hrest]
  rfl

/-- Members of different names are kept as they are written. -/
theorem mergeMembers_eq_self {ms : List (Text × Value)} (h : (ms.map (·.1)).Nodup) : mergeMembers ms = ms := by
  have hset : ∀ (name : Text) (v : Value) (seen : List (Text × Value)), name ∉ seen.map (·.1) →
      setMember name v seen = seen ++ [(name, v)] := by
    intro name v seen hseen
    induction seen with
    | nil => rfl
    | cons m seen ih =>
      rw [List.map_cons, List.mem_cons, not_or] at hseen
      rw [setMember, if_neg (Ne.symm hseen.1), ih hseen.2, List.cons_append]
  have hfold : ∀ seen : List (Text × Value), (seen.map (·.1) ++ ms.map (·.1)).Nodup →
      ms.foldl (fun members m => setMember m.1 m.2 members) seen = seen ++ ms := by
    intro seen hseen
    clear h
    induction ms generalizing seen with
    | nil => simp
    | cons m ms ih =>
      obtain ⟨name, v⟩ := m
      have hname : name ∉ seen.map (·.1) := fun hm =>
        (List.nodup_append.mp hseen).2.2 name hm name List.mem_cons_self rfl
      rw [List.foldl_cons]
      change ms.foldl _ (setMember name v seen) = _
      rw [hset name v seen hname, ih]
      · simp
      · simpa using hseen
  exact hfold [] (by simpa using h)

theorem value_eq_scalar {c : Char} (hquote : c ≠ '"') (hbracket : c ≠ '[') (hbrace : c ≠ '\x7b')
    (fuel depth : Nat) (more : List Char) : value fuel depth (c :: more) = scalar (c :: more) := by
  unfold value
  split
  · next heq => exact absurd (List.cons.inj heq).1 hquote
  · next heq => exact absurd (List.cons.inj heq).1 hbracket
  · next heq => exact absurd (List.cons.inj heq).1 hbracket
  · next heq => exact absurd (List.cons.inj heq).1 hbrace
  · next heq => exact absurd (List.cons.inj heq).1 hbrace
  · rfl

/-- No blank, and no character that opens or closes anything. -/
def StartsScalar (c : Char) : Prop :=
  isJsonBlank c = false ∧ c ∉ ['"', '[', ']', '\x7b', '\ufeff']

instance (c : Char) : Decidable (StartsScalar c) := inferInstanceAs (Decidable (_ ∧ _))

/-- What is taken for a scalar is taken for a value. -/
theorem reads_scalar {c : Char} {more : List Char} {v : Value} (hstart : StartsScalar c)
    (hscalar : ∀ rest, EndsNumber rest → scalar (c :: (more ++ rest)) = .ok (v, rest)) (fuel depth : Nat) :
    Reads (value fuel depth) v (c :: more) := by
  obtain ⟨hblank, hc⟩ := hstart
  simp only [List.mem_cons, List.not_mem_nil, or_false, not_or] at hc
  obtain ⟨hquote, hopening, hclosing, hbrace, hmark⟩ := hc
  refine ⟨⟨c, more, rfl, hblank, hclosing, hmark⟩, fun rest hrest => ?_⟩
  rw [List.cons_append, value_eq_scalar hquote hopening hbrace]
  exact hscalar rest hrest

theorem reads_null (fuel depth : Nat) : Reads (value fuel depth) .null ['n', 'u', 'l', 'l'] :=
  reads_scalar (by decide) (fun rest _ => by simp [scalar, words, List.isPrefixOf]) fuel depth

theorem reads_true (fuel depth : Nat) : Reads (value fuel depth) (.boolean true) ['t', 'r', 'u', 'e'] :=
  reads_scalar (by decide) (fun rest _ => by simp [scalar, words, List.isPrefixOf]) fuel depth

theorem reads_false (fuel depth : Nat) : Reads (value fuel depth) (.boolean false) ['f', 'a', 'l', 's', 'e'] :=
  reads_scalar (by decide) (fun rest _ => by simp [scalar, words, List.isPrefixOf]) fuel depth

theorem startsScalar_of_digit {c : Char} (h : c.isDigit = true ∨ c = '-') : StartsScalar c := by
  have hne : ∀ d : Char, d.isDigit = false → d ≠ '-' → c ≠ d := by
    rintro d hdigit hminus rfl
    rcases h with h | h
    · rw [hdigit] at h
      contradiction
    · exact hminus h
  constructor
  · simp [isJsonBlank, hne]
  · simp [hne]

/-- Every value without others inside is taken as it is written; of integers that takes the end of their digits to be
known. -/
theorem reads_integer {n : Int} {cs : List Char} (h : writeInteger n = .ok (ofChars cs)) (fuel depth : Nat) :
    Reads (value fuel depth) (.integer n) cs := by
  have hscalar : ∀ rest, EndsNumber rest → scalar (cs ++ rest) = .ok (.integer n, rest) :=
    fun _ hrest => scalar_integer h hrest
  obtain ⟨d, more, rfl, hd⟩ : ∃ d more, cs = d :: more ∧ (d.isDigit = true ∨ d = '-') := by
    obtain rfl := ofChars_inj (writeInteger_eq h).2
    split
    · exact ⟨_, _, rfl, .inr rfl⟩
    · obtain ⟨d, ds, hds, hdigit⟩ := exists_cons_toDigits n.natAbs
      exact ⟨d, ds, hds, .inl hdigit⟩
  exact reads_scalar (startsScalar_of_digit hd) hscalar fuel depth

theorem reads_string (ascii : Bool) (cs : List Char) (fuel depth : Nat) :
    Reads (value fuel depth) (.string (ofChars cs)) ('"' :: cs.flatMap (spelling ascii) ++ ['"']) := by
  refine ⟨⟨'"', _, rfl, rfl, by decide, by decide⟩, fun rest _ => ?_⟩
  simp only [List.cons_append, List.append_assoc, List.nil_append]
  rw [value, string_spelling]
  rfl

theorem reads_leaf {layout : Layout} {depth : Nat} {v : Value} {level : Nat} {w : Text} (hleaf : IsLeaf v)
    (hv : Fits IsChars depth v) (hw : writeAt layout level v = .ok w) :
    ∃ cs, w = ofChars cs ∧ ∀ fuel, Reads (value fuel depth) v cs := by
  cases v with
  | null =>
    obtain rfl := Except.ok.inj hw
    exact ⟨_, rfl, fun fuel => reads_null fuel depth⟩
  | boolean b =>
    obtain rfl := Except.ok.inj hw
    cases b with
    | true => exact ⟨_, rfl, fun fuel => reads_true fuel depth⟩
    | false => exact ⟨_, rfl, fun fuel => reads_false fuel depth⟩
  | integer n =>
    obtain ⟨_, rfl⟩ := writeInteger_eq hw
    exact ⟨_, rfl, fun fuel => reads_integer hw fuel depth⟩
  | real x =>
    rw [Fits] at hv
    exact hv.elim
  | string t =>
    obtain rfl := Except.ok.inj hw
    rw [Fits] at hv
    obtain ⟨cs, rfl⟩ := hv.exists_ofChars
    exact ⟨_, writeString_ofChars layout.ascii cs, fun fuel => reads_string layout.ascii cs fuel depth⟩
  | array vs => exact hleaf.elim
  | object ms => exact hleaf.elim

/-- Any piece of an enclosed text is shorter than the text, and there are no more pieces than characters. -/
theorem length_le_moreItems (between : List Char) {item : List Char} {items : List (List Char)} (h : item ∈ items) :
    item.length ≤ (moreItems between items).length := by
  induction items with
  | nil => contradiction
  | cons i items ih =>
    rw [moreItems_cons]
    simp only [List.length_cons, List.length_append]
    rcases List.mem_cons.mp h with rfl | h
    · omega
    · have := ih h
      omega

theorem length_le_length_moreItems (between : List Char) (items : List (List Char)) :
    items.length ≤ (moreItems between items).length := by
  induction items with
  | nil => exact Nat.zero_le _
  | cons i items ih =>
    rw [moreItems_cons]
    simp only [List.length_cons, List.length_append]
    omega

/-- Entries that are taken one by one are taken between brackets, with whatever blanks stand around them. -/
theorem bracketed_takes {α : Type} (closing : Char) (hclosing : closing ≠ ',') (hblank : isJsonBlank closing = false)
    (hends : ∀ tail, EndsNumber (closing :: tail)) {first between last : List Char} (hfirst : Blanks first)
    (hbetween : Blanks between) (hlast : Blanks last) {entry : Reader α} {a : α} {as : List α} {cs : List Char}
    {css : List (List Char)} (hone : Takes entry a cs) (hmore : List.Forall₂ (Takes entry) as css)
    (hnot : cs.head? ≠ some closing) {fuel : Nat} (hfuel : as.length < fuel) (build : List α → Value) (rest : List Char) :
    bracketed closing (entries closing entry fuel) build
      (first ++ (cs ++ (moreItems between css ++ (last ++ closing :: rest)))) = .ok (build (a :: as), rest) := by
  have hopens : (cs ++ (moreItems between css ++ (last ++ closing :: rest))).head? ≠ some closing := by
    obtain ⟨c, more, rfl, _⟩ := hone.opens
    exact hnot
  rw [bracketed, skipBlanks_append hfirst, hone.skipBlanks, if_neg hopens,
    (entered_of_takes closing hblank hends hbetween hlast rest hone hmore).entries_eq hclosing hfuel]
  rfl

/-- Values that are taken one by one are taken as an array between brackets. -/
theorem value_array {fuel depth : Nat} {first between last : List Char} (hfirst : Blanks first)
    (hbetween : Blanks between) (hlast : Blanks last) {v : Value} {cs : List Char} {vs : List Value}
    {css : List (List Char)} (hone : Reads (value fuel depth) v cs)
    (hmore : List.Forall₂ (Reads (value fuel depth)) vs css) (hfuel : vs.length < fuel) :
    Reads (value fuel (depth + 1)) (.array (v :: vs))
      ('[' :: (first ++ (cs ++ (moreItems between css ++ (last ++ [']']))))) := by
  refine ⟨⟨'[', _, rfl, rfl, by decide, by decide⟩, fun rest _ => ?_⟩
  simp only [List.cons_append, List.append_assoc, List.nil_append]
  have hnot : cs.head? ≠ some ']' := by
    obtain ⟨c, more, rfl, _, hc, _⟩ := hone.opens
    exact fun heq => hc (Option.some.inj heq)
  rw [value, array_eq]
  exact bracketed_takes ']' (by decide) rfl (fun _ => endsNumber_cons) hfirst hbetween hlast hone.taken
    (hmore.imp fun _ _ => Reads.taken) hnot hfuel _ rest

theorem value_object {fuel depth : Nat} {first between last : List Char} (hfirst : Blanks first)
    (hbetween : Blanks between) (hlast : Blanks last) {m : Text × Value} {cs : List Char}
    {ms : List (Text × Value)} {css : List (List Char)} (hone : ReadsMember (value fuel depth) m cs)
    (hmore : List.Forall₂ (ReadsMember (value fuel depth)) ms css) (hfuel : ms.length < fuel)
    (hnames : ((m :: ms).map (·.1)).Nodup) :
    Reads (value fuel (depth + 1)) (.object (m :: ms))
      ('\x7b' :: (first ++ (cs ++ (moreItems between css ++ (last ++ ['\x7d']))))) := by
  refine ⟨⟨'\x7b', _, rfl, rfl, by decide, by decide⟩, fun rest _ => ?_⟩
  simp only [List.cons_append, List.append_assoc, List.nil_append]
  have hnot : cs.head? ≠ some '\x7d' := by
    obtain ⟨ascii, name, colon, spelled, _, _, _, rfl⟩ := hone.spelled
    simp
  rw [value, object_eq]
  have htaken := bracketed_takes '\x7d' (by decide) rfl (fun _ => endsNumber_cons) hfirst hbetween hlast hone.taken
    (hmore.imp fun _ _ => ReadsMember.taken) hnot hfuel (fun ms => .object (mergeMembers ms)) rest
  rwa [mergeMembers_eq_self hnames] at htaken

theorem reads_empty_array (fuel depth : Nat) : Reads (value fuel (depth + 1)) (.array []) ['[', ']'] := by
  refine ⟨⟨'[', _, rfl, rfl, by decide, by decide⟩, fun rest _ => ?_⟩
  change value fuel (depth + 1) ('[' :: ']' :: rest) = _
  rw [value, array, skipBlanks_cons rfl]
  rfl

theorem reads_empty_object (fuel depth : Nat) :
    Reads (value fuel (depth + 1)) (.object []) ['\x7b', '\x7d'] := by
  refine ⟨⟨'\x7b', _, rfl, rfl, by decide, by decide⟩, fun rest _ => ?_⟩
  change value fuel (depth + 1) ('\x7b' :: '\x7d' :: rest) = _
  rw [value, object, skipBlanks_cons rfl]
  rfl

/-- A text that is taken for a value with any fuel that is not less than its length. -/
def ReadsAt (depth : Nat) (v : Value) (cs : List Char) : Prop :=
  ∀ fuel, cs.length ≤ fuel → Reads (value fuel depth) v cs

/-- What is written for items is a text for each, if it is for every value that fits. -/
theorem exists_items {layout : Layout} {depth level : Nat} {P : Value → List Char → Prop}
    (hone : ∀ {v : Value} {w : Text}, Fits IsChars depth v → writeAt layout level v = .ok w →
      ∃ cs, w = ofChars cs ∧ P v cs) {vs : List Value} {ws : List Text}
    (hvs : ∀ v ∈ vs, Fits IsChars depth v)
    (hws : List.Forall₂ (fun v w => writeAt layout level v = .ok w) vs ws) :
    ∃ css : List (List Char), ws = css.map ofChars ∧ List.Forall₂ P vs css := by
  induction hws with
  | nil => exact ⟨[], rfl, .nil⟩
  | cons hfirst hrest ih =>
    obtain ⟨hv, hmore⟩ := List.forall_mem_cons.mp hvs
    obtain ⟨cs, rfl, hcs⟩ := hone hv hfirst
    obtain ⟨css, rfl, hcss⟩ := ih hmore
    exact ⟨cs :: css, rfl, .cons hcs hcss⟩

/-- A text of a member: its name between quotes, and behind a colon a text of its value. -/
def SpellsMember (ascii : Bool) (P : Value → List Char → Prop) (m : Text × Value) (cs : List Char) : Prop :=
  ∃ name colon value, m.1 = ofChars name ∧ Blanks colon ∧ P m.2 value ∧
    cs = '"' :: name.flatMap (spelling ascii) ++ '"' :: ':' :: colon ++ value

theorem exists_members {layout : Layout} (hl : layout.Spaced) {depth level : Nat} {P : Value → List Char → Prop}
    (hone : ∀ {v : Value} {w : Text}, Fits IsChars depth v → writeAt layout level v = .ok w →
      ∃ cs, w = ofChars cs ∧ P v cs) {ms : List (Text × Value)} {ws : List Text}
    (hms : ∀ m ∈ ms, m.1.IsChars ∧ Fits IsChars depth m.2)
    (hws : List.Forall₂ (fun m w => ∃ x, writeAt layout level m.2 = .ok x ∧ w = memberText layout m.1 x)
      ms ws) :
    ∃ css : List (List Char), ws = css.map ofChars ∧ List.Forall₂ (SpellsMember layout.ascii P) ms css := by
  induction hws with
  | nil => exact ⟨[], rfl, .nil⟩
  | @cons m w ms ws hfirst hrest ih =>
    obtain ⟨⟨hname, hvalue⟩, hmore⟩ := List.forall_mem_cons.mp hms
    obtain ⟨x, hx, rfl⟩ := hfirst
    obtain ⟨cs, rfl, hcs⟩ := hone hvalue hx
    obtain ⟨css, rfl, hcss⟩ := ih hmore
    obtain ⟨name, hname⟩ := hname.exists_ofChars
    obtain ⟨colon, hcolon, hblanks⟩ := hl.colon
    refine ⟨('"' :: name.flatMap (spelling layout.ascii) ++ '"' :: ':' :: colon ++ cs) :: css, ?_,
      .cons ⟨name, colon, cs, hname, hblanks, hcs, rfl⟩ hcss⟩
    rw [memberText, hname, hcolon, writeString_ofChars]
    simp [ofChars]

/-- A text that is taken for a member with any fuel that is not less than its length. -/
def ReadsMemberAt (depth : Nat) (m : Text × Value) (cs : List Char) : Prop :=
  ∀ fuel, cs.length ≤ fuel → ReadsMember (value fuel depth) m cs

theorem readsMemberAt_of_spells {ascii : Bool} {depth : Nat} {m : Text × Value} {cs : List Char}
    (h : SpellsMember ascii (ReadsAt depth) m cs) : ReadsMemberAt depth m cs := by
  obtain ⟨name, colon, value, hname, hcolon, hvalue, rfl⟩ := h
  intro fuel hfuel
  have hlen : value.length ≤ fuel := by
    simp only [List.length_append] at hfuel
    omega
  exact ⟨ascii, name, colon, value, hname, hcolon, hvalue fuel hlen, rfl⟩

/-- Texts that are no longer than the fuel are taken with that fuel. -/
theorem forall₂_of_length {β : Type} {P : Nat → β → List Char → Prop} (fuel : Nat) {bs : List β} {css : List (List Char)}
    (h : List.Forall₂ (fun b cs => ∀ fuel, cs.length ≤ fuel → P fuel b cs) bs css) (hlen : ∀ cs ∈ css, cs.length ≤ fuel) :
    List.Forall₂ (P fuel) bs css := by
  induction h with
  | nil => exact .nil
  | cons hone hrest ih =>
    obtain ⟨hfirst, hmore⟩ := List.forall_mem_cons.mp hlen
    exact .cons (hone fuel hfirst) (ih hmore)

/-- Fuel for all further items is enough for each of them, and for their number. -/
theorem forall₂_of_moreItems {β : Type} {P : Nat → β → List Char → Prop} (fuel : Nat) (between : List Char) {bs : List β}
    {css : List (List Char)} (h : List.Forall₂ (fun b cs => ∀ fuel, cs.length ≤ fuel → P fuel b cs) bs css)
    (hfuel : (moreItems between css).length < fuel) : List.Forall₂ (P fuel) bs css ∧ bs.length < fuel := by
  constructor
  · apply forall₂_of_length fuel h
    intro cs hcs
    exact Nat.le_trans (length_le_moreItems between hcs) (Nat.le_of_lt hfuel)
  · rw [h.length_eq]
    exact Nat.lt_of_le_of_lt (length_le_length_moreItems between css) hfuel

/-- What is written for a value is read as the value. -/
theorem reads_writeAt {layout : Layout} (hl : layout.Spaced) {depth : Nat} {v : Value} {level : Nat}
    {w : Text} (hv : Fits IsChars depth v) (hw : writeAt layout level v = .ok w) :
    ∃ cs, w = ofChars cs ∧ ReadsAt depth v cs := by
  induction depth generalizing v level w with
  | zero =>
    have hleaf : IsLeaf v := by
      cases v with
      | array vs => exact hv.elim
      | object ms => exact hv.elim
      | _ => trivial
    obtain ⟨cs, hcs, hreads⟩ := reads_leaf hleaf hv hw
    exact ⟨cs, hcs, fun fuel _ => hreads fuel⟩
  | succ depth ih =>
    obtain ⟨first, between, last, hfirst, hbetween, hlast, henclose⟩ := layout.enclose_ofChars hl level
    cases v with
    | array vs =>
      obtain ⟨ws, hws, rfl⟩ := writeAt_array_iff.mp hw
      obtain ⟨css, rfl, hcss⟩ := exists_items (fun h hx => ih h hx) hv (writeItems_eq_ok_iff.mp hws)
      cases hcss with
      | nil => exact ⟨['[', ']'], rfl, fun fuel _ => reads_empty_array fuel depth⟩
      | @cons v cs vs css hone hmore =>
        refine ⟨_, henclose '[' ']' cs css, fun fuel hfuel => ?_⟩
        simp only [List.length_cons, List.length_append] at hfuel
        obtain ⟨hreads, hcount⟩ := forall₂_of_moreItems fuel between hmore (by omega)
        exact value_array hfirst hbetween hlast (hone fuel (by omega)) hreads hcount
    | object ms =>
      obtain ⟨ws, hws, rfl⟩ := writeAt_object_iff.mp hw
      obtain ⟨hnames, hms⟩ := hv
      obtain ⟨css, rfl, hcss⟩ := exists_members hl (fun h hx => ih h hx) hms (writeMembers_eq_ok_iff.mp hws)
      cases hcss.imp fun _ _ => readsMemberAt_of_spells with
      | nil => exact ⟨['\x7b', '\x7d'], rfl, fun fuel _ => reads_empty_object fuel depth⟩
      | @cons m cs ms css hone hmore =>
        refine ⟨_, henclose '\x7b' '\x7d' cs css, fun fuel hfuel => ?_⟩
        simp only [List.length_cons, List.length_append] at hfuel
        obtain ⟨hreads, hcount⟩ := forall₂_of_moreItems fuel between hmore (by omega)
        exact value_object hfirst hbetween hlast (hone fuel (by omega)) hreads hcount hnames
    | _ =>
      obtain ⟨cs, hcs, hreads⟩ := reads_leaf (by exact trivial) hv hw
      exact ⟨cs, hcs, fun fuel _ => hreads fuel⟩

/-- A whole text has enough fuel for all of its values, since it is as long as they are together. -/
theorem read_of_readsAt {v : Value} {cs tail : List Char} (h : ReadsAt nestingLimit v cs)
    (htail : Blanks tail) : read (cs ++ tail) = .ok v := by
  have hreads := h (cs ++ tail).length (by simp)
  obtain ⟨c, more, rfl, hc, _, hmark⟩ := hreads.opens
  have hends : EndsNumber tail := by
    have := htail.endsNumber_append endsNumber_nil
    rwa [List.append_nil] at this
  have hfront : (c :: more ++ tail).head? ≠ some '\ufeff' := fun he => hmark (Option.some.inj he)
  unfold read readWhole
  rw [if_neg hfront, hreads.skipBlanks, hreads.takes tail hends]
  simp only [bind, Except.bind, skipBlanks_all htail]
  rfl

/-- A value that has been written is read again, with blanks behind it or none. -/
theorem read_write {layout : Layout} (hl : layout.Spaced) {v : Value} {w : Text}
    (hv : Fits IsChars nestingLimit v) (hw : write layout v = .ok w) :
    ∃ cs, w = ofChars cs ∧ ∀ tail, Blanks tail → read (cs ++ tail) = .ok v := by
  obtain ⟨cs, hcs, hreads⟩ := reads_writeAt hl hv hw
  exact ⟨cs, hcs, fun tail => read_of_readsAt hreads⟩

end TableServer.Json
